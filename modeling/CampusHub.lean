import CampusHub.Foundations.Runs
import CampusHub.Foundations.Guards
import CampusHub.Foundations.Decimal
import CampusHub.Foundations.Lua
import CampusHub.Foundations.Json
import CampusHub.Foundations.Maps
import CampusHub.Foundations.Tables
import CampusHub.Foundations.Transactions
import CampusHub.Foundations.Serializability
import CampusHub.Foundations.Endings
import CampusHub.Foundations.Guarantees
import CampusHub.Foundations.Framing
import CampusHub.Foundations.Slices
import CampusHub.Foundations.Sweeps
import CampusHub.Foundations.Scrolls
import CampusHub.Foundations.Like
import CampusHub.Foundations.Custody
import CampusHub.Foundations.Fence
import CampusHub.Foundations.Outboxes
import CampusHub.Foundations.Loops
import CampusHub.Foundations.Bits
import CampusHub.Foundations.Pools
import CampusHub.Redis.Stream
import CampusHub.Redis.Keyspace
import CampusHub.Redis.Bitmaps
import CampusHub.Domain
import CampusHub.FlashSale.Rules
import CampusHub.FlashSale.Scripts
import CampusHub.FlashSale.OrderIds
import CampusHub.FlashSale.Initialization
import CampusHub.FlashSale.Creation
import CampusHub.FlashSale.Admission
import CampusHub.FlashSale.Release
import CampusHub.Cancellation.Outbox
import CampusHub.OrderQueue.Scripts
import CampusHub.OrderQueue.Redrive
import CampusHub.OrderQueue.Transition
import CampusHub.OrderQueue.Consumer
import CampusHub.OrderQueue.Recovery
import CampusHub.OrderFlow.Events
import CampusHub.OrderFlow.Orders
import CampusHub.OrderFlow.Lifecycle
import CampusHub.OrderFlow.World
import CampusHub.OrderFlow.Moves
import CampusHub.OrderFlow.Activity
import CampusHub.OrderFlow.Provenance
import CampusHub.OrderFlow.Books
import CampusHub.OrderFlow.Stock
import CampusHub.OrderFlow.Agreement
import CampusHub.OrderFlow.Coverage
import CampusHub.OrderFlow.Status
import CampusHub.OrderFlow.Roundtrip
import CampusHub.ShopCache.Scripts
import CampusHub.ShopCache.World
import CampusHub.ShopCache.Shifts
import CampusHub.ShopCache.Currency
import CampusHub.Identity.SessionScripts
import CampusHub.Identity.Sessions
import CampusHub.Identity.Login
import CampusHub.Identity.Guessing
import CampusHub.Identity.Codes
import CampusHub.Identity.Accounts
import CampusHub.Access.Requests
import CampusHub.Access.Authentication
import CampusHub.Access.Shops
import CampusHub.Content.Requests
import CampusHub.Content.Tables
import CampusHub.Content.Writers
import CampusHub.Content.Effects
import CampusHub.Content.Regions
import CampusHub.Content.Discipline
import CampusHub.Content.Interleavings
import CampusHub.Content.Ledger
import CampusHub.Content.Withdrawal
import CampusHub.Content.LikeCounter
import CampusHub.Publishing.Tables
import CampusHub.Publishing.Writers
import CampusHub.Publishing.Promises
import CampusHub.Publishing.Receipts
import CampusHub.Publishing.Delivery
import CampusHub.Content.Fingerprint
import CampusHub.Content.Hot
import CampusHub.Content.Feed
import CampusHub.Content.Pages
import CampusHub.Engagement.MonthKeys
import CampusHub.Engagement.CheckIn
import CampusHub.Shops.Search
import CampusHub.Shops.SearchPages
import CampusHub.Shops.Nearby
import CampusHub.Shops.Types
import CampusHub.Social.Follows
import CampusHub.Social.CommonFollows
import CampusHub.Storage.Runs
import CampusHub.OrderFlow.Admissions
