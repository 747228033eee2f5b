import CampusHub.FlashSale.Admission
import CampusHub.FlashSale.Release
import CampusHub.OrderQueue.Transition
import CampusHub.OrderFlow.Lifecycle

/-!
# The order flow as a whole

* `Config` — the vouchers, their initial stock and the attempt budget of the consumers.
* `World` — the Redis keys and the database, the two clocks and the workers, with a record of what the
  scripts answered.
* `Act`, `step` — publications, admissions, consumers, cancellations, the reconciler and the operator,
  each of their calls to a store being one step, so that they interleave and die anywhere.
* `initial` — the stores before the first publication.

Everything that the claims about orders speak of happens in one world: the Redis keys of all vouchers and of
the order queue, the database, and any number of workers. An action is one call to one store. Where a call
of the source makes several, such as the handler of an entry, its stages are a `Job`, so that other actions
come in between and the worker may die (`crash`) or lose the answer of its commit (`persist` with an error).

The record in `World` (`candidates`, `accepted`, `released`) is not read by any action. It says what the
scripts have answered, and it is what the theorems relate the two stores to.

**Left out.** The checks of a request before the admission script, which are `OrderFlow.Admissions`, and the
creation of vouchers, which is `FlashSale.Creation`.
-/

namespace CampusHub.OrderFlow

open CampusHub.Redis CampusHub.Foundations.Guards CampusHub.Foundations.Maps CampusHub.Domain
open CampusHub.FlashSale.Rules CampusHub.FlashSale.Scripts CampusHub.FlashSale.Initialization
open CampusHub.FlashSale.Admission CampusHub.OrderQueue CampusHub.Cancellation

/-! ## The parties -/

/-- What does not change: the committed vouchers, the stock of each at its creation, and the budget of
the consumers. Source: `VoucherMapper.findFlashSale`, `OrderStreamQueue.java` 38–41. -/
structure Config where
  vouchers : FiniteMap LongId Voucher
  stock : FiniteMap LongId ℤ
  maxAttempts : ℕ
  key : ∀ {v voucher}, vouchers.lookup v = some voucher → voucher.id = v
  stock_eq : ∀ {v voucher}, vouchers.lookup v = some voucher → voucher.stock = stock.lookup v
  one_le : 1 ≤ maxAttempts
  le_hundred : maxAttempts ≤ 100

/-- A voucher with the stock that is left. Source: `VoucherMapper.findFlashSale`. -/
def Config.findFlashSale (c : Config) (db : Database) (v : LongId) : Option Voucher :=
  (c.vouchers.lookup v).map fun voucher => { voucher with stock := db.stock.lookup v }

/-- The consumer group of `stream.orders`. Source: `OrderStreamConsumer.java` 46. -/
def consumerGroup : String := "g1"

/-- Where a worker stands with an entry. Source: `OrderStreamConsumer.java` 104–123,
`VoucherOrderServiceImpl.java` 37–83. -/
inductive Job where
  | received (consumer : String) (id : StreamId) (fields : Fields)
  /-- `BEGIN` answered `0`. -/
  | spent (consumer : String) (id : StreamId)
  /-- `BEGIN` counted this attempt; the handler comes next. -/
  | begun (consumer : String) (id : StreamId) (fields : Fields)
  /-- The transaction has read the order of the user for the voucher, if there is one. -/
  | selected (consumer : String) (id : StreamId) (order : VoucherOrder) (existing : Option LongId)
  | returned (consumer : String) (id : StreamId)
  | threw (consumer : String) (id : StreamId) (errorClass : String)

/-- The stores, the Redis clock in milliseconds, the clock of the database in seconds and the workers;
the order ids drawn so far, for each voucher the orders that `seckill.lua` accepted, by their users,
and the orders that `release-cancelled-order.lua` released, with their users. -/
structure World where
  redis : Keyspace Key
  now : ℕ
  db : Database
  clock : ℕ
  jobs : ℕ → Option Job
  candidates : Finset LongId
  accepted : LongId → FiniteMap LongId LongId
  released : LongId → FiniteMap LongId LongId

/-- The order was accepted. -/
def World.Accepted (w : World) (o : VoucherOrder) : Prop :=
  (w.accepted o.voucherId).lookup o.userId = some o.id

/-- The steps of the system. -/
inductive Act where
  /-- The Redis clock moves on, and what has expired is gone. -/
  | tick (d : ℕ)
  | dbTick (d : ℕ)
  /-- A consumer instance starts. -/
  | initializeQueue
  | publish (v : LongId)
  /-- An admission under an order id; `appended` is false when the server refuses the `XADD`. -/
  | admitVoucher (v userId orderId : LongId) (appended : Bool)
  | readNew (k : ℕ) (consumer : String)
  | recover (k : ℕ) (consumer : String) (claimIdle : ℕ) (id : StreamId)
  | begin (k : ℕ)
  /-- The transaction of the handler starts and reads. -/
  | select (k : ℕ)
  /-- The handler fails before its commit, or does not get the lock. -/
  | refuse (k : ℕ) (thrown : Thrown)
  /-- The transaction writes and commits; its answer may be lost. -/
  | persist (k : ℕ) (lost : Option String)
  | finish (k : ℕ)
  /-- The worker dies. -/
  | crash (k : ℕ)
  | cancel (userId orderId v : LongId)
  | claim (orderId : LongId) (token : String)
  | record (orderId : LongId) (token : String) (outcome : Outbox.Outcome)
  | exhaust (orderId : LongId)
  /-- The reconciler calls the release script for a committed cancellation. -/
  | release (orderId : LongId)
  | redrive (deadId operator reason : String)

/-! ## Calls -/

/-- The call after the commit of a voucher. Source: `FlashSaleRedisPublisher.java` 31–50. -/
def publish (c : Config) (w : World) (v : LongId) :
    Except BusinessException (Outcome ℕ × Keyspace Key) := do
  let voucher ← getOr (c.vouchers.lookup v) { errorCode := .validationFailed }
  let arguments ← publishAfterCommit voucher
  .ok (Plan.run w.now (initializeFlashSale w.now w.redis (activityKeys v) arguments) w.redis)

/-- An admission under a drawn order id, of a user who may take part; an error is a refusal before
the script. Source: `FlashSaleAdmissionService.java` 54–76. -/
def admitVoucher (c : Config) (w : World) (v userId orderId : LongId) (appended : Bool) :
    Except BusinessException (Outcome Reply × Keyspace Key) := do
  let voucher ← getOr (c.findFlashSale w.db v) ⟨.notFound, "限量活动不存在"⟩
  ensure (voucher.type = some 1) ⟨.notFound, "限量活动不存在"⟩
  let rules ← flashSaleRules voucher
  .ok (Plan.run w.now (seckill w.now appended w.redis (activityKeys v ++ [.orders])
    (admissionArguments voucher rules userId orderId)) w.redis)

/-- The script accepted the order. -/
def accepts : Outcome Reply → Bool
  | .answer r => r.code = 0
  | .raised _ => false

/-- A call of the transition script. Source: `OrderStreamQueue.java` 83–94. -/
def transit (c : Config) (w : World) (a : Transition) (consumer : String) (id : StreamId) :
    Outcome ℤ × Keyspace Key :=
  Plan.run w.now
    (orderKeys.transition consumerGroup c.maxAttempts w.now w.redis a consumer id) w.redis

/-- Where a worker stands after its `BEGIN`. Source: `OrderStreamConsumer.java` 105–107. -/
def afterBegin (consumer : String) (id : StreamId) (fields : Fields) : Outcome ℤ → Option Job
  | .answer z =>
    if 0 < z then some (.begun consumer id fields)
    else if z = 0 then some (.spent consumer id)
    else none
  | .raised _ => none

/-- The release script for a committed cancellation. -/
def release (w : World) (e : Outbox.OrderCancellation) : Outcome ℕ × Keyspace Key :=
  Plan.run w.now (Outbox.release e w.now w.redis) w.redis

/-- An operator's call of `redrive-order.lua`, with any arguments. -/
def redrive (w : World) (deadId operator reason : String) : Outcome String × Keyspace Key :=
  Plan.run w.now (redriveOrder w.now w.redis [.orders, .dead, .redrives] [deadId, operator, reason])
    w.redis

/-! ## Steps -/

/-- The last call of a worker for its entry. Source: `OrderStreamConsumer.java` 107–122. -/
def lastCall : Job → Option (Transition × String × StreamId)
  | .spent consumer id => some (.failure "RetryBudgetExhausted", consumer, id)
  | .returned consumer id => some (.success, consumer, id)
  | .threw consumer id errorClass => some (.failure errorClass, consumer, id)
  | _ => none

/-- Where a worker stands after its commit, the answer of which may be lost. -/
def afterCommit (consumer : String) (id : StreamId) : Option String → Job
  | none => .returned consumer id
  | some errorClass => .threw consumer id errorClass

/-- The transaction of a handler. Source: `VoucherOrderServiceImpl.java` 54–83. -/
def persist (w : World) (k : ℕ) (lost : Option String) : World :=
  match w.jobs k with
  | some (.selected consumer id order existing) =>
    match persistVoucherOrder w.clock existing order w.db with
    | .ok db =>
      { w with
        db := db
        jobs := Function.update w.jobs k (some (afterCommit consumer id lost)) }
    | .error thrown =>
      { w with jobs := Function.update w.jobs k (some (.threw consumer id thrown.classification)) }
  | _ => w

/-- The steps of the consumers. -/
def consume (c : Config) (w : World) : Act → World
  | .readNew k consumer =>
    match w.jobs k, (w.redis.stream .orders).deliver w.now consumerGroup consumer with
    | none, some (e, s) =>
      { w with
        redis := w.redis.put .orders (.stream s)
        jobs := Function.update w.jobs k (some (.received consumer e.1 e.2)) }
    | _, _ => w
  | .recover k consumer claimIdle id =>
    match w.jobs k, (w.redis.stream .orders).claim w.now claimIdle consumerGroup consumer id with
    | none, some (fields, s) =>
      { w with
        redis := w.redis.put .orders (.stream s)
        jobs := Function.update w.jobs k (some (.received consumer id fields)) }
    | _, _ => w
  | .begin k =>
    match w.jobs k with
    | some (.received consumer id fields) =>
      let r := transit c w .begin consumer id
      { w with
        redis := r.2
        jobs := Function.update w.jobs k (afterBegin consumer id fields r.1) }
    | _ => w
  | .select k =>
    match w.jobs k with
    | some (.begun consumer id fields) =>
      { w with
        jobs := Function.update w.jobs k <|
          match decode fields with
          | .ok order => some (.selected consumer id order
              ((w.db.orders.find order.userId order.voucherId).map OrderRow.id))
          | .error errorClass => some (.threw consumer id errorClass) }
    | _ => w
  | .refuse k thrown =>
    match w.jobs k with
    | some (.begun consumer id _) | some (.selected consumer id _ _) =>
      { w with jobs := Function.update w.jobs k (some (.threw consumer id thrown.classification)) }
    | _ => w
  | .persist k lost => persist w k lost
  | .finish k =>
    match (w.jobs k).bind lastCall with
    | some (a, consumer, id) =>
      { w with
        redis := (transit c w a consumer id).2
        jobs := Function.update w.jobs k none }
    | none => w
  | .crash k => { w with jobs := Function.update w.jobs k none }
  | _ => w

/-- The next state; an action whose worker is not where the action wants it changes nothing. -/
def step (c : Config) (w : World) : Act → World
  | .tick d => { w with now := w.now + d, redis := w.redis.purge (w.now + d) }
  | .dbTick d => { w with clock := w.clock + d }
  | .initializeQueue =>
    match orderKeys.initializeQueue consumerGroup w.redis with
    | .ok redis => { w with redis := redis }
    | .error _ => w
  | .publish v =>
    match publish c w v with
    | .ok (_, redis) => { w with redis := redis }
    | .error _ => w
  | .admitVoucher v userId orderId appended =>
    match admitVoucher c w v userId orderId appended with
    | .ok (outcome, redis) =>
      { w with
        redis := redis
        candidates := insert orderId w.candidates
        accepted := if accepts outcome = true then
            Function.update w.accepted v ((w.accepted v).insert userId orderId)
          else w.accepted }
    | .error _ => w
  | .cancel userId orderId v =>
    match cancelMine (c.findFlashSale w.db) w.redis w.db w.clock userId orderId v with
    | .ok (_, db) => { w with db := db }
    | .error _ => w
  | .claim orderId token =>
    { w with db.cancellations := (Outbox.claim w.db.cancellations w.clock orderId token).1 }
  | .record orderId token outcome =>
    { w with
      db.cancellations := (Outbox.record w.db.cancellations w.clock orderId token outcome).1 }
  | .exhaust orderId =>
    { w with db.cancellations := (Outbox.exhaust w.db.cancellations w.clock orderId).1 }
  | .release orderId =>
    match w.db.cancellations.lookup orderId with
    | some e =>
      let r := release w e
      { w with
        redis := r.2
        released := if r.1 = .answer 0 then
            Function.update w.released e.voucherId
              ((w.released e.voucherId).insert e.orderId e.userId)
          else w.released }
    | none => w
  | .redrive deadId operator reason => { w with redis := (redrive w deadId operator reason).2 }
  | a => consume c w a

/-- Before the first publication: the vouchers are committed, the queue is created, no key of an
activity is there and nothing was ordered. -/
def initial (c : Config) (now clock : ℕ) : World where
  redis := emptyQueue
  now := now
  db := ⟨c.stock, .empty, ∅⟩
  clock := clock
  jobs := fun _ => none
  candidates := ∅
  accepted := fun _ => ∅
  released := fun _ => ∅

/-! ## A small sale -/

/-- Voucher `1` with one unit of stock, on sale between the first and the second second. -/
def voucherOnSale : Voucher where
  id := voucherOne
  type := some 1
  status := some 1
  stock := some 1
  beginTime := some ⟨1, 0⟩
  endTime := some ⟨2, 0⟩

/-- The sale of that voucher alone, with consumers that try once. -/
def smallSale : Config where
  vouchers := Finmap.singleton voucherOne voucherOnSale
  stock := Finmap.singleton voucherOne 1
  maxAttempts := 1
  key h := by
    obtain ⟨rfl, rfl⟩ := eq_of_lookup_singleton h
    rfl
  stock_eq h := by
    obtain ⟨rfl, rfl⟩ := eq_of_lookup_singleton h
    rw [Finmap.lookup_singleton_eq]
    rfl
  one_le := le_rfl
  le_hundred := by decide

end CampusHub.OrderFlow
