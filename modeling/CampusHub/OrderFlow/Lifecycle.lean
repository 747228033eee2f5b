import CampusHub.OrderFlow.Events
import CampusHub.OrderFlow.Orders
import CampusHub.FlashSale.Rules
import CampusHub.Cancellation.Outbox

/-!
# Queries and cancellations by the owner of an order

* `queryMine` — what a user is told about an order, from its row, the accepted request, the index of
  the archived orders, the dead letter and its redrives.
* `cancelMine` — the cancellation transaction.
* `cancelMine_cases` — what it can do.

The session and account checks of `requireUser` have passed.

A query reads up to five places one after the other: the row, then in Redis the accepted request, the index
of the archived orders, the dead letter that it names, and the redrive recorded for that letter. Any of the
reads may find a key of a wrong type or a letter of another order, and then the answer is that the state is
not available. The reads are one step here.

`cancelMine` is one transaction. It cancels an unpaid row, gives its unit of stock back and notes the
cancellation in the outbox, or it changes nothing; `cancelMine_cases` says which, with everything that the
writing case has checked.

**Left out.** The payment states of an order beyond their names, and requests of other users' orders by
staff, which the source does not have.
-/

namespace CampusHub.OrderFlow

open CampusHub.Redis CampusHub.Foundations.Guards CampusHub.Foundations.Maps
open CampusHub.Foundations.Tables CampusHub.Foundations.Json CampusHub.Domain
open CampusHub.FlashSale.Rules CampusHub.Cancellation

/-- Source: `OrderStatusResponse.java`. -/
structure OrderStatusResponse where
  orderId : String
  voucherId : String
  status : String
  cancellationCompensation : Option String
  createTime : Option ℕ
  updateTime : Option ℕ
  deriving DecidableEq

/-- Source: `OrderLifecycleService.java` 144. -/
def unavailable : BusinessException := { errorCode := .orderStateUnavailable }

/-- `opsForHash().get`; a key of another type is a data-access failure. -/
def hashGet (ks : Keyspace Key) (k : Key) (field : String) :
    Except BusinessException (Option String) := do
  ensure (Typed ks k .hash) unavailable
  .ok (ks.hget k field)

/-- Source: `OrderLifecycleService.java` 101–104. -/
def hasOwnedAcceptance (ks : Keyspace Key) (id voucherId userId : LongId) :
    Except BusinessException Bool := do
  let accepted ← hashGet ks (.request voucherId) userId.text
  .ok (accepted = some id.text)

/-- The three pairs of a payload with different names. Source: `OrderLifecycleService.java` 118–122. -/
def pairsOf : List String → Option Fields
  | [k₁, v₁, k₂, v₂, k₃, v₃] =>
    if [k₁, k₂, k₃].Nodup then some [(k₁, v₁), (k₂, v₂), (k₃, v₃)] else none
  | _ => none

/-- The order of a dead letter. Source: `OrderLifecycleService.java` 111–126. -/
def letterOrder (ks : Keyspace Key) (letter : String) : Except BusinessException VoucherOrder := do
  ensure (Typed ks .dead .stream) unavailable
  let entries ← getOr ((ks.stream .dead).xrange letter) unavailable
  let entry ← getOr entries.head? unavailable
  ensure (entries.length = 1) unavailable
  let payload ← getOr ((writeFields ∅ entry.2).lookup "payload") unavailable
  let fields ← getOr (decodeStrings payload) unavailable
  let values ← getOr (pairsOf fields) unavailable
  getOr (decode values).toOption unavailable

/-- Source: `OrderLifecycleService.java` 106–129. -/
def failedAcceptance (ks : Keyspace Key) (id voucherId userId : LongId) :
    Except BusinessException Bool := do
  let indexed ← hashGet ks .failures ("order:" ++ id.text)
  match indexed with
  | none => .ok false
  | some letter => do
    let original ← letterOrder ks letter
    ensure (original = ⟨id, userId, voucherId⟩) unavailable
    let redriven ← hashGet ks .redrives letter
    .ok (redriven = none)

/-- The name of an order status. Source: `OrderLifecycleService.java` 133–135. -/
def stateName (code : ℕ) : Option String :=
  if code < 1 then none
  else ["", "PENDING_PAYMENT", "PAID", "REDEEMED", "CANCELLED", "REFUNDING", "REFUNDED"][code]?

/-- Source: `OrderLifecycleService.java` 136–140. -/
def compensationOf (cancellations : Outbox.Table) (order : OrderRow) : Option String :=
  if order.status = 4 then
    match cancellations.lookup order.id with
    | none => some "UNTRACKED"
    | some entry => some entry.status.name
  else none

/-- Source: `OrderLifecycleService.java` 131–142. -/
def persisted (db : Database) (order : OrderRow) : Except BusinessException OrderStatusResponse := do
  let state ← getOr (stateName order.status) unavailable
  .ok ⟨order.id.text, order.voucherId.text, state, compensationOf db.cancellations order,
    some order.createTime, some order.updateTime⟩

/-- Source: `OrderLifecycleService.java` 44–53. -/
def queryMine (ks : Keyspace Key) (db : Database) (userId id voucherId : LongId) :
    Except BusinessException OrderStatusResponse :=
  match db.orders.findOwned id userId voucherId with
  | some order => persisted db order
  | none => do
    let accepted ← hasOwnedAcceptance ks id voucherId userId
    ensure (accepted = true) { errorCode := .notFound }
    let failed ← failedAcceptance ks id voucherId userId
    .ok ⟨id.text, voucherId.text, if failed then "REQUIRES_REVIEW" else "ACCEPTED", none, none, none⟩

/-- The cancellation transaction; an error rolls back. Source: `OrderLifecycleService.java` 55–82. -/
def cancelMine (findFlashSale : LongId → Option Voucher) (ks : Keyspace Key) (db : Database)
    (clock : ℕ) (userId id voucherId : LongId) :
    Except BusinessException (OrderStatusResponse × Database) :=
  match db.orders.findOwned id userId voucherId with
  | none => do
    let accepted ← hasOwnedAcceptance ks id voucherId userId
    ensure (accepted = false) ⟨.conflict, "订单尚未落库，暂不能取消"⟩
    .error { errorCode := .notFound }
  | some order =>
    if order.status = 4 then (persisted db order).map fun r => (r, db)
    else do
      ensure (order.status = 1) ⟨.conflict, "只支持取消未支付订单，不提供退款"⟩
      let voucher ← getOr (findFlashSale voucherId) unavailable
      ensure (voucher.type = some 1) unavailable
      let rules ← flashSaleRules voucher
      let (orders, cancelled) := db.orders.cancelUnpaid clock id userId voucherId
      ensure (cancelled = 1) unavailable
      let (stock, returned) := returnStock db.stock voucherId
      ensure (returned = 1) unavailable
      let cancellations ← getOr (insertNew db.cancellations id
        (Outbox.newRow clock id userId voucherId rules.expiresAtMillis)) unavailable
      let db' : Database := ⟨stock, orders, cancellations⟩
      let after ← getOr (orders.findOwned id userId voucherId) unavailable
      let r ← persisted db' after
      .ok (r, db')

/-- A row that is found for its owner is the row of the id, of this user and this voucher. -/
theorem findOwned_eq_some {t : Orders} {id user voucher : LongId} {row : OrderRow} :
    t.findOwned id user voucher = some row ↔
      t.rows.lookup id = some row ∧ row.userId = user ∧ row.voucherId = voucher := by
  simp [Orders.findOwned, Option.filter_eq_some_iff]

/-- A cancellation that writes: the row is unpaid, and it becomes cancelled together with one unit of
stock given back and an outbox row. -/
structure Cancelled (findFlashSale : LongId → Option Voucher) (clock : ℕ) (userId id voucherId : LongId)
    (db db' : Database) : Prop where
  row : ∃ row, db.orders.rows.lookup id = some row ∧ row.userId = userId ∧
    row.voucherId = voucherId ∧ row.status = 1 ∧
    db'.orders.rows = db.orders.rows.insert id { row with status := 4, updateTime := clock }
  stock : ∃ k, db.stock.lookup voucherId = some k ∧ db'.stock = db.stock.insert voucherId (k + 1)
  cancellation : ∃ voucher rules, findFlashSale voucherId = some voucher ∧
    flashSaleRules voucher = .ok rules ∧ db.cancellations.lookup id = none ∧
    db'.cancellations = db.cancellations.insert id
      (Outbox.newRow clock id userId voucherId rules.expiresAtMillis)

/-- **What a cancellation can do.** -/
theorem cancelMine_cases {findFlashSale : LongId → Option Voucher} {ks : Keyspace Key}
    {db db' : Database} {clock : ℕ} {userId id voucherId : LongId} {r : OrderStatusResponse}
    (h : cancelMine findFlashSale ks db clock userId id voucherId = .ok (r, db')) :
    db' = db ∨ Cancelled findFlashSale clock userId id voucherId db db' := by
  unfold cancelMine at h
  split at h
  · simp only [hasOwnedAcceptance, hashGet, bind_assoc, ensure_bind_eq_ok] at h
    obtain ⟨-, h⟩ := h
    simp [bind, Except.bind, ensure] at h
    split at h <;> cases h
  · rename_i order hfound
    obtain ⟨hrow, huser, hvoucher⟩ := findOwned_eq_some.mp hfound
    split at h
    · left
      cases hp : persisted db order with
      | error e => rw [hp] at h; cases h
      | ok r' =>
        rw [hp] at h
        simp only [Except.map, Except.ok.injEq, Prod.mk.injEq] at h
        exact h.2.symm
    · right
      simp only [ensure_bind_eq_ok, getOr_bind_eq_ok] at h
      obtain ⟨hstatus, voucher, hfind, -, h⟩ := h
      cases hrules : flashSaleRules voucher with
      | error e => rw [hrules] at h; cases h
      | ok rules =>
        rw [hrules] at h
        change (ensure _ _ >>= _) = _ at h
        simp only [ensure_bind_eq_ok, getOr_bind_eq_ok] at h
        obtain ⟨hcancel, hreturn, cancellations, hinsert, after, -, h⟩ := h
        obtain ⟨hnone, rfl⟩ := insertNew_eq_some.mp hinsert
        cases hp : persisted ⟨(returnStock db.stock voucherId).1,
            (db.orders.cancelUnpaid clock id userId voucherId).1,
            db.cancellations.insert id (Outbox.newRow clock id userId voucherId
              rules.expiresAtMillis)⟩ after with
        | error e => rw [hp] at h; cases h
        | ok r' =>
          rw [hp] at h
          simp only [bind, Except.bind, Except.ok.injEq, Prod.mk.injEq] at h
          obtain ⟨-, rfl⟩ := h
          refine ⟨?_, ?_, voucher, rules, hfind, hrules, hnone, rfl⟩
          · rcases Orders.cancelUnpaid_cases (t := db.orders) clock id userId voucherId with
              ⟨row, hrow', huser', hvoucher', hone, -, hrows⟩ | hzero
            · exact ⟨row, hrow', huser', hvoucher', hone, hrows⟩
            · rw [hzero] at hcancel
              cases hcancel
          · rcases updateWhere_cases db.stock voucherId (fun k => 0 ≤ k ∧ k < 2147483647) (· + 1)
              with ⟨k, hk, -, hu⟩ | ⟨-, hu⟩
            · exact ⟨k, hk, congrArg Prod.fst hu⟩
            · rw [returnStock, hu] at hreturn
              cases hreturn

end CampusHub.OrderFlow
