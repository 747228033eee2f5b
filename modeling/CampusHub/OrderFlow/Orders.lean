import CampusHub.Foundations.Tables
import CampusHub.Cancellation.Outbox

/-!
# The order tables and the transactions on them

* `Orders` — `tb_voucher_order` with its primary key and its unique index on user and voucher, kept in
  step by the fields of the structure.
* `Database` — the stock of the vouchers, the orders and the cancellation outbox.
* `persistVoucherOrder` — the transaction of the order handler.
* `cancelUnpaid`, `returnStock` — the statements of a cancellation.

The table carries its unique index as a second map, and the structure says that the two agree: a row is
found under its id and under its user and voucher, and nothing else is in the index. So a duplicate key of
either kind is what `insert` answers, and `id_unique` needs no argument about histories.

**What is proved.** The transaction of the handler finds an order of the user, or it takes one unit of stock
and writes the row; anything else throws, and the database is as before (`persist_cases`). Conversely it
writes when there is stock and neither key is taken (`exists_persist`).

**Left out.** The payment columns, and the two lock statements of the handler and of the cancellation: both
transactions are one step of the world, between a read of their own and the commit.
-/

namespace CampusHub.OrderFlow

open CampusHub.Foundations.Maps CampusHub.Foundations.Tables CampusHub.Domain CampusHub.Cancellation

/-! ## The order table -/

/-- A row of `tb_voucher_order`; the times are whole seconds. Source: `hmdp.sql` 1266–1278. -/
structure OrderRow where
  id : LongId
  userId : LongId
  voucherId : LongId
  status : ℕ
  createTime : ℕ
  updateTime : ℕ
  deriving DecidableEq

/-- `tb_voucher_order` by its primary key, and `uk_voucher_order_user_voucher`.
Source: `hmdp.sql` 1266–1278, `V001__add_business_unique_constraints.sql` 30–34. -/
structure Orders where
  rows : FiniteMap LongId OrderRow
  index : FiniteMap (LongId × LongId) LongId
  key : ∀ {id row}, rows.lookup id = some row → row.id = id
  indexed : ∀ {user voucher id}, index.lookup (user, voucher) = some id ↔
    ∃ row, rows.lookup id = some row ∧ row.userId = user ∧ row.voucherId = voucher

namespace Orders

/-- The table before the first order. -/
def empty : Orders where
  rows := ∅
  index := ∅
  key h := by simp at h
  indexed := by simp

variable (t : Orders)

/-- The order of a user for a voucher. Source: `VoucherOrderServiceImpl.java` 60–61. -/
def find (user voucher : LongId) : Option OrderRow :=
  (t.index.lookup (user, voucher)).bind t.rows.lookup

/-- Source: `VoucherOrderMapper.java` 9–13; `lockOwned` reads the same row. -/
def findOwned (id user voucher : LongId) : Option OrderRow :=
  (t.rows.lookup id).filter fun row => row.userId = user ∧ row.voucherId = voucher

/-- An `INSERT`; `none` is a duplicate key, of the primary key or of the unique index. -/
def insert (row : OrderRow) : Option Orders :=
  if h : t.rows.lookup row.id = none ∧ t.index.lookup (row.userId, row.voucherId) = none then
    some
      { rows := t.rows.insert row.id row
        index := t.index.insert (row.userId, row.voucherId) row.id
        key := by
          intro id row' hrow
          rw [lookup_insert_eq] at hrow
          split at hrow
          · rename_i hid
            rw [← Option.some.inj hrow, hid]
          · exact t.key hrow
        indexed := by
          intro user voucher id
          rw [lookup_insert_eq]
          split
          · rename_i hkey
            rw [Prod.mk.injEq] at hkey
            obtain ⟨rfl, rfl⟩ := hkey
            constructor
            · intro hid
              obtain rfl := Option.some.inj hid
              exact ⟨row, by rw [lookup_insert_eq, if_pos rfl], rfl, rfl⟩
            · rintro ⟨row', hrow', huser, hvoucher⟩
              rw [lookup_insert_eq] at hrow'
              split at hrow'
              · rename_i hid
                rw [hid]
              · have hold := t.indexed.mpr ⟨row', hrow', huser, hvoucher⟩
                rw [h.2] at hold
                cases hold
          · rename_i hkey
            rw [t.indexed]
            constructor
            · rintro ⟨row', hrow', hrest⟩
              refine ⟨row', ?_, hrest⟩
              rw [lookup_insert_eq, if_neg, hrow']
              rintro rfl
              rw [h.1] at hrow'
              cases hrow'
            · rintro ⟨row', hrow', huser, hvoucher⟩
              rw [lookup_insert_eq] at hrow'
              split at hrow'
              · obtain rfl := Option.some.inj hrow'
                exact absurd (by rw [huser, hvoucher]) hkey
              · exact ⟨row', hrow', huser, hvoucher⟩ }
  else none

/-- Source: `VoucherOrderMapper.java` 15–17. -/
def cancelUnpaid (clock : ℕ) (id user voucher : LongId) : Orders × ℕ :=
  let p : OrderRow → Prop := fun row =>
    row.userId = user ∧ row.voucherId = voucher ∧ row.status = 1
  let f : OrderRow → OrderRow := fun row => { row with status := 4, updateTime := clock }
  let result := updateWhere t.rows id p f
  ({ rows := result.1
     index := t.index
     key := by
       intro id' row hrow
       rcases lookup_updateWhere hrow with hold | ⟨rfl, old, hold, -, rfl⟩
       · exact t.key hold
       · show old.id = _
         exact t.key hold
     indexed := by
       intro user' voucher' id'
       rw [t.indexed]
       constructor
       · rintro ⟨row, hrow, hrest⟩
         by_cases hid : id' = id ∧ p row
         · obtain ⟨rfl, hp⟩ := hid
           refine ⟨f row, ?_, hrest⟩
           rw [show result = _ from updateWhere_of hrow hp f, lookup_insert_eq, if_pos rfl]
         · refine ⟨row, ?_, hrest⟩
           rcases updateWhere_cases t.rows id p f with ⟨old, hold, hp, hu⟩ | ⟨-, hu⟩
           · rw [show result = _ from hu, lookup_insert_eq, if_neg, hrow]
             rintro rfl
             rw [hrow, Option.some.injEq] at hold
             exact hid ⟨rfl, hold ▸ hp⟩
           · rw [show result = _ from hu, hrow]
       · rintro ⟨row, hrow, hrest⟩
         rcases lookup_updateWhere hrow with hold | ⟨rfl, old, hold, -, rfl⟩
         · exact ⟨row, hold, hrest⟩
         · exact ⟨old, hold, hrest⟩ },
   result.2)

variable {t}

/-- What an `INSERT` does. -/
theorem insert_eq_some {row : OrderRow} {t' : Orders} (h : t.insert row = some t') :
    t.rows.lookup row.id = none ∧ t.index.lookup (row.userId, row.voucherId) = none ∧
      t'.rows = t.rows.insert row.id row := by
  unfold insert at h
  split at h
  · rename_i hnew
    rw [← Option.some.inj h]
    exact ⟨hnew.1, hnew.2, rfl⟩
  · cases h

/-- An `INSERT` whose two keys are free is accepted. -/
theorem exists_insert {row : OrderRow} (hid : t.rows.lookup row.id = none)
    (hkey : t.index.lookup (row.userId, row.voucherId) = none) :
    ∃ t', t.insert row = some t' := by
  unfold insert
  rw [dif_pos ⟨hid, hkey⟩]
  exact ⟨_, rfl⟩

/-- The order of a user for a voucher is the one row with both. -/
theorem find_eq_some {user voucher : LongId} {row : OrderRow} :
    t.find user voucher = some row ↔
      t.rows.lookup row.id = some row ∧ row.userId = user ∧ row.voucherId = voucher := by
  unfold find
  rw [Option.bind_eq_some_iff]
  constructor
  · rintro ⟨id, hid, hrow⟩
    obtain ⟨row', hrow', huser, hvoucher⟩ := t.indexed.mp hid
    obtain rfl := Option.some.inj (hrow.symm.trans hrow')
    rw [t.key hrow]
    exact ⟨hrow, huser, hvoucher⟩
  · rintro ⟨hrow, hrest⟩
    exact ⟨row.id, t.indexed.mpr ⟨row, hrow, hrest⟩, hrow⟩

/-- A user has no order for a voucher exactly when the unique index has no entry. -/
theorem find_eq_none {user voucher : LongId} :
    t.find user voucher = none ↔ t.index.lookup (user, voucher) = none := by
  unfold find
  rw [Option.bind_eq_none_iff]
  constructor
  · intro h
    cases hid : t.index.lookup (user, voucher) with
    | none => rfl
    | some id =>
      obtain ⟨row, hrow, -⟩ := t.indexed.mp hid
      rw [h id hid] at hrow
      cases hrow
  · intro h id hid
    rw [h] at hid
    cases hid

/-- A user has one order for a voucher. -/
theorem id_unique {id id' : LongId} {row row' : OrderRow} (h : t.rows.lookup id = some row)
    (h' : t.rows.lookup id' = some row') (huser : row.userId = row'.userId)
    (hvoucher : row.voucherId = row'.voucherId) : id = id' := by
  have h₁ := t.indexed.mpr ⟨row, h, huser, hvoucher⟩
  have h₂ := t.indexed.mpr ⟨row', h', rfl, rfl⟩
  exact Option.some.inj (h₁.symm.trans h₂)

/-- What a cancellation does to the table. -/
theorem cancelUnpaid_cases (clock : ℕ) (id user voucher : LongId) :
    (∃ row, t.rows.lookup id = some row ∧ row.userId = user ∧ row.voucherId = voucher ∧
        row.status = 1 ∧ (t.cancelUnpaid clock id user voucher).2 = 1 ∧
        (t.cancelUnpaid clock id user voucher).1.rows =
          t.rows.insert id { row with status := 4, updateTime := clock }) ∨
      (t.cancelUnpaid clock id user voucher).2 = 0 := by
  rcases updateWhere_cases t.rows id
    (fun row => row.userId = user ∧ row.voucherId = voucher ∧ row.status = 1)
    (fun row => { row with status := 4, updateTime := clock }) with
    ⟨row, hrow, ⟨huser, hvoucher, hstatus⟩, hu⟩ | ⟨-, hu⟩
  · exact .inl ⟨row, hrow, huser, hvoucher, hstatus, congrArg Prod.snd hu, congrArg Prod.fst hu⟩
  · exact .inr (congrArg Prod.snd hu)

end Orders

/-! ## The database -/

/-- `tb_seckill_voucher.stock`, `tb_voucher_order` and `tb_order_cancellation`. -/
structure Database where
  stock : FiniteMap LongId ℤ
  orders : Orders
  cancellations : Outbox.Table

/-- Source: `OrderProcessingException.java` 5. -/
inductive Reason where
  | lockBusy | databaseStockUnavailable | orderInsertFailed | orderIdConflict
  deriving DecidableEq

/-- What the handler throws: a reason of its own, or the exception of a statement. -/
inductive Thrown where
  | reason (r : Reason)
  | exception (className : String)
  deriving DecidableEq

/-- What a failed attempt is filed under. Source: `OrderStreamConsumer.java` 111–112. -/
def Thrown.classification : Thrown → String
  | .reason .lockBusy => "LOCK_BUSY"
  | .reason .databaseStockUnavailable => "DATABASE_STOCK_UNAVAILABLE"
  | .reason .orderInsertFailed => "ORDER_INSERT_FAILED"
  | .reason .orderIdConflict => "ORDER_ID_CONFLICT"
  | .exception className => className

/-- The transaction of the handler after its query: `existing` is the order the query found. An error
rolls back. Source: `VoucherOrderServiceImpl.java` 62–83. -/
def persistVoucherOrder (clock : ℕ) (existing : Option LongId) (order : VoucherOrder)
    (db : Database) : Except Thrown Database :=
  match existing with
  | some id => if order.id ≠ id then .error (.reason .orderIdConflict) else .ok db
  | none =>
    let (stock, updated) := updateWhere db.stock order.voucherId (0 < ·) (· - 1)
    if updated = 0 then .error (.reason .databaseStockUnavailable)
    else
      match db.orders.insert ⟨order.id, order.userId, order.voucherId, 1, clock, clock⟩ with
      | some orders => .ok { db with stock := stock, orders := orders }
      | none => .error (.exception "DuplicateKeyException")

/-- **What the transaction can do.** It finds the order there, or it writes the order and takes one
unit of stock. -/
theorem persist_cases {clock : ℕ} {existing : Option LongId} {order : VoucherOrder}
    {db db' : Database} (h : persistVoucherOrder clock existing order db = .ok db') :
    (existing = some order.id ∧ db' = db) ∨
    (existing = none ∧ ∃ k orders, db.stock.lookup order.voucherId = some k ∧ 0 < k ∧
      db.orders.rows.lookup order.id = none ∧
      db.orders.index.lookup (order.userId, order.voucherId) = none ∧
      orders.rows = db.orders.rows.insert order.id
        ⟨order.id, order.userId, order.voucherId, 1, clock, clock⟩ ∧
      db' = ⟨db.stock.insert order.voucherId (k - 1), orders, db.cancellations⟩) := by
  unfold persistVoucherOrder at h
  split at h
  · rename_i id
    split at h
    · cases h
    · rename_i hid
      left
      rw [not_not] at hid
      exact ⟨by rw [hid], (Except.ok.inj h).symm⟩
  · right
    rcases updateWhere_cases db.stock order.voucherId (0 < ·) (· - 1) with
      ⟨k, hk, hpos, hu⟩ | ⟨-, hu⟩
    · rw [hu] at h
      dsimp only at h
      rw [if_neg one_ne_zero] at h
      split at h
      · rename_i orders horders
        obtain ⟨hid, hkey, hrows⟩ := Orders.insert_eq_some horders
        exact ⟨rfl, k, orders, hk, hpos, hid, hkey, hrows, (Except.ok.inj h).symm⟩
      · cases h
    · rw [hu] at h
      simp at h

/-- With stock left and neither key taken the transaction writes the order. -/
theorem exists_persist (clock : ℕ) (order : VoucherOrder) {db : Database} {k : ℤ}
    (hk : db.stock.lookup order.voucherId = some k) (hpos : 0 < k)
    (hid : db.orders.rows.lookup order.id = none)
    (hkey : db.orders.index.lookup (order.userId, order.voucherId) = none) :
    ∃ db', persistVoucherOrder clock none order db = .ok db' := by
  obtain ⟨orders, horders⟩ : ∃ t', db.orders.insert
      ⟨order.id, order.userId, order.voucherId, 1, clock, clock⟩ = some t' :=
    Orders.exists_insert hid hkey
  refine ⟨⟨db.stock.insert order.voucherId (k - 1), orders, db.cancellations⟩, ?_⟩
  simp only [persistVoucherOrder, updateWhere_of (p := (0 < ·)) hk hpos, one_ne_zero, if_false,
    horders]

/-- Source: `VoucherOrderMapper.java` 19–20. -/
def returnStock (stock : FiniteMap LongId ℤ) (voucher : LongId) : FiniteMap LongId ℤ × ℕ :=
  updateWhere stock voucher (fun k => 0 ≤ k ∧ k < 2147483647) (· + 1)

end CampusHub.OrderFlow
