import CampusHub.OrderFlow.Provenance

/-!
# The books of the order flow

* `unitsHeld` — the rows that hold a unit of a voucher's stock: all that are not cancelled.
* `Books` — every row is an accepted order, every cancellation is that of a cancelled row, every
  released order has its cancellation, and the stock of the database is the initial one less the units
  held.
* `WorldInv` — all that holds of every world; `WorldInv.run` — it holds along every run.
* `FreshIds`, `Distinct` — admissions draw fresh order ids, so that an id belongs to one order.

The books relate the database to what the scripts have answered. They hold without any assumption about
order ids: that a row is an accepted order is known because the handler writes what it has read from an
event, and that an event is of an accepted order is `OrderFlow.Provenance`.

**Proof route.** Only four moves change the books: a row is written, a row is cancelled, an order is
released, and the outbox moves on. Each has its lemma (`Books.persist`, `Books.cancel`, `Books.quiet`), and
the counts follow from `Foundations.Maps`. `WorldInv` puts the invariants of the order flow together, so
that the results start from one hypothesis.

**Left out.** Different orders with one id: `Distinct` excludes them on runs that draw fresh ids, and
`OrderFlow.Admissions` shows that the requests of the source do.
-/

namespace CampusHub.OrderFlow

open CampusHub.Redis CampusHub.Foundations CampusHub.Foundations.Maps CampusHub.Domain
open CampusHub.FlashSale.Rules CampusHub.FlashSale.Initialization CampusHub.FlashSale.Admission
open CampusHub.FlashSale.Release CampusHub.OrderQueue CampusHub.Cancellation

/-- The orders of a voucher that hold a unit of its stock. -/
def unitsHeld (v : LongId) (rows : FiniteMap LongId OrderRow) : Finset LongId :=
  selected (fun _ row => row.voucherId = v ∧ row.status ≠ 4) rows

/-- The cancelled orders of a voucher. -/
def unitsReturned (v : LongId) (rows : FiniteMap LongId OrderRow) : Finset LongId :=
  selected (fun _ row => row.voucherId = v ∧ row.status = 4) rows

/-- The cancellation of a cancelled row, with the deadline of its voucher. -/
def Compensates (c : Config) (db : Database) (id : LongId) (e : Outbox.OrderCancellation) : Prop :=
  e.orderId = id ∧
    (∃ row, db.orders.rows.lookup id = some row ∧ row.status = 4 ∧ row.userId = e.userId ∧
      row.voucherId = e.voucherId) ∧
    ∃ voucher r, c.vouchers.lookup e.voucherId = some voucher ∧ flashSaleRules voucher = .ok r ∧
      e.expiresAtMs = r.expiresAtMillis

/-- **The books.** -/
structure Books (c : Config) (w : World) : Prop where
  recorded : ∀ id row, w.db.orders.rows.lookup id = some row →
    w.Accepted ⟨id, row.userId, row.voucherId⟩
  status : ∀ id row, w.db.orders.rows.lookup id = some row → row.status = 1 ∨ row.status = 4
  tracked : ∀ id row, w.db.orders.rows.lookup id = some row → row.status = 4 →
    ∃ e, w.db.cancellations.lookup id = some e
  compensates : ∀ id e, w.db.cancellations.lookup id = some e → Compensates c w.db id e
  released : ∀ v o u, (w.released v).lookup o = some u →
    ∃ e, w.db.cancellations.lookup o = some e ∧ e.userId = u ∧ e.voucherId = v
  stock : ∀ v, w.db.stock.lookup v =
    (c.stock.lookup v).map fun N : ℤ => N - ((unitsHeld v w.db.orders.rows).card : ℤ)

section books

variable {c : Config} {w w' : World}

/-- The deadline of a cancellation is the one of the published voucher. -/
theorem Books.deadline (h : Books c w) {id v : LongId} {e : Outbox.OrderCancellation} {N : ℕ}
    {r : FlashSaleRules} (he : w.db.cancellations.lookup id = some e) (hv : e.voucherId = v)
    (hpublished : Published c v N r) : e.expiresAtMs = r.expiresAtMillis := by
  obtain ⟨-, -, voucher, r', hvoucher, hrules, hexpires⟩ := h.compensates id e he
  obtain ⟨voucher', hvoucher', hrules', -⟩ := hpublished.voucher
  rw [hv] at hvoucher
  obtain rfl := Option.some.inj (hvoucher.symm.trans hvoucher')
  rw [hexpires, Except.ok.inj (hrules.symm.trans hrules')]

/-- A move that leaves the database and the released orders as they are. -/
theorem Books.congr (h : Books c w) (hdb : w'.db = w.db) (hreleased : w'.released = w.released)
    (haccepted : ∀ o, w.Accepted o → w'.Accepted o) : Books c w' where
  recorded id row hrow := by
    rw [hdb] at hrow
    exact haccepted _ (h.recorded id row hrow)
  status id row hrow := by
    rw [hdb] at hrow
    exact h.status id row hrow
  tracked id row hrow hstatus := by
    rw [hdb] at hrow ⊢
    exact h.tracked id row hrow hstatus
  compensates id e he := by
    rw [hdb] at he ⊢
    exact h.compensates id e he
  released v o u hu := by
    rw [hreleased] at hu
    rw [hdb]
    exact h.released v o u hu
  stock v := by rw [hdb, h.stock]

/-- The outbox moves on. -/
theorem Books.quiet (h : Books c w) {t : Outbox.Table} (ht : SameCalls w.db.cancellations t)
    (hdb : w'.db = { w.db with cancellations := t }) (hreleased : w'.released = w.released)
    (haccepted : ∀ o, w.Accepted o → w'.Accepted o) : Books c w' where
  recorded id row hrow := by
    rw [hdb] at hrow
    exact haccepted _ (h.recorded id row hrow)
  status id row hrow := by
    rw [hdb] at hrow
    exact h.status id row hrow
  tracked id row hrow hstatus := by
    rw [hdb] at hrow ⊢
    obtain ⟨e, he⟩ := h.tracked id row hrow hstatus
    have hsame := ht id
    rw [he, Option.map_some, Option.map_eq_some_iff] at hsame
    obtain ⟨e', he', -⟩ := hsame
    exact ⟨e', he'⟩
  compensates id e he := by
    rw [hdb] at he ⊢
    obtain ⟨e₀, he₀, hdata⟩ := ht.exists he
    simp only [releaseData, Prod.mk.injEq] at hdata
    obtain ⟨horder, huser, hvoucher, hexpires⟩ := hdata
    rw [Compensates, horder, huser, hvoucher, hexpires]
    exact h.compensates id e₀ he₀
  released v o u hu := by
    rw [hreleased] at hu
    rw [hdb]
    obtain ⟨e₀, he₀, huser, hvoucher⟩ := h.released v o u hu
    have hsame := ht o
    rw [he₀, Option.map_some, Option.map_eq_some_iff] at hsame
    obtain ⟨e, he, hdata⟩ := hsame
    simp only [releaseData, Prod.mk.injEq] at hdata
    exact ⟨e, he, hdata.2.1.trans huser, hdata.2.2.1.trans hvoucher⟩
  stock v := by rw [hdb, h.stock]

/-- A row is written, with its unit of stock. -/
theorem Books.persist (h : Books c w) {order : VoucherOrder} {n : ℤ} {orders : Orders} {t : ℕ}
    (ho : w.Accepted order) (hstock : w.db.stock.lookup order.voucherId = some n)
    (hid : w.db.orders.rows.lookup order.id = none)
    (hrows : orders.rows = w.db.orders.rows.insert order.id
      ⟨order.id, order.userId, order.voucherId, 1, t, t⟩)
    (hdb : w'.db = ⟨w.db.stock.insert order.voucherId (n - 1), orders, w.db.cancellations⟩)
    (hreleased : w'.released = w.released) (haccepted : ∀ o, w.Accepted o → w'.Accepted o) :
    Books c w' := by
  have hlookup : ∀ id row, w'.db.orders.rows.lookup id = some row →
      id = order.id ∧ row = ⟨order.id, order.userId, order.voucherId, 1, t, t⟩ ∨
        w.db.orders.rows.lookup id = some row := by
    intro id row hrow
    rw [hdb, hrows, lookup_insert_eq] at hrow
    split at hrow
    · rename_i heq
      exact .inl ⟨heq, (Option.some.inj hrow).symm⟩
    · exact .inr hrow
  refine ⟨fun id row hrow => ?_, fun id row hrow => ?_, fun id row hrow hstatus => ?_,
    fun id e he => ?_, fun v o u hu => ?_, fun v => ?_⟩
  · rcases hlookup id row hrow with ⟨rfl, rfl⟩ | hold
    · exact haccepted order ho
    · exact haccepted _ (h.recorded id row hold)
  · rcases hlookup id row hrow with ⟨rfl, rfl⟩ | hold
    · exact .inl rfl
    · exact h.status id row hold
  · rw [hdb]
    rcases hlookup id row hrow with ⟨rfl, rfl⟩ | hold
    · exact absurd hstatus (by simp)
    · exact h.tracked id row hold hstatus
  · rw [hdb] at he
    obtain ⟨horder, ⟨row, hrow, hrest⟩, hvoucher⟩ := h.compensates id e he
    refine ⟨horder, ⟨row, ?_, hrest⟩, hvoucher⟩
    rw [hdb, hrows, lookup_insert_eq, if_neg, hrow]
    rintro rfl
    rw [hid] at hrow
    cases hrow
  · rw [hreleased] at hu
    rw [hdb]
    exact h.released v o u hu
  · have hnone : ∀ row, w.db.orders.rows.lookup order.id = some row →
        ¬ (row.voucherId = v ∧ row.status ≠ 4) := by
      rw [hid]
      nofun
    rw [hdb]
    dsimp only
    rw [lookup_insert_eq, unitsHeld, hrows]
    split
    · rename_i hv
      subst hv
      rw [card_selected_insert_of_gained hnone ⟨rfl, by simp⟩]
      have hold := h.stock order.voucherId
      rw [hstock, unitsHeld, eq_comm, Option.map_eq_some_iff] at hold
      obtain ⟨N, hN, hn⟩ := hold
      rw [hN, Option.map_some, ← hn]
      push_cast
      congr 1
      ring
    · rename_i hv
      rw [selected_insert_of_not hnone (fun hp => hv hp.1.symm), h.stock, unitsHeld]

/-- A row is cancelled, its unit of stock comes back, and its compensation is noted. -/
theorem Books.cancel (h : Books c w) {user id v : LongId} {t : ℕ}
    (hc : Cancelled (c.findFlashSale w.db) t user id v w.db w'.db)
    (hreleased : w'.released = w.released) (haccepted : ∀ o, w.Accepted o → w'.Accepted o) :
    Books c w' := by
  obtain ⟨row₀, hrow₀, huser, hvoucher, hone, hrows⟩ := hc.row
  obtain ⟨k, hk, hstock⟩ := hc.stock
  obtain ⟨voucher, r, hfind, hrules, hnone, hinsert⟩ := hc.cancellation
  have hlookup : ∀ id' row, w'.db.orders.rows.lookup id' = some row →
      id' = id ∧ row = { row₀ with status := 4, updateTime := t } ∨
        id' ≠ id ∧ w.db.orders.rows.lookup id' = some row := by
    intro id' row hrow
    rw [hrows, lookup_insert_eq] at hrow
    split at hrow
    · rename_i heq
      exact .inl ⟨heq, (Option.some.inj hrow).symm⟩
    · rename_i hne
      exact .inr ⟨hne, hrow⟩
  refine ⟨fun id' row hrow => ?_, fun id' row hrow => ?_, fun id' row hrow hstatus => ?_,
    fun id' e he => ?_, fun v' o u hu => ?_, fun v' => ?_⟩
  · rcases hlookup id' row hrow with ⟨rfl, rfl⟩ | ⟨-, hold⟩
    · exact haccepted _ (h.recorded id' row₀ hrow₀)
    · exact haccepted _ (h.recorded id' row hold)
  · rcases hlookup id' row hrow with ⟨rfl, rfl⟩ | ⟨-, hold⟩
    · exact .inr rfl
    · exact h.status id' row hold
  · rw [hinsert, lookup_insert_eq]
    rcases hlookup id' row hrow with ⟨rfl, rfl⟩ | ⟨hne, hold⟩
    · exact ⟨_, if_pos rfl⟩
    · rw [if_neg hne]
      exact h.tracked id' row hold hstatus
  · rw [hinsert, lookup_insert_eq] at he
    split at he
    · rename_i heq
      subst heq
      obtain rfl := Option.some.inj he
      simp only [Config.findFlashSale, Option.map_eq_some_iff] at hfind
      obtain ⟨voucher₀, hvoucher₀, rfl⟩ := hfind
      refine ⟨rfl, ⟨{ row₀ with status := 4, updateTime := t }, ?_, rfl, huser, hvoucher⟩, voucher₀, r, hvoucher₀,
        hrules, rfl⟩
      rw [hrows, Finmap.lookup_insert]
    · rename_i hne
      obtain ⟨horder, ⟨row, hrow, hrest⟩, hvoucher'⟩ := h.compensates id' e he
      refine ⟨horder, ⟨row, ?_, hrest⟩, hvoucher'⟩
      rw [hrows, lookup_insert_eq, if_neg hne, hrow]
  · rw [hreleased] at hu
    obtain ⟨e, he, hrest⟩ := h.released v' o u hu
    refine ⟨e, ?_, hrest⟩
    rw [hinsert, lookup_insert_eq, if_neg, he]
    rintro rfl
    rw [hnone] at he
    cases he
  · rw [hstock, lookup_insert_eq, unitsHeld, hrows]
    split
    · rename_i hv
      subst hv
      have hlost := card_selected_insert_of_lost (m := w.db.orders.rows)
        (p := fun _ row => row.voucherId = v' ∧ row.status ≠ 4) hrow₀
        ⟨hvoucher, by rw [hone]; decide⟩
        (v := { row₀ with status := 4, updateTime := t }) (fun hp => hp.2 rfl)
      have hold := h.stock v'
      rw [hk, unitsHeld, eq_comm, Option.map_eq_some_iff] at hold
      obtain ⟨N, hN, hn⟩ := hold
      rw [hN, Option.map_some, ← hn, ← hlost]
      push_cast
      congr 1
      ring
    · rename_i hv
      rw [selected_insert_of_not, h.stock, unitsHeld]
      · rintro row hrow ⟨hv', -⟩
        obtain rfl := Option.some.inj (hrow₀.symm.trans hrow)
        exact hv (hv'.symm.trans hvoucher)
      · exact fun hp => hp.2 rfl

/-- **Every move keeps the books.** -/
theorem Books.move (h : Books c w) (hphase : ∀ v, Phase c w v) (htraced : Traced w)
    {a : Act} (m : Move c w a w') : Books c w' := by
  have haccepted : ∀ o, w.Accepted o → w'.Accepted o := fun o ho => m.accepted hphase ho
  cases m with
  | quiet _ _ _ hcalls => exact h.quiet hcalls rfl rfl haccepted
  | persist hcarried hstock _ hid _ hrows _ _ _ =>
    exact h.persist (htraced.accepted_of_carried hcarried) hstock hid hrows rfl rfl haccepted
  | cancel hcancelled => exact h.cancel hcancelled rfl haccepted
  | @release orderId e n ks hrow _ _ =>
    have hbooks : Books c { w with redis := ks } := h.congr rfl rfl haccepted
    refine { hbooks with released := fun v o u hu => ?_ }
    dsimp only at hu ⊢
    by_cases hv : v = e.voucherId
    · subst hv
      rw [Function.update_self, lookup_insert_eq] at hu
      split at hu
      · rename_i ho
        obtain rfl := Option.some.inj hu
        obtain ⟨horder, -⟩ := h.compensates orderId e hrow
        refine ⟨e, ?_, rfl, rfl⟩
        rw [ho, horder, hrow]
      · exact h.released _ o u hu
    · rw [Function.update_of_ne hv] at hu
      exact h.released v o u hu
  | expire _ => exact h.congr rfl rfl haccepted
  | publish _ _ _ _ => exact h.congr rfl rfl haccepted
  | admitVoucher _ _ => exact h.congr rfl rfl haccepted
  | deliver _ _ _ _ _ _ => exact h.congr rfl rfl haccepted
  | count _ _ _ => exact h.congr rfl rfl haccepted
  | acknowledge _ _ _ _ _ => exact h.congr rfl rfl haccepted
  | archive _ _ _ _ _ => exact h.congr rfl rfl haccepted
  | redrive _ _ _ => exact h.congr rfl rfl haccepted

end books

/-! ## All of it -/

/-- **What holds of every world.** -/
structure WorldInv (c : Config) (w : World) : Prop where
  ready : Ready c w
  phase : ∀ v, Phase c w v
  traced : Traced w
  books : Books c w

section worlds

variable {c : Config} {w w' : World}

/-- A published voucher stays published. -/
theorem WorldInv.opened (h : WorldInv c w) {a : Act} (m : Move c w a w') {v : LongId} (hv : Opened c w v) :
    Opened c w' v :=
  hv.turn (m.turn v) fun _ _ _ _ he hvoucher hpublished => h.books.deadline he hvoucher hpublished

/-- Every move keeps the invariant. -/
theorem WorldInv.move (h : WorldInv c w) {a : Act} (m : Move c w a w') : WorldInv c w' where
  ready := h.ready.move m
  phase v := (h.phase v).elim (fun hun => hun.turn (m.turn v)) fun hv => .inr (h.opened m hv)
  traced := h.traced.move h.ready h.phase m
  books := h.books.move h.phase h.traced m

/-- **Every step keeps the invariant.** -/
theorem WorldInv.step (h : WorldInv c w) (a : Act) : WorldInv c (OrderFlow.step c w a) :=
  h.move (step_move h.ready a)

/-- The invariant holds of the first world. -/
theorem worldInv_initial (c : Config) (now clock : ℕ) : WorldInv c (initial c now clock) where
  ready := ready_initial c now clock
  phase v := by
    refine .inl ⟨fun k hk => ?_, rfl, rfl⟩
    obtain ⟨horders, -⟩ := voucherKey_ne hk
    exact if_neg horders
  traced := traced_initial c now clock
  books :=
    { recorded := fun id row hrow => by cases hrow
      status := fun id row hrow => by cases hrow
      tracked := fun id row hrow => by cases hrow
      compensates := fun id e he => by cases he
      released := fun v o u hu => by cases hu
      stock := fun v => by
        have hnone : unitsHeld v (initial c now clock).db.orders.rows = ∅ := rfl
        rw [hnone, Finset.card_empty]
        simp [initial] }

/-- The invariant holds along every run. -/
theorem WorldInv.run (h : WorldInv c w) (as : List Act) :
    WorldInv c (Runs.run (OrderFlow.step c) w as) :=
  Runs.run_invariant _ (fun _ a hw => hw.step a) as h

/-- What was accepted stays accepted. -/
theorem WorldInv.accepted_run (h : WorldInv c w) {o : VoucherOrder} (ho : w.Accepted o)
    (as : List Act) : (Runs.run (OrderFlow.step c) w as).Accepted o :=
  (Runs.run_invariant (I := fun w => WorldInv c w ∧ w.Accepted o) _
    (fun _ a hw => ⟨hw.1.step a, (step_move hw.1.ready a).accepted hw.1.phase hw.2⟩) as ⟨h, ho⟩).2

/-- What was persisted stays persisted. -/
theorem WorldInv.persisted_run (h : WorldInv c w) {o : VoucherOrder} (ho : Persisted w.db o)
    (as : List Act) : Persisted (Runs.run (OrderFlow.step c) w as).db o :=
  (Runs.run_invariant (I := fun w => WorldInv c w ∧ Persisted w.db o) _
    (fun _ a hw => ⟨hw.1.step a, (step_move hw.1.ready a).persisted hw.2⟩) as ⟨h, ho⟩).2

/-- A publication that answers `0` opens the voucher. -/
theorem WorldInv.opened_of_publish (h : WorldInv c w) {v : LongId} {ks : Keyspace Key}
    (hpublish : publish c w v = .ok (.answer 0, ks)) :
    Opened c (OrderFlow.step c w (.publish v)) v := by
  rcases publish_cases hpublish with ⟨-, N, r, -, -, -, hinit⟩ | ⟨hne, -⟩
  · have hstep : OrderFlow.step c w (.publish v) = { w with redis := ks } := by
      simp only [OrderFlow.step, hpublish]
    rcases (h.step (.publish v)).phase v with hun | hv
    · have hnone := hun.absent (.stock v) (by simp [voucherKeys])
      have hstock : ks (.stock v) = _ := hinit.stock
      rw [hstep] at hnone
      rw [show ks (.stock v) = none from hnone] at hstock
      cases hstock
    · exact hv
  · exact absurd rfl hne

/-- A published voucher stays published along every run. -/
theorem WorldInv.opened_run (h : WorldInv c w) {v : LongId} (hv : Opened c w v) (as : List Act) :
    Opened c (Runs.run (OrderFlow.step c) w as) v :=
  (Runs.run_invariant (I := fun w => WorldInv c w ∧ Opened c w v) _
    (fun _ a hw => ⟨hw.1.step a, hw.1.opened (step_move hw.1.ready a) hw.2⟩) as ⟨h, hv⟩).2

end worlds

/-! ## Distinct order ids -/

/-- An admission draws an order id that was not drawn before. -/
def FreshIds (w : World) : Act → Prop
  | .admitVoucher _ _ orderId _ => orderId ∉ w.candidates
  | _ => True

/-- **An order id belongs to one accepted order.** -/
structure Distinct (w : World) : Prop where
  drawn : ∀ o, w.Accepted o → o.id ∈ w.candidates
  unique : ∀ o o', w.Accepted o → w.Accepted o' → o.id = o'.id → o = o'

section ids

variable {c : Config} {w w' : World} {a : Act}

/-- Only an admission changes what is accepted, and by its own order. -/
theorem Move.ids (m : Move c w a w') :
    (w'.accepted = w.accepted ∧ w.candidates ⊆ w'.candidates) ∨
    ∃ v u o appended, a = .admitVoucher v u o appended ∧
      w'.accepted = Function.update w.accepted v ((w.accepted v).insert u o) ∧
      w'.candidates = insert o w.candidates := by
  cases m with
  | admitVoucher _ hact => exact .inr ⟨_, _, _, _, hact, rfl, rfl⟩
  | quiet _ _ hcandidates _ => exact .inl ⟨rfl, hcandidates⟩
  | _ => exact .inl ⟨rfl, subset_rfl⟩

/-- What is accepted after a move was accepted before, or the move admits it. -/
theorem Move.accepted_or_admits (m : Move c w a w') {o : VoucherOrder} (ho : w'.Accepted o) :
    w.Accepted o ∨ ∃ appended, a = .admitVoucher o.voucherId o.userId o.id appended := by
  obtain ⟨id, user, voucher⟩ := o
  rw [World.Accepted] at ho
  rcases m.ids with ⟨haccepted, -⟩ | ⟨v, u, i, appended, hact, haccepted, -⟩
  · rw [haccepted] at ho
    exact .inl ho
  · rw [haccepted] at ho
    dsimp only at ho
    by_cases hv : voucher = v
    · subst hv
      rw [Function.update_self, lookup_insert_eq] at ho
      split at ho
      · rename_i hu
        rw [← hu, Option.some.inj ho] at hact
        exact .inr ⟨appended, hact⟩
      · exact .inl ho
    · rw [Function.update_of_ne hv] at ho
      exact .inl ho

/-- **Fresh ids stay distinct.** -/
theorem Distinct.move (h : Distinct w) (m : Move c w a w') (hfresh : FreshIds w a) :
    Distinct w' := by
  have hnew : ∀ o o' : VoucherOrder, w.Accepted o →
      (∃ appended, a = .admitVoucher o'.voucherId o'.userId o'.id appended) → o.id ≠ o'.id := by
    rintro o o' ho ⟨appended, rfl⟩ hid
    exact hfresh (hid ▸ h.drawn o ho)
  refine ⟨fun o ho => ?_, fun o o' ho ho' hid => ?_⟩
  · rcases m.accepted_or_admits ho with hold | ⟨appended, hact⟩
    · rcases m.ids with ⟨-, hcandidates⟩ | ⟨v, u, i, -, -, -, hcandidates⟩
      · exact hcandidates (h.drawn o hold)
      · rw [hcandidates]
        exact Finset.mem_insert_of_mem (h.drawn o hold)
    · rcases m.ids with ⟨haccepted, hcandidates⟩ | ⟨v, u, i, appended', hact', -, hcandidates⟩
      · rw [World.Accepted, haccepted] at ho
        exact hcandidates (h.drawn o ho)
      · rw [hact, Act.admitVoucher.injEq] at hact'
        rw [hcandidates, hact'.2.2.1]
        exact Finset.mem_insert_self _ _
  · rcases m.accepted_or_admits ho with hold | hadmits
    · rcases m.accepted_or_admits ho' with hold' | hadmits'
      · exact h.unique o o' hold hold' hid
      · exact absurd hid (hnew o o' hold hadmits')
    · rcases m.accepted_or_admits ho' with hold' | hadmits'
      · exact absurd hid.symm (hnew o' o hold' hadmits)
      · obtain ⟨appended, hact⟩ := hadmits
        obtain ⟨appended', hact'⟩ := hadmits'
        rw [hact, Act.admitVoucher.injEq] at hact'
        obtain ⟨hv, hu, hi, -⟩ := hact'
        cases o
        cases o'
        simp_all

/-- Nothing is accepted in the first world. -/
theorem distinct_initial (c : Config) (now clock : ℕ) : Distinct (initial c now clock) where
  drawn o ho := by cases ho
  unique o o' ho := by cases ho

/-- The invariant and the distinct ids hold along every run that draws fresh ids. -/
theorem WorldInv.run_fresh (h : WorldInv c w) (hd : Distinct w) {as : List Act}
    (hfresh : Runs.Along FreshIds (OrderFlow.step c) w as) :
    WorldInv c (Runs.run (OrderFlow.step c) w as) ∧ Distinct (Runs.run (OrderFlow.step c) w as) :=
  Runs.run_invariant_of_along (I := fun w => WorldInv c w ∧ Distinct w) _
    (fun _ a hw hok =>
      ⟨hw.1.step a, hw.2.move (step_move hw.1.ready a) hok⟩) as w ⟨h, hd⟩ hfresh

end ids

/-- The first order of the small sale has a fresh id. -/
theorem firstSale_fresh :
    Runs.Along FreshIds (step smallSale) (initial smallSale 1000 0) firstSale := by
  refine ⟨trivial, ?_, trivial⟩
  obtain ⟨ks, hks⟩ := publish_smallSale
  simp only [step, hks]
  exact Finset.notMem_empty _

end CampusHub.OrderFlow
