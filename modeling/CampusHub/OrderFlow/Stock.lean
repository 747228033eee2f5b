import CampusHub.OrderFlow.Books

/-!
# Stock in Redis and in the database

* `unpersisted`, `unreleased` — the users whose accepted order has no row yet, and the cancelled rows
  whose unit of stock is not back in Redis yet.
* `stock_conserved` — the two stocks differ by exactly these.
* `accepted_order_persists` — the handler can always persist an accepted order.

**Theorem** (`stock_conserved`). From its publication to its deadline, the stock of a voucher in Redis is
the initial stock less the accepted orders and more by the released ones, the stock in the database is the
initial stock less the orders that are not cancelled, and the two differ by the accepted orders without a
row and the cancelled ones that are not released. Both are between zero and the initial stock.

**Theorem** (`accepted_order_persists`). The handler of an accepted order, holding the lock of its user,
finds the order persisted or writes it, in every later world.

**Proof route.** The first is a matter of counting: accepted orders are persisted or not, persisted ones
cancelled or not, cancelled ones released or not (`Books.card_accepted`, `Books.card_returned`). The second
needs that an accepted order without a row still has its unit of stock (`WorldInv.stock_pos`) and that its
id and its pair of user and voucher are free (`WorldInv.id_free`, `Unordered.move`).

**Left out.** Stock that is changed by hand.
-/

namespace CampusHub.OrderFlow

open CampusHub.Redis CampusHub.Foundations CampusHub.Foundations.Decimal CampusHub.Foundations.Maps
open CampusHub.Foundations.Tables CampusHub.Domain CampusHub.FlashSale.Rules CampusHub.OrderQueue
open CampusHub.FlashSale.Admission CampusHub.Cancellation

instance (db : Database) (o : VoucherOrder) : Decidable (Persisted db o) :=
  decidable_of_iff (∃ row ∈ db.orders.rows.lookup o.id,
    row.userId = o.userId ∧ row.voucherId = o.voucherId) Iff.rfl

/-- The users whose accepted order is not persisted yet. -/
def unpersisted (w : World) (v : LongId) : Finset LongId :=
  selected (fun u o => ¬ Persisted w.db ⟨o, u, v⟩) (w.accepted v)

/-- The cancelled orders that are not released yet. -/
def unreleased (w : World) (v : LongId) : Finset LongId :=
  selected (fun id row => row.voucherId = v ∧ row.status = 4 ∧ (w.released v).lookup id = none)
    w.db.orders.rows

section counting

variable {c : Config} {w : World}

/-- The rows of a voucher are the orders of the users whose accepted order is persisted. -/
theorem Books.card_placed (h : Books c w) (v : LongId) :
    (selected (fun _ row => row.voucherId = v) w.db.orders.rows).card =
      (selected (fun u o => Persisted w.db ⟨o, u, v⟩) (w.accepted v)).card := by
  have hrow : ∀ id ∈ selected (fun _ row => row.voucherId = v) w.db.orders.rows,
      ∃ row, w.db.orders.rows.lookup id = some row ∧ row.voucherId = v := fun id hid =>
    mem_selected.mp hid
  refine Finset.card_bij (fun id hid => (hrow id hid).choose.userId) ?_ ?_ ?_
  · intro id hid
    obtain ⟨hlookup, hvoucher⟩ := (hrow id hid).choose_spec
    have haccepted := h.recorded id _ hlookup
    rw [World.Accepted, hvoucher] at haccepted
    exact mem_selected.mpr ⟨id, haccepted, _, hlookup, rfl, hvoucher⟩
  · intro id hid id' hid' huser
    obtain ⟨hlookup, hvoucher⟩ := (hrow id hid).choose_spec
    obtain ⟨hlookup', hvoucher'⟩ := (hrow id' hid').choose_spec
    exact w.db.orders.id_unique hlookup hlookup' huser (hvoucher.trans hvoucher'.symm)
  · intro u hu
    obtain ⟨o, -, row, hlookup, huser, hvoucher⟩ := mem_selected.mp hu
    have hmem : o ∈ selected (fun _ row => row.voucherId = v) w.db.orders.rows :=
      mem_selected.mpr ⟨row, hlookup, hvoucher⟩
    refine ⟨o, hmem, ?_⟩
    have hsame := (hrow o hmem).choose_spec.1.symm.trans hlookup
    rw [Option.some.inj hsame]
    exact huser

/-- The accepted orders: persisted and still open, persisted and cancelled, or not persisted. -/
theorem Books.card_accepted (h : Books c w) (v : LongId) :
    (w.accepted v).keys.card = (unitsHeld v w.db.orders.rows).card +
      (unitsReturned v w.db.orders.rows).card + (unpersisted w v).card := by
  have hsplit : (selected (fun u o => Persisted w.db ⟨o, u, v⟩) (w.accepted v)).card +
      (unpersisted w v).card = (selected (fun _ _ => True) (w.accepted v)).card :=
    card_selected_add (fun u o _ => by simp [em]) fun u o _ hp hn => hn hp
  have hrows : (unitsHeld v w.db.orders.rows).card + (unitsReturned v w.db.orders.rows).card =
      (selected (fun _ row => row.voucherId = v) w.db.orders.rows).card :=
    card_selected_add (fun id row _ => by tauto) fun id row _ hp hq => hp.2 hq.2
  rw [hrows, h.card_placed v, hsplit, selected_true]

/-- The cancelled orders: released, or not released. -/
theorem Books.card_returned (h : Books c w) (v : LongId) :
    (unitsReturned v w.db.orders.rows).card =
      (w.released v).keys.card + (unreleased w v).card := by
  have hkeys : (w.released v).keys = selected (fun id row => row.voucherId = v ∧ row.status = 4 ∧
      (w.released v).lookup id ≠ none) w.db.orders.rows := by
    ext id
    rw [mem_keys_iff, mem_selected]
    constructor
    · rintro ⟨u, hu⟩
      obtain ⟨e, he, -, hv⟩ := h.released v id u hu
      obtain ⟨-, ⟨row, hrow, hstatus, -, hvoucher⟩, -⟩ := h.compensates id e he
      exact ⟨row, hrow, hvoucher.trans hv, hstatus, by rw [hu]; nofun⟩
    · rintro ⟨row, -, -, -, hne⟩
      exact Option.ne_none_iff_exists'.mp hne
  rw [hkeys, eq_comm]
  exact card_selected_add (fun id row _ => by tauto) fun id row _ hp hq => hp.2.2 hq.2.2

end counting

/-! ## Conservation -/

/-- **Stock is conserved across the two stores.** A voucher is published in any world that a run
reaches. In every world that any run reaches from there, up to the deadline of its activity, with `N`
its initial stock,

* the stock in Redis is `N` less the accepted orders, and more by the released ones;
* the stock in the database is `N` less the orders that are not cancelled;
* every row is the order that the request hash records for its user, and every released order is a
  cancelled row of its user with its cancellation;
* so the two stocks differ by the accepted orders that are not persisted and the cancelled ones that
  are not released, and both are between `0` and `N`. -/
theorem stock_conserved (c : Config) (now clock : ℕ) (as bs : List Act) (v : LongId)
    (ks : Keyspace Key) :
    let s := Runs.run (step c) (initial c now clock) as
    publish c s v = .ok (.answer 0, ks) →
    let w := Runs.run (step c) (step c s (.publish v)) bs
    ∃ (N : ℕ) (r : FlashSaleRules), Published c v N r ∧ (w.now ≤ r.expiresAtMillis →
      ∃ (n : ℕ) (m : ℤ), w.redis.get (.stock v) = some (decimal n) ∧
        w.db.stock.lookup v = some m ∧
        (n : ℤ) = N - (w.accepted v).keys.card + (w.released v).keys.card ∧
        m = N - (unitsHeld v w.db.orders.rows).card ∧
        (∀ u : LongId,
          w.redis.hget (.request v) u.text = ((w.accepted v).lookup u).map LongId.text) ∧
        (∀ id row, w.db.orders.rows.lookup id = some row → row.voucherId = v →
          w.redis.hget (.request v) row.userId.text = some id.text) ∧
        (∀ o u, (w.released v).lookup o = some u →
          ∃ row e, w.db.orders.rows.lookup o = some row ∧ row.status = 4 ∧ row.userId = u ∧
            row.voucherId = v ∧ w.db.cancellations.lookup o = some e) ∧
        m - n = (unpersisted w v).card + (unreleased w v).card ∧ n ≤ N ∧ 0 ≤ m ∧ m ≤ N) := by
  intro s hpublish w
  have hs : WorldInv c s := (worldInv_initial c now clock).run as
  have h : WorldInv c w := (hs.step (.publish v)).run bs
  have hopened : Opened c w v :=
    (hs.step (.publish v)).opened_run (hs.opened_of_publish hpublish) bs
  have haccepted := h.books.card_accepted v
  have hreturned := h.books.card_returned v
  cases hopened with
  | @live N r hpublished _ hactivity =>
    refine ⟨N, r, hpublished, fun _ => ?_⟩
    obtain ⟨n, hslot, hsum⟩ := hactivity.stock
    have hn : w.redis.get (.stock v) = some (decimal n) := by rw [Keyspace.get, hslot]
    have hstock : w.db.stock.lookup v = some ((N : ℤ) - (unitsHeld v w.db.orders.rows).card) := by
      rw [h.books.stock, hpublished.stock, Option.map_some]
    refine ⟨n, _, hn, hstock, by omega, rfl, hactivity.recorded, fun id row hrow hv => ?_,
      fun o u hu => ?_, by omega, by omega, by omega, by omega⟩
    · have hrecorded := h.books.recorded id row hrow
      rw [World.Accepted, hv] at hrecorded
      rw [hactivity.recorded, hrecorded, Option.map_some]
    · obtain ⟨e, he, huser, hv⟩ := h.books.released v o u hu
      obtain ⟨-, ⟨row, hrow, hstatus, huser', hvoucher⟩, -⟩ := h.books.compensates o e he
      exact ⟨row, e, hrow, hstatus, huser'.trans huser, hvoucher.trans hv, he⟩
  | gone hpublished hgone _ _ => exact ⟨_, _, hpublished, fun hle => absurd hgone (not_lt.mpr hle)⟩

/-- Another user than the one of the first order. -/
def userTwo : LongId := ⟨2, Nat.two_pos, by decide⟩

/-- The first order is admitted, committed, cancelled and released; the unit that it gives back is taken by
user `2`, whose order no consumer has read yet. -/
def soldTwice : List Act :=
  [.admitVoucher voucherOne voucherOne voucherOne true, .readNew 0 "c", .begin 0, .select 0,
    .persist 0 none, .finish 0, .cancel voucherOne voucherOne voucherOne, .claim voucherOne "t",
    .release voucherOne, .record voucherOne "t" (.answered (some 0)),
    .admitVoucher voucherOne userTwo userTwo true]

/-- The small sale, sold twice: two orders are accepted and one is released, so nothing is left in Redis
and one unit in the database, and the difference is the order that is not persisted. -/
theorem smallSale_conserved :
    let w := Runs.run (step smallSale) (step smallSale (initial smallSale 1000 0)
      (.publish voucherOne)) soldTwice
    w.redis.get (.stock voucherOne) = some (decimal 0) ∧ w.db.stock.lookup voucherOne = some 1 ∧
      (unpersisted w voucherOne).card + (unreleased w voucherOne).card = 1 := by
  intro w
  obtain ⟨ks, hks⟩ := publish_smallSale
  obtain ⟨N, r, hpublished, hlive⟩ :=
    stock_conserved smallSale 1000 0 [] soldTwice voucherOne ks hks
  obtain ⟨rfl, rfl⟩ := hpublished.unique published_smallSale
  have hnow : w.now ≤ smallWindow.expiresAtMillis := by decide +kernel
  have haccepted : (w.accepted voucherOne).keys.card = 2 := by decide +kernel
  have hreleased : (w.released voucherOne).keys.card = 1 := by decide +kernel
  have hheld : (unitsHeld voucherOne w.db.orders.rows).card = 0 := by decide +kernel
  obtain ⟨n, m, hn, hm, hredis, hdb, -, -, -, hdifference, -, -, -⟩ := hlive hnow
  have hleft : (n : ℤ) = 1 - (w.accepted voucherOne).keys.card + (w.released voucherOne).keys.card :=
    hredis
  have hunheld : m = 1 - (unitsHeld voucherOne w.db.orders.rows).card := hdb
  rw [haccepted, hreleased] at hleft
  rw [hheld] at hunheld
  obtain rfl : n = 0 := by omega
  obtain rfl : m = 1 := by omega
  have hdiffer : (1 : ℤ) - (0 : ℕ) =
      (unpersisted w voucherOne).card + (unreleased w voucherOne).card := hdifference
  exact ⟨hn, hm, by omega⟩

/-! ## The handler of an accepted order -/

/-- The lock of a user: no other handler commits an order of the user. -/
def LockOf (user : LongId) (w : World) : Act → Prop
  | .persist k _ => ∀ consumer id order existing,
      w.jobs k = some (.selected consumer id order existing) → order.userId ≠ user
  | _ => True

section handler

variable {c : Config} {w w' : World} {a : Act}

/-- **Where a row comes from.** It was there, with its user and its voucher, or a handler has written
it. -/
theorem Move.rows (m : Move c w a w') {id : LongId} {row : OrderRow}
    (hrow : w'.db.orders.rows.lookup id = some row) :
    (∃ old, w.db.orders.rows.lookup id = some old ∧ old.userId = row.userId ∧
      old.voucherId = row.voucherId) ∨
    ∃ k lost consumer i order existing, a = .persist k lost ∧
      w.jobs k = some (.selected consumer i order existing) ∧ order.userId = row.userId := by
  cases m with
  | persist _ _ _ _ _ hrows _ hact hjob =>
    dsimp only at hrow
    rw [hrows, lookup_insert_eq] at hrow
    split at hrow
    · rw [← Option.some.inj hrow]
      exact .inr ⟨_, _, _, _, _, _, hact, hjob, rfl⟩
    · exact .inl ⟨row, hrow, rfl, rfl⟩
  | cancel hcancelled =>
    obtain ⟨old, hold, -, -, -, hrows⟩ := hcancelled.row
    dsimp only at hrow
    rw [hrows, lookup_insert_eq] at hrow
    split at hrow
    · rename_i hid
      rw [← Option.some.inj hrow, hid]
      exact .inl ⟨old, hold, rfl, rfl⟩
    · exact .inl ⟨row, hrow, rfl, rfl⟩
  | _ => exact .inl ⟨row, hrow, rfl, rfl⟩

/-- The user has no order for the voucher. -/
def Unordered (db : Database) (user v : LongId) : Prop :=
  ∀ id row, db.orders.rows.lookup id = some row → row.userId = user → row.voucherId ≠ v

/-- A user for whom nothing is found has no order for the voucher. -/
theorem unordered_of_find {db : Database} {user v : LongId} (h : db.orders.find user v = none) :
    Unordered db user v := by
  intro id row hrow huser hvoucher
  have hindex := db.orders.indexed.mpr ⟨row, hrow, huser, hvoucher⟩
  rw [Orders.find_eq_none.mp h] at hindex
  cases hindex

/-- For a user without an order nothing is found. -/
theorem Unordered.find {db : Database} {user v : LongId} (h : Unordered db user v) :
    db.orders.find user v = none := by
  cases hfind : db.orders.find user v with
  | none => rfl
  | some row =>
    obtain ⟨hrow, huser, hvoucher⟩ := Orders.find_eq_some.mp hfind
    exact absurd hvoucher (h row.id row hrow huser)

/-- Under the lock of a user nobody else writes an order of the user. -/
theorem Unordered.move {user v : LongId} (h : Unordered w.db user v) (m : Move c w a w')
    (hlock : LockOf user w a) : Unordered w'.db user v := by
  intro id row hrow huser
  rcases m.rows hrow with ⟨old, hold, huser', hvoucher'⟩ |
    ⟨k, lost, consumer, i, order, existing, rfl, hjob, huser'⟩
  · rw [← hvoucher']
    exact h id old hold (huser'.trans huser)
  · exact absurd (huser'.trans huser) (hlock consumer i order existing hjob)

/-- **The stock of the database covers every accepted order that is not persisted.** -/
theorem WorldInv.stock_pos (h : WorldInv c w) {o : VoucherOrder} (ho : w.Accepted o)
    (hnot : ¬ Persisted w.db o) : ∃ k : ℤ, w.db.stock.lookup o.voucherId = some k ∧ 0 < k := by
  obtain ⟨N, hstock, hle⟩ : ∃ N : ℕ, c.stock.lookup o.voucherId = some (N : ℤ) ∧
      (w.accepted o.voucherId).keys.card ≤ N + (w.released o.voucherId).keys.card := by
    rcases h.phase o.voucherId with hun | ⟨hpublished, -, hactivity⟩ | ⟨hpublished, -, -, hcount⟩
    · rw [World.Accepted, hun.accepted] at ho
      cases ho
    · exact ⟨_, hpublished.stock, hactivity.le⟩
    · exact ⟨_, hpublished.stock, hcount⟩
  have hwaiting : 0 < (unpersisted w o.voucherId).card :=
    Finset.card_pos.mpr ⟨o.userId, mem_selected.mpr ⟨o.id, ho, hnot⟩⟩
  have haccepted := h.books.card_accepted o.voucherId
  have hreturned := h.books.card_returned o.voucherId
  refine ⟨N - (unitsHeld o.voucherId w.db.orders.rows).card, ?_, by omega⟩
  rw [h.books.stock, hstock, Option.map_some]

/-- The id of an accepted order is that of no other row. -/
theorem WorldInv.id_free (h : WorldInv c w) (hd : Distinct w) {o : VoucherOrder} (ho : w.Accepted o)
    (hun : Unordered w.db o.userId o.voucherId) : w.db.orders.rows.lookup o.id = none := by
  cases hrow : w.db.orders.rows.lookup o.id with
  | none => rfl
  | some row =>
    have hsame := hd.unique _ _ (h.books.recorded o.id row hrow) ho rfl
    rw [← hsame] at hun
    exact absurd rfl (hun o.id row (by rwa [← hsame]) rfl)

end handler

/-- **An accepted order can always be persisted.** The handler reads the row of the user in any world
that a run reaches, and writes in any world that a run reaches from there, with the lock of the user
held in between. Every event of the queue is read as an accepted order, and for every accepted order
the transaction commits: the order has its row then, it is the only one of its user for its voucher,
every row that was there is as it was, and the stock is less by one unit just when the row is new. -/
theorem accepted_order_persists (c : Config) (now clock : ℕ) (as bs : List Act) (o : VoucherOrder) :
    let s := Runs.run (step c) (initial c now clock) as
    let existing := (s.db.orders.find o.userId o.voucherId).map OrderRow.id
    let t := Runs.run (step c) s bs
    Runs.Along FreshIds (step c) (initial c now clock) (as ++ bs) →
    Runs.Along (LockOf o.userId) (step c) s bs → s.Accepted o →
    (∀ id fields, (s.redis.stream .orders).lookup id = some fields →
      ∃ o', s.Accepted o' ∧ decode fields = .ok o') ∧
    ∃ db', persistVoucherOrder t.clock existing o t.db = .ok db' ∧ Persisted db' o ∧
      (∀ id row, db'.orders.rows.lookup id = some row → row.userId = o.userId →
        row.voucherId = o.voucherId → id = o.id) ∧
      (∀ id row, t.db.orders.rows.lookup id = some row →
        db'.orders.rows.lookup id = some row) ∧
      (Persisted t.db o → db' = t.db) ∧
      (¬ Persisted t.db o → ∃ k, t.db.stock.lookup o.voucherId = some k ∧ 0 < k ∧
        db'.stock = t.db.stock.insert o.voucherId (k - 1)) := by
  intro s existing t hfresh hlock ho
  obtain ⟨hfresh, hfresh'⟩ := (Runs.along_append _ as bs _).mp hfresh
  obtain ⟨hs, hds⟩ := (worldInv_initial c now clock).run_fresh (distinct_initial c now clock) hfresh
  obtain ⟨ht, hdt⟩ := hs.run_fresh hds hfresh'
  have hevents : ∀ id fields, (s.redis.stream .orders).lookup id = some fields →
      ∃ o', s.Accepted o' ∧ decode fields = .ok o' := by
    intro id fields hfields
    obtain ⟨o', ho', hevent⟩ := hs.traced.entry id fields hfields
    exact ⟨o', ho', carries_of_eventOf hevent⟩
  refine ⟨hevents, ?_⟩
  have hot : t.Accepted o := hs.accepted_run ho bs
  cases hfind : s.db.orders.find o.userId o.voucherId with
  | some row =>
    obtain ⟨hrow, huser, hvoucher⟩ := Orders.find_eq_some.mp hfind
    have hid : row.id = o.id := by
      have hrecorded := hs.books.recorded row.id row hrow
      rw [World.Accepted, huser, hvoucher] at hrecorded
      exact Option.some.inj (hrecorded.symm.trans ho)
    have hpersisted : Persisted t.db o := hs.persisted_run ⟨row, hid ▸ hrow, huser, hvoucher⟩ bs
    have hexisting : existing = some o.id := by
      simp only [existing, hfind, Option.map_some, hid]
    refine ⟨t.db, by simp [persistVoucherOrder, hexisting], hpersisted, ?_,
      fun _ _ hrow' => hrow', fun _ => rfl, fun hnot => absurd hpersisted hnot⟩
    intro id row' hrow' huser' hvoucher'
    obtain ⟨row₀, hrow₀, huser₀, hvoucher₀⟩ := hpersisted
    exact t.db.orders.id_unique hrow' hrow₀ (huser'.trans huser₀.symm)
      (hvoucher'.trans hvoucher₀.symm)
  | none =>
    have hun : Unordered t.db o.userId o.voucherId :=
      (Runs.run_invariant_of_along (I := fun w => WorldInv c w ∧
        Unordered w.db o.userId o.voucherId) _ (fun _ a hw hl =>
          ⟨hw.1.step a, hw.2.move (step_move hw.1.ready a) hl⟩) bs s
        ⟨hs, unordered_of_find hfind⟩ hlock).2
    have hnot : ¬ Persisted t.db o := by
      rintro ⟨row, hrow, huser, hvoucher⟩
      exact hun o.id row hrow huser hvoucher
    obtain ⟨k, hk, hpos⟩ := ht.stock_pos hot hnot
    have hfree := ht.id_free hdt hot hun
    obtain ⟨db', hdb'⟩ := exists_persist t.clock o hk hpos hfree
      (Orders.find_eq_none.mp hun.find)
    have hexisting : existing = none := by simp only [existing, hfind, Option.map_none]
    rw [hexisting]
    refine ⟨db', hdb', ?_⟩
    rcases persist_cases hdb' with ⟨habsurd, -⟩ | ⟨-, k', orders, hk', -, -, -, hrows, rfl⟩
    · cases habsurd
    obtain rfl := Option.some.inj (hk.symm.trans hk')
    refine ⟨⟨_, by rw [hrows, Finmap.lookup_insert], rfl, rfl⟩, ?_, ?_,
      fun hpersisted => absurd hpersisted hnot, fun _ => ⟨k, hk, hpos, rfl⟩⟩
    · intro id row hrow huser hvoucher
      rw [hrows, lookup_insert_eq] at hrow
      split at hrow
      · assumption
      · exact absurd hvoucher (hun id row hrow huser)
    · intro id row hrow
      rw [hrows, lookup_insert_eq, if_neg, hrow]
      rintro rfl
      rw [hfree] at hrow
      cases hrow

/-- The first order of the small sale is persisted. -/
theorem smallSale_persists :
    let s := Runs.run (step smallSale) (initial smallSale 1000 0) firstSale
    ∃ db', persistVoucherOrder s.clock ((s.db.orders.find voucherOne voucherOne).map OrderRow.id)
      firstOrder s.db = .ok db' ∧ Persisted db' firstOrder := by
  obtain ⟨-, db', hdb', hpersisted, -⟩ := accepted_order_persists smallSale 1000 0 firstSale []
    firstOrder (by rw [List.append_nil]; exact firstSale_fresh) trivial firstOrder_accepted
  exact ⟨db', hdb', hpersisted⟩

end CampusHub.OrderFlow
