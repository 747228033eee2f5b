import CampusHub.OrderFlow.Coverage

/-!
# What an owner is told

* `Truthful` — the answers to the queries for an order agree with where the order is.
* `CustodyInv.queryMine_placed`, `CustodyInv.queryMine_waiting`, `CustodyInv.queryMine_other` — the answer
  for a row, for an accepted order without a row, and to anybody else.
* `status_truthful` — the answers are truthful while every redrive names its letter.
* `status_not_truthful` — a redrive that gives the id of its letter in part is answered for twice.

**Theorem** (`status_truthful`). In every world of a run whose redrives name their letters, the owner of an
accepted order is told the state of its row when it has one; that it is accepted when exactly one entry with
it is live; and that it requires review when none is. Nobody else is told anything, and the activity of the
voucher has to live, since the accepted requests are read from it.

**Proof route.** The query reads the index of the archived orders and the record of redrives; the custody of
the orders says that the index has the last letter of an order, and that an order without a row is in one
place (`Custody.existsUnique_place`), an entry or that letter. So the two cases of the answer are the two
kinds of place.

The condition on redrives is needed: `status_not_truthful` runs the small sale to an archived order and
redrives it by the first half of its id, after which a live entry and the answer `REQUIRES_REVIEW` are there
at the same time.
-/

namespace CampusHub.OrderFlow

open CampusHub.Redis CampusHub.Foundations CampusHub.Foundations.Guards CampusHub.Foundations.Maps
open CampusHub.Foundations.Json CampusHub.Domain CampusHub.FlashSale.Initialization
open CampusHub.FlashSale.Admission CampusHub.OrderQueue

/-- The answer for an accepted order without a row. -/
def waiting (o : VoucherOrder) (status : String) : OrderStatusResponse :=
  ⟨o.id.text, o.voucherId.text, status, none, none, none⟩

/-- **The answers for an order are truthful.** Its owner is told the state of its row, or that it is
accepted when exactly one entry with it is not delivered yet or pending, or that it requires review
when there is none; everybody else, and for every other voucher, is told that there is no such order. -/
structure Truthful (w : World) (o : VoucherOrder) : Prop where
  placed : ∀ row, w.db.orders.rows.lookup o.id = some row → ∃ state,
    stateName row.status = some state ∧ queryMine w.redis w.db o.userId o.id o.voucherId =
      .ok ⟨o.id.text, o.voucherId.text, state, compensationOf w.db.cancellations row,
        some row.createTime, some row.updateTime⟩
  waiting : w.db.orders.rows.lookup o.id = none →
    (queryMine w.redis w.db o.userId o.id o.voucherId = .ok (waiting o "ACCEPTED") ∧
      ∃! id, w.Live id ∧ Carried w.redis id o) ∨
    (queryMine w.redis w.db o.userId o.id o.voucherId = .ok (waiting o "REQUIRES_REVIEW") ∧
      ¬ ∃ id, w.Live id ∧ Carried w.redis id o)
  other : ∀ user v, (user, v) ≠ (o.userId, o.voucherId) →
    queryMine w.redis w.db user o.id v = .error { errorCode := .notFound }

section queries

variable {c : Config} {w : World} {o : VoucherOrder}

/-- The row under the id of an accepted order is its own. -/
theorem CustodyInv.own_row (h : CustodyInv c w) (ho : w.Accepted o) {row : OrderRow}
    (hrow : w.db.orders.rows.lookup o.id = some row) :
    row.id = o.id ∧ row.userId = o.userId ∧ row.voucherId = o.voucherId := by
  have hsame := h.distinct.unique _ _ (h.world.books.recorded o.id row hrow) ho rfl
  rw [← hsame]
  exact ⟨w.db.orders.key hrow, rfl, rfl⟩

/-- The owner is told the state of the row. -/
theorem CustodyInv.queryMine_placed (h : CustodyInv c w) (ho : w.Accepted o) {row : OrderRow}
    (hrow : w.db.orders.rows.lookup o.id = some row) : ∃ state,
    stateName row.status = some state ∧ queryMine w.redis w.db o.userId o.id o.voucherId =
      .ok ⟨o.id.text, o.voucherId.text, state, compensationOf w.db.cancellations row,
        some row.createTime, some row.updateTime⟩ := by
  obtain ⟨hid, huser, hvoucher⟩ := h.own_row ho hrow
  have hfound : w.db.orders.findOwned o.id o.userId o.voucherId = some row :=
    findOwned_eq_some.mpr ⟨hrow, huser, hvoucher⟩
  obtain ⟨state, hstate⟩ : ∃ state, stateName row.status = some state := by
    rcases h.world.books.status o.id row hrow with hone | hfour
    · exact ⟨_, by rw [hone]; rfl⟩
    · exact ⟨_, by rw [hfour]; rfl⟩
  refine ⟨state, hstate, ?_⟩
  rw [queryMine, hfound]
  simp only [persisted, hstate, getOr_some_bind, hid, hvoucher]

/-- The keys of a published voucher are of their types. -/
theorem CustodyInv.typed_request (h : CustodyInv c w) (v : LongId) :
    Typed w.redis (.request v) .hash := by
  rcases h.world.phase v with hun | hv
  · exact .inl (typeOf_eq_none.mpr (hun.absent _ (by simp [voucherKeys])))
  · cases hv with
    | live _ _ hactivity =>
      rcases hactivity.request with hnone | ⟨fields, hslot⟩
      · exact .inl (typeOf_eq_none.mpr hnone)
      · exact .inr (Keyspace.typeOf_of_slot hslot)
    | gone _ _ habsent _ => exact .inl (typeOf_eq_none.mpr (habsent _ (by simp [voucherKeys])))

/-- The request of an accepted order is recorded while its activity lives. -/
theorem CustodyInv.request_of_accepted (h : CustodyInv c w) (ho : w.Accepted o)
    (hactivity : w.redis (.activity o.voucherId) ≠ none) :
    w.redis.hget (.request o.voucherId) o.userId.text = some o.id.text := by
  rcases h.world.phase o.voucherId with hun | hv
  · exact absurd (hun.absent _ (by simp [voucherKeys])) hactivity
  · cases hv with
    | live _ _ hlive =>
      have hrecorded := hlive.recorded o.userId
      rwa [show (w.accepted o.voucherId).lookup o.userId = some o.id from ho] at hrecorded
    | gone _ _ habsent _ => exact absurd (habsent _ (by simp [voucherKeys])) hactivity

/-- A request that the hash records is accepted. -/
theorem CustodyInv.accepted_of_request (h : CustodyInv c w) {user v i : LongId}
    (hrequest : w.redis.hget (.request v) user.text = some i.text) : w.Accepted ⟨i, user, v⟩ := by
  have hnone : ∀ hk : w.redis (.request v) = none, False := fun hk => by
    rw [Keyspace.hget, Keyspace.fields, hk] at hrequest
    cases hrequest
  rcases h.world.phase v with hun | hv
  · exact (hnone (hun.absent _ (by simp [voucherKeys]))).elim
  · cases hv with
    | live _ _ hactivity =>
      rw [hactivity.recorded, Option.map_eq_some_iff] at hrequest
      obtain ⟨i', hi', htext⟩ := hrequest
      rw [LongId.text_inj] at htext
      rwa [World.Accepted, ← htext]
    | gone _ _ habsent _ => exact (hnone (habsent _ (by simp [voucherKeys]))).elim

/-- Nobody else is told anything. -/
theorem CustodyInv.queryMine_other (h : CustodyInv c w) (ho : w.Accepted o) {user v : LongId}
    (hother : (user, v) ≠ (o.userId, o.voucherId)) :
    queryMine w.redis w.db user o.id v = .error { errorCode := .notFound } := by
  have hdiffers : ∀ hsame : (⟨o.id, user, v⟩ : VoucherOrder) = o, False := fun hsame =>
    hother (by rw [← hsame])
  have hfound : w.db.orders.findOwned o.id user v = none := by
    cases hrow : w.db.orders.findOwned o.id user v with
    | none => rfl
    | some row =>
      obtain ⟨hlookup, huser, hvoucher⟩ := findOwned_eq_some.mp hrow
      obtain ⟨-, huser', hvoucher'⟩ := h.own_row ho hlookup
      exact absurd (by rw [← huser, ← hvoucher, huser', hvoucher']) hother
  have hrequest : w.redis.hget (.request v) user.text ≠ some o.id.text := fun hrequest =>
    hdiffers (h.distinct.unique _ _ (h.accepted_of_request hrequest) ho rfl)
  rw [queryMine, hfound]
  simp only [hasOwnedAcceptance, hashGet, bind_assoc]
  rw [ensure_of (h.typed_request v)]
  simp only [bind, Except.bind, hrequest, decide_false]
  rfl

/-- A dead letter of an order is read as the order. -/
theorem letterOrder_of_letterOf {ks : Keyspace Key} {l : StreamId} {letter : Fields}
    (htyped : Typed ks .dead .stream) (hletter : (ks.stream .dead).lookup l = some letter)
    (ho : LetterOf o letter) : letterOrder ks l.render = .ok o := by
  obtain ⟨payload, values, pairs, hpayload, hvalues, hpairs, hdecode⟩ := content_of_letterOf ho
  have hselected : (ks.stream .dead).xrange l.render = some [(l, letter)] := by
    rw [EventStream.xrange_render, hletter]
    rfl
  rw [letterOrder, ensure_of htyped, hselected]
  show getOr ((writeFields ∅ letter).lookup "payload") unavailable >>= _ = _
  rw [hpayload, getOr_some_bind, hvalues, getOr_some_bind, hpairs, getOr_some_bind, hdecode]
  rfl

/-- **The answer for an accepted order without a row**: it requires review when a letter of it is
recorded under its id and has no redrive recorded, and else it is accepted. -/
theorem CustodyInv.queryMine_waiting (h : CustodyInv c w) (ho : w.Accepted o)
    (hrow : w.db.orders.rows.lookup o.id = none) (hactivity : w.redis (.activity o.voucherId) ≠ none) :
    (queryMine w.redis w.db o.userId o.id o.voucherId = .ok (waiting o "ACCEPTED") ∧
      ∀ l, ¬ (custody w).Holds o (.letter l)) ∨
    (queryMine w.redis w.db o.userId o.id o.voucherId = .ok (waiting o "REQUIRES_REVIEW") ∧
      ∃ l, (custody w).Holds o (.letter l)) := by
  have hfound : w.db.orders.findOwned o.id o.userId o.voucherId = none := by
    rw [Orders.findOwned, hrow]
    rfl
  have haccepted : hasOwnedAcceptance w.redis o.id o.voucherId o.userId = .ok true := by
    rw [hasOwnedAcceptance, hashGet, ensure_of (h.typed_request o.voucherId)]
    show Except.ok (decide (_ = _)) = _
    rw [h.request_of_accepted ho hactivity, decide_eq_true rfl]
  have hanswer : queryMine w.redis w.db o.userId o.id o.voucherId =
      (failedAcceptance w.redis o.id o.voucherId o.userId).map fun failed =>
        waiting o (if failed then "REQUIRES_REVIEW" else "ACCEPTED") := by
    rw [queryMine, hfound]
    simp only [haccepted]
    cases failedAcceptance w.redis o.id o.voucherId o.userId <;> rfl
  cases hindex : w.redis.hget .failures ("order:" ++ o.id.text) with
  | none =>
    have hfailed : failedAcceptance w.redis o.id o.voucherId o.userId = .ok false := by
      rw [failedAcceptance, hashGet, ensure_of h.world.ready.failures, hindex]
      rfl
    left
    rw [hanswer, hfailed]
    refine ⟨rfl, fun l hl => ?_⟩
    rw [show w.redis.hget .failures ("order:" ++ o.id.text) = some l.render from hl.1.1] at hindex
    cases hindex
  | some text =>
    obtain ⟨l, letter, o', rfl, hletter, hof, hid⟩ := h.filing.indexed o.id text hindex
    have hfiled : (custody w).filed l = some o' := by
      show ((w.redis.stream .dead).lookup l).bind letterContent = some o'
      rw [hletter, Option.bind_some, letterContent_of_letterOf hof]
    obtain rfl : o' = o := h.distinct.unique o' o (h.world.accepted_of_filed hfiled) ho hid
    have hfailed : failedAcceptance w.redis o'.id o'.voucherId o'.userId =
        .ok (decide (w.redis.hget .redrives l.render = none)) := by
      rw [failedAcceptance, hashGet, ensure_of h.world.ready.failures, hindex]
      show (letterOrder w.redis l.render >>= _) = _
      rw [letterOrder_of_letterOf h.world.ready.dead hletter hof]
      show (ensure (o' = o') unavailable >>= _) = _
      rw [ensure_of rfl, hashGet, ensure_of h.world.ready.redrives]
      rfl
    rw [hanswer, hfailed]
    by_cases hredriven : w.redis.hget .redrives l.render = none
    · right
      rw [decide_eq_true hredriven]
      exact ⟨rfl, l, ⟨hindex, hfiled⟩, not_not.mpr hredriven⟩
    · left
      rw [decide_eq_false hredriven]
      refine ⟨rfl, fun l' hl' => ?_⟩
      have hsame : some l'.render = some l.render := hl'.1.1.symm.trans hindex
      rw [Option.some.injEq, StreamId.render_inj] at hsame
      subst hsame
      exact hl'.2 hredriven

/-- **The answers are truthful** where each order is in one place. -/
theorem CustodyInv.truthful (h : CustodyInv c w) (hsingle : (custody w).Single) (ho : w.Accepted o)
    (hactivity : w.redis (.activity o.voucherId) ≠ none) : Truthful w o where
  placed row hrow := h.queryMine_placed ho hrow
  waiting hrow := by
    have hdone : o ∉ (custody w).done := by
      rintro ⟨row, hlookup, -⟩
      rw [hrow] at hlookup
      cases hlookup
    obtain ⟨p, hp, hunique⟩ := Custody.existsUnique_place h.covered hsingle ho hdone
    refine (h.queryMine_waiting ho hrow hactivity).imp ?_ ?_
    · rintro ⟨hanswer, hnone⟩
      refine ⟨hanswer, ?_⟩
      cases p with
      | entry id =>
        refine ⟨id, carried_of_queued hp, fun id' hid' => ?_⟩
        have hplace := hunique (.entry id') (queued_eq hid'.1 hid'.2)
        rwa [Custody.Place.entry.injEq] at hplace
      | letter l => exact absurd hp (hnone l)
    · rintro ⟨hanswer, l, hl⟩
      refine ⟨hanswer, ?_⟩
      rintro ⟨id, hlive, hcarried⟩
      cases hsingle.single o (.entry id) (.letter l) (queued_eq hlive hcarried) hl
  other user v hother := h.queryMine_other ho hother

end queries

/-! ## Runs -/

/-- The order ids are fresh, and a redrive names its letter. -/
def GoodCall (w : World) (a : Act) : Prop := FreshIds w a ∧ NamesLetter w a

section runs

variable {c : Config} {w : World}

/-- In the first world no order is anywhere. -/
theorem single_initial (c : Config) (now clock : ℕ) : (custody (initial c now clock)).Single where
  queued i o ho := by cases (carried_of_queued ho).2.choose_spec.1
  filed l o ho := by cases ho
  latest l o ho := by cases ho
  single o p q hp := by
    cases p with
    | entry i => cases (carried_of_queued hp).2.choose_spec.1
    | letter l => cases hp.1.1

/-- A redrive that names its letter leaves each order in one place, as every other step does. -/
theorem CustodyInv.single_step (h : CustodyInv c w) (hsingle : (custody w).Single) {a : Act}
    (hgood : GoodCall w a) : (custody (OrderFlow.step c w a)).Single := by
  have hstep := h.world.custody_step h.distinct h.filing (step_move h.world.ready a) hgood.1
  rw [eq_true hgood.2] at hstep
  exact hsingle.step h.covered hstep

/-- Each order is in one place along every run of good calls. -/
theorem CustodyInv.run_single (h : CustodyInv c w) (hsingle : (custody w).Single) {as : List Act}
    (hgood : Runs.Along GoodCall (OrderFlow.step c) w as) :
    CustodyInv c (Runs.run (OrderFlow.step c) w as) ∧
      (custody (Runs.run (OrderFlow.step c) w as)).Single :=
  Runs.run_invariant_of_along (I := fun w => CustodyInv c w ∧ (custody w).Single) _
    (fun _ _ hw hok => ⟨hw.1.step hok.1, hw.1.single_step hw.2 hok⟩) as w ⟨h, hsingle⟩ hgood

end runs

/-- **Order status queries tell the truth.** In every world that a run with fresh order ids reaches,
each redrive of which names its letter, the answers for an accepted order are truthful while its
activity lives. -/
theorem status_truthful (c : Config) (now clock : ℕ) (as : List Act) (o : VoucherOrder) :
    let w := Runs.run (step c) (initial c now clock) as
    Runs.Along GoodCall (step c) (initial c now clock) as → w.Accepted o →
      w.redis (.activity o.voucherId) ≠ none → Truthful w o := by
  intro w hgood ho hactivity
  obtain ⟨h, hsingle⟩ :=
    (custodyInv_initial c now clock).run_single (single_initial c now clock) hgood
  exact h.truthful hsingle ho hactivity

/-- The only attempt of the consumer fails, so the first order of the small sale is archived under
`1000-0`. -/
def archivedFirst : List Act :=
  firstSale ++ [.readNew 0 "c", .begin 0, .refuse 0 (.reason .lockBusy), .finish 0]

/-- The id of the archived order is fresh. -/
theorem archivedFirst_fresh :
    Runs.Along FreshIds (step smallSale) (initial smallSale 1000 0) archivedFirst :=
  (Runs.along_append _ firstSale _ _).mpr
    ⟨firstSale_fresh, trivial, trivial, trivial, trivial, trivial⟩

/-- The id that is printed for the letter names it in full. -/
theorem namesLetter_archived (w : World) : NamesLetter w (.redrive "1000-0" "operator" "retry") := by
  intro _ _ letter hletter
  have hrender : "1000-0" = (⟨1000, 0⟩ : StreamId).render := by decide
  rw [hrender] at hletter ⊢
  rw [(EventStream.eq_of_xrange_render hletter).1]

/-- The operator redrives the archived order by its full id: the owner is told that the order is accepted, and
exactly one entry with it waits in the queue. -/
theorem smallSale_truthful :
    let w := Runs.run (step smallSale) (initial smallSale 1000 0)
      (archivedFirst ++ [.redrive "1000-0" "operator" "retry"])
    queryMine w.redis w.db voucherOne voucherOne voucherOne = .ok (waiting firstOrder "ACCEPTED") ∧
      ∃! id, w.Live id ∧ Carried w.redis id firstOrder := by
  intro w
  have hgood : Runs.Along GoodCall (step smallSale) (initial smallSale 1000 0)
      (archivedFirst ++ [.redrive "1000-0" "operator" "retry"]) := by
    obtain ⟨-, hfresh, -⟩ := firstSale_fresh
    exact ⟨⟨trivial, trivial⟩, ⟨hfresh, trivial⟩, ⟨trivial, trivial⟩, ⟨trivial, trivial⟩,
      ⟨trivial, trivial⟩, ⟨trivial, trivial⟩, ⟨trivial, namesLetter_archived _⟩, trivial⟩
  have haccepted : w.Accepted firstOrder := by
    show (w.accepted voucherOne).lookup voucherOne = some voucherOne
    decide +kernel
  have htruthful : Truthful w firstOrder :=
    status_truthful smallSale 1000 0 _ firstOrder hgood haccepted (by decide +kernel)
  have hrow : w.db.orders.rows.lookup voucherOne = none := by decide +kernel
  have hlive : w.Live ⟨1000, 1⟩ ∧ Carried w.redis ⟨1000, 1⟩ firstOrder :=
    ⟨by decide +kernel, redrivenFields firstOrder, by decide +kernel, rfl⟩
  rcases htruthful.waiting hrow with hwaits | ⟨-, hnone⟩
  · exact hwaits
  · exact absurd ⟨_, hlive⟩ hnone

/-! ## A redrive that gives the id of its letter in part -/

/-- The archived order is redriven as `1000`. -/
def redrivenInPart : List Act := archivedFirst ++ [.redrive "1000" "operator" "retry"]

/-- **Such a redrive is answered for as if it had not been made.** The owner is told that the order
requires review while an entry with it waits in the queue. -/
theorem status_not_truthful : ¬ ∀ (c : Config) (now clock : ℕ) (as : List Act) (o : VoucherOrder),
    Runs.Along FreshIds (step c) (initial c now clock) as →
    (Runs.run (step c) (initial c now clock) as).Accepted o →
    (Runs.run (step c) (initial c now clock) as).redis (.activity o.voucherId) ≠ none →
    Truthful (Runs.run (step c) (initial c now clock) as) o := by
  intro hall
  have hfresh : Runs.Along FreshIds (step smallSale) (initial smallSale 1000 0) redrivenInPart :=
    (Runs.along_append _ archivedFirst _ _).mpr ⟨archivedFirst_fresh, trivial, trivial⟩
  have htruthful := hall smallSale 1000 0 redrivenInPart firstOrder hfresh (by
    show ((Runs.run (step smallSale) (initial smallSale 1000 0) redrivenInPart).accepted
      voucherOne).lookup voucherOne = some voucherOne
    decide +kernel) (by decide +kernel)
  set w := Runs.run (step smallSale) (initial smallSale 1000 0) redrivenInPart with hw
  have hanswer : queryMine w.redis w.db voucherOne voucherOne voucherOne =
      .ok (waiting firstOrder "REQUIRES_REVIEW") := by
    rw [hw]
    decide +kernel
  have hlive : w.Live ⟨1000, 1⟩ ∧ Carried w.redis ⟨1000, 1⟩ firstOrder := by
    refine ⟨by rw [hw]; decide +kernel, redrivenFields firstOrder, by rw [hw]; decide +kernel, rfl⟩
  have hrow : w.db.orders.rows.lookup voucherOne = none := by
    rw [hw]
    decide +kernel
  rcases htruthful.waiting hrow with ⟨haccepted, -⟩ | ⟨-, hnone⟩
  · rw [show queryMine w.redis w.db firstOrder.userId firstOrder.id firstOrder.voucherId = _ from
      hanswer] at haccepted
    revert haccepted
    decide
  · exact hnone ⟨_, hlive⟩

end CampusHub.OrderFlow
