import CampusHub.OrderFlow.Moves

/-!
# The activity of a voucher over its life

* `Activity` — the keys of a published activity against the orders accepted and released so far.
* `Unpublished`, `Opened` — a voucher is not published yet; its activity is live, or gone with its keys.
* `Phase.move`, `Opened.move` — every move keeps a voucher in a phase, and none unpublishes it.

A voucher has three phases in Redis: before its publication, while its keys live, and after they have
expired. `Activity` is the invariant of the second: the stock and the accepted orders add up to the initial
stock and the released orders, the request hash records exactly the accepted orders, and all keys expire at
the deadline, so that they go together.

**Proof route.** A move does one of a few things to one voucher (`Turn`), the others being about other
vouchers or about the queue; the keys of two vouchers, and those of the queue, are different
(`notMem_of_ne`, `voucherKey_ne`). Each kind of turn keeps the phase or moves it on (`Opened.turn`,
`Unpublished.turn`).

**Left out.** The database: see `OrderFlow.Books`.
-/

namespace CampusHub.OrderFlow

open CampusHub.Redis CampusHub.Foundations.Decimal CampusHub.Foundations.Maps CampusHub.Domain
open CampusHub.FlashSale.Rules CampusHub.FlashSale.Initialization CampusHub.FlashSale.Admission
open CampusHub.FlashSale.Release CampusHub.OrderQueue CampusHub.Cancellation

/-- The keys of a voucher. -/
def voucherKeys (v : LongId) : List Key :=
  [.stock v, .order v, .activity v, .request v, .released v]

/-- A key that expires at a time holds a hash or is not there. -/
def HashUntil (ks : Keyspace Key) (k : Key) (t : ℕ) : Prop :=
  ks k = none ∨ ∃ fields, ks k = some ⟨.hash fields, some t⟩

/-- **A live activity.** Stock and accepted orders together are the initial stock and the released
orders; the request hash has the accepted orders, and the markers are those of the released ones. -/
structure Activity (v : LongId) (N : ℕ) (r : FlashSaleRules) (ks : Keyspace Key)
    (accepted released : FiniteMap LongId LongId) : Prop where
  stock : ∃ n, ks (.stock v) = some ⟨.str (decimal n), some r.expiresAtMillis⟩ ∧
    n + accepted.keys.card = N + released.keys.card
  activity : ks (.activity v) = some ⟨.hash (writeFields ∅
    (metadata r.beginMillis r.endMillis r.expiresAtMillis)), some r.expiresAtMillis⟩
  participants : ks (.order v) = none ∨ ∃ members,
    ks (.order v) = some ⟨.set members, some r.expiresAtMillis⟩
  request : HashUntil ks (.request v) r.expiresAtMillis
  recorded : ∀ u : LongId, ks.hget (.request v) u.text = (accepted.lookup u).map LongId.text
  marks : HashUntil ks (.released v) r.expiresAtMillis
  marked : ∀ o : LongId, ks.hget (.released v) o.text =
    (released.lookup o).map fun u => "DONE:" ++ u.text

/-- The voucher is not published: none of its keys is there, and nothing was accepted. -/
structure Unpublished (w : World) (v : LongId) : Prop where
  absent : ∀ k ∈ voucherKeys v, w.redis k = none
  accepted : w.accepted v = ∅
  released : w.released v = ∅

/-- **The voucher was published**: its activity is live, or its keys have expired. -/
inductive Opened (c : Config) (w : World) (v : LongId) : Prop
  | live {N : ℕ} {r : FlashSaleRules} (hpublished : Published c v N r)
      (hnow : w.now ≤ r.expiresAtMillis)
      (hactivity : Activity v N r w.redis (w.accepted v) (w.released v))
  | gone {N : ℕ} {r : FlashSaleRules} (hpublished : Published c v N r)
      (hnow : r.expiresAtMillis < w.now) (habsent : ∀ k ∈ voucherKeys v, w.redis k = none)
      (hcount : (w.accepted v).keys.card ≤ N + (w.released v).keys.card)

/-- Where a voucher stands. -/
def Phase (c : Config) (w : World) (v : LongId) : Prop := Unpublished w v ∨ Opened c w v

/-- One window belongs to a voucher. -/
theorem Published.unique {c : Config} {v : LongId} {N N' : ℕ} {r r' : FlashSaleRules}
    (h : Published c v N r) (h' : Published c v N' r') : N = N' ∧ r = r' := by
  obtain ⟨voucher, hv, hr, -⟩ := h.voucher
  obtain ⟨voucher', hv', hr', -⟩ := h'.voucher
  obtain rfl := Option.some.inj (hv.symm.trans hv')
  refine ⟨?_, Except.ok.inj (hr.symm.trans hr')⟩
  have hstock := h.stock.symm.trans h'.stock
  rw [Option.some.injEq] at hstock
  exact_mod_cast hstock

section phases

variable {c : Config} {w w' : World} {v : LongId} {N : ℕ} {r : FlashSaleRules}
  {ks ks' : Keyspace Key} {accepted released : FiniteMap LongId LongId}

/-- An activity is what its keys hold. -/
theorem Activity.congr (h : Activity v N r ks accepted released)
    (hkeys : ∀ k ∈ voucherKeys v, ks' k = ks k) : Activity v N r ks' accepted released := by
  simp only [voucherKeys, List.forall_mem_cons, List.not_mem_nil, false_imp_iff, implies_true,
    and_true] at hkeys
  obtain ⟨hstock, horder, hactivity, hrequest, hreleased⟩ := hkeys
  obtain ⟨n, hn, hsum⟩ := h.stock
  refine ⟨⟨n, hstock.trans hn, hsum⟩, hactivity.trans h.activity, ?_, ?_, fun u => ?_, ?_, fun o => ?_⟩
  · rw [horder]
    exact h.participants
  · rw [HashUntil, hrequest]
    exact h.request
  · rw [Keyspace.hget_congr hrequest, h.recorded]
  · rw [HashUntil, hreleased]
    exact h.marks
  · rw [Keyspace.hget_congr hreleased, h.marked]

/-- Before its deadline an activity does not expire. -/
theorem Activity.purge (h : Activity v N r ks accepted released) {t : ℕ}
    (ht : t ≤ r.expiresAtMillis) : Activity v N r (ks.purge t) accepted released := by
  have hhash : ∀ {k}, HashUntil ks k r.expiresAtMillis → ks.purge t k = ks k := by
    rintro k (hk | ⟨fields, hk⟩)
    · rw [Keyspace.purge_of_none hk, hk]
    · rw [Keyspace.purge_of_le hk ht, hk]
  refine h.congr fun k hk => ?_
  simp only [voucherKeys, List.mem_cons, List.not_mem_nil, or_false] at hk
  rcases hk with rfl | rfl | rfl | rfl | rfl
  · obtain ⟨n, hn, -⟩ := h.stock
    rw [Keyspace.purge_of_le hn ht, hn]
  · rcases h.participants with hk | ⟨members, hk⟩
    · rw [Keyspace.purge_of_none hk, hk]
    · rw [Keyspace.purge_of_le hk ht, hk]
  · rw [Keyspace.purge_of_le h.activity ht, h.activity]
  · exact hhash h.request
  · exact hhash h.marks

/-- After its deadline all of it is gone. -/
theorem Activity.expire (h : Activity v N r ks accepted released) {t : ℕ}
    (ht : r.expiresAtMillis < t) : ∀ k ∈ voucherKeys v, ks.purge t k = none := by
  have hhash : ∀ {k}, HashUntil ks k r.expiresAtMillis → ks.purge t k = none := by
    rintro k (hk | ⟨fields, hk⟩)
    · exact Keyspace.purge_of_none hk
    · exact Keyspace.purge_of_lt hk ht
  intro k hk
  simp only [voucherKeys, List.mem_cons, List.not_mem_nil, or_false] at hk
  rcases hk with rfl | rfl | rfl | rfl | rfl
  · obtain ⟨n, hn, -⟩ := h.stock
    exact Keyspace.purge_of_lt hn ht
  · rcases h.participants with hk | ⟨members, hk⟩
    · exact Keyspace.purge_of_none hk
    · exact Keyspace.purge_of_lt hk ht
  · exact Keyspace.purge_of_lt h.activity ht
  · exact hhash h.request
  · exact hhash h.marks

/-- What was accepted is never more than there was and came back. -/
theorem Activity.le (h : Activity v N r ks accepted released) :
    accepted.keys.card ≤ N + released.keys.card := by
  obtain ⟨n, -, hsum⟩ := h.stock
  omega

/-- A sale that was just initialized is an activity without orders. -/
theorem activity_of_initialized (h : Initialized (keysOf v) N r.beginMillis r.endMillis
    r.expiresAtMillis ks ks') (hreleased : ks (.released v) = none) : Activity v N r ks' ∅ ∅ := by
  have hmarks : ks' (.released v) = none :=
    (h.frame _ (by simp [keysOf, AdmissionKeys.activityKeys])).trans hreleased
  have hrequest : ks' (.request v) = none := h.request
  refine ⟨⟨N, h.stock, by simp⟩, h.activity, .inl h.participants, .inl hrequest, fun u => ?_,
    .inl hmarks, fun o => ?_⟩
  · simp [Keyspace.hget, Keyspace.fields, hrequest]
  · simp [Keyspace.hget, Keyspace.fields, hmarks]

/-- An admission finds its user with no order. -/
theorem Activity.not_accepted (h : Activity v N r ks accepted released) {now n x : ℕ}
    {u : LongId} {order : String}
    (ha : Admitted (keysOf v) now u.text order v.text n x ks ks') : accepted.lookup u = none := by
  have hnone : ks.hget (.request v) u.text = none := ha.no_request
  rw [h.recorded, Option.map_eq_none_iff] at hnone
  exact hnone

/-- An admission leaves an activity with one order more. -/
theorem Activity.admitVoucher (h : Activity v N r ks accepted released) {now n x : ℕ} {u o : LongId}
    (ha : Admitted (keysOf v) now u.text o.text v.text n x ks ks') :
    Activity v N r ks' (accepted.insert u o) released := by
  obtain ⟨m, hm, hsum⟩ := h.stock
  have hmn : m = n + 1 := by
    have hbefore : ks.get (.stock v) = some (decimal (n + 1)) := ha.stock_before
    rw [Keyspace.get, hm, Option.some.injEq, decimal_inj] at hbefore
    exact hbefore
  have hx : x = r.expiresAtMillis := by
    have hdeadline : ks.hget (.activity v) "expireAt" = some (decimal x) := ha.deadline
    rw [Keyspace.hget, Keyspace.fields, h.activity] at hdeadline
    simpa [writeFields, metadata, lookup_insert_eq, eq_comm] using hdeadline
  subst hx
  have hmarks : ks' (.released v) = ks (.released v) :=
    ha.frame _ (by simp [keysOf, AdmissionKeys.list])
  have hfields : ks.fields (.activity v) = writeFields ∅
      (metadata r.beginMillis r.endMillis r.expiresAtMillis) := by
    rw [Keyspace.fields, h.activity]
  have hrequest : ks' (.request v) =
      some ⟨.hash ((ks.fields (.request v)).insert u.text o.text), some r.expiresAtMillis⟩ :=
    ha.request
  refine ⟨⟨n, ha.stock, ?_⟩, ?_, .inr ⟨_, ha.participants⟩, .inr ⟨_, hrequest⟩, fun u' => ?_, ?_,
    fun o' => ?_⟩
  · rw [card_keys_insert (h.not_accepted ha)]
    omega
  · rw [← hfields]
    exact ha.activity
  · rw [Keyspace.hget, Keyspace.fields, hrequest]
    dsimp only
    rw [lookup_insert_eq, lookup_insert_eq]
    by_cases hu : u' = u
    · rw [if_pos hu, if_pos (by rw [hu])]
      rfl
    · rw [if_neg hu, if_neg (by rwa [LongId.text_inj]), ← h.recorded]
      rfl
  · rw [HashUntil, hmarks]
    exact h.marks
  · rw [Keyspace.hget_congr hmarks, h.marked]

/-- A release leaves an activity with one marker more. -/
theorem Activity.release (h : Activity v N r ks accepted released) {now n : ℕ} {u o : LongId}
    (hr : Releasable (releaseKeysOf v) (decimal r.expiresAtMillis) now ks u.text o.text n)
    (hd : Released (releaseKeysOf v) r.expiresAtMillis u.text o.text n ks ks') :
    Activity v N r ks' accepted (released.insert o u) := by
  obtain ⟨m, hm, hsum⟩ := h.stock
  have hmn : m = n := by
    have hstock : ks.get (.stock v) = some (decimal n) := hr.stock
    rw [Keyspace.get, hm, Option.some.injEq, decimal_inj] at hstock
    exact hstock
  have hnew : released.lookup o = none := by
    have hnone : ks.hget (.released v) o.text = none := hr.unmarked
    rw [h.marked, Option.map_eq_none_iff] at hnone
    exact hnone
  have hother : ∀ k, k ≠ .stock v → k ≠ .released v → ks' k = ks k := hd.frame
  have hmarks : ks' (.released v) = some ⟨.hash ((ks.fields (.released v)).insert o.text
      ("DONE:" ++ u.text)), some r.expiresAtMillis⟩ := hd.marker
  have httl : ks.ttl (.stock v) = some r.expiresAtMillis := by rw [Keyspace.ttl, hm]; rfl
  have hactivity : ks' (.activity v) = ks (.activity v) := hother _ (by simp) (by simp)
  have horder : ks' (.order v) = ks (.order v) := hother _ (by simp) (by simp)
  have hrequest : ks' (.request v) = ks (.request v) := hother _ (by simp) (by simp)
  refine ⟨⟨n + 1, ?_, ?_⟩, hactivity.trans h.activity, ?_, ?_, fun u' => ?_,
    .inr ⟨_, hmarks⟩, fun o' => ?_⟩
  · rw [← httl]
    exact hd.stock
  · rw [card_keys_insert hnew]
    omega
  · rw [horder]
    exact h.participants
  · rw [HashUntil, hrequest]
    exact h.request
  · rw [Keyspace.hget_congr hrequest, h.recorded]
  · rw [Keyspace.hget, Keyspace.fields, hmarks]
    dsimp only
    rw [lookup_insert_eq, lookup_insert_eq]
    by_cases ho : o' = o
    · rw [if_pos ho, if_pos (by rw [ho])]
      rfl
    · rw [if_neg ho, if_neg (by rwa [LongId.text_inj]), ← h.marked]
      rfl

end phases

/-! ## One voucher -/

/-- **What a move does to a voucher.** -/
inductive Turn (c : Config) (w : World) (v : LongId) (w' : World) : Prop
  | same (hkeys : ∀ k ∈ voucherKeys v, w'.redis k = w.redis k) (hnow : w'.now = w.now)
      (haccepted : w'.accepted v = w.accepted v) (hreleased : w'.released v = w.released v)
  | expire (hkeys : w'.redis = w.redis.purge w'.now) (hnow : w.now ≤ w'.now)
      (haccepted : w'.accepted v = w.accepted v) (hreleased : w'.released v = w.released v)
  | publish {N : ℕ} {r : FlashSaleRules} (hpublished : Published c v N r)
      (hlt : w.now < r.expiresAtMillis) (habsent : Absent (keysOf v) w.redis)
      (hinit : Initialized (keysOf v) N r.beginMillis r.endMillis r.expiresAtMillis w.redis w'.redis)
      (hnow : w'.now = w.now) (haccepted : w'.accepted v = w.accepted v)
      (hreleased : w'.released v = w.released v)
  | admitVoucher {u o : LongId} {n x : ℕ}
      (hadmitted : Admitted (keysOf v) w.now u.text o.text v.text n x w.redis w'.redis)
      (hnow : w'.now = w.now) (haccepted : w'.accepted v = (w.accepted v).insert u o)
      (hreleased : w'.released v = w.released v)
  | release {orderId : LongId} {e : Outbox.OrderCancellation} {n : ℕ}
      (hrow : w.db.cancellations.lookup orderId = some e) (hv : e.voucherId = v)
      (hreleasable : Releasable (releaseKeysOf v) (decimal e.expiresAtMs) w.now w.redis
        e.userId.text e.orderId.text n)
      (hdone : Released (releaseKeysOf v) e.expiresAtMs e.userId.text e.orderId.text n w.redis
        w'.redis)
      (hnow : w'.now = w.now) (haccepted : w'.accepted v = w.accepted v)
      (hreleased : w'.released v = (w.released v).insert e.orderId e.userId)

section turns

variable {c : Config} {w w' : World} {v : LongId}

/-- The keys of a voucher are none of another one. -/
theorem notMem_of_ne {v v' : LongId} (hv : v ≠ v') {k : Key} (hk : k ∈ voucherKeys v) :
    k ∉ (keysOf v').list ∧ k ∉ (keysOf v').activityKeys ∧ k ≠ .stock v' ∧ k ≠ .released v' := by
  simp only [voucherKeys, List.mem_cons, List.not_mem_nil, or_false] at hk
  rcases hk with rfl | rfl | rfl | rfl | rfl <;>
    simp [keysOf, AdmissionKeys.list, AdmissionKeys.activityKeys, hv]

/-- The keys of a voucher are none of the queue. -/
theorem voucherKey_ne {k : Key} (hk : k ∈ voucherKeys v) :
    k ≠ .orders ∧ k ≠ .attempts ∧ k ≠ .dead ∧ k ≠ .failures ∧ k ≠ .redrives := by
  simp only [voucherKeys, List.mem_cons, List.not_mem_nil, or_false] at hk
  rcases hk with rfl | rfl | rfl | rfl | rfl <;> simp

/-- A move does one of these things to a voucher. -/
theorem Move.turn {a : Act} (m : Move c w a w') (v : LongId) : Turn c w v w' := by
  cases m with
  | quiet _ _ _ _ => exact .same (fun _ _ => rfl) rfl rfl rfl
  | expire d => exact .expire rfl (Nat.le_add_right _ _) rfl rfl
  | @publish v' N r ks hpublished habsent hlt hinit =>
    by_cases hv : v = v'
    · subst hv
      exact .publish hpublished hlt habsent hinit rfl rfl rfl
    · exact .same (fun k hk => hinit.frame k (notMem_of_ne hv hk).2.1) rfl rfl rfl
  | @admitVoucher v' u o n x ks _ hadmitted _ =>
    by_cases hv : v = v'
    · subst hv
      exact .admitVoucher hadmitted rfl (Function.update_self ..) rfl
    · exact .same (fun k hk => hadmitted.frame k (notMem_of_ne hv hk).1) rfl
        (Function.update_of_ne hv ..) rfl
  | deliver _ _ _ _ _ _ =>
    exact .same (fun k hk => Keyspace.put_of_ne _ _ (voucherKey_ne hk).1) rfl rfl rfl
  | count _ _ _ =>
    exact .same (fun k hk => Keyspace.put_of_ne _ _ (voucherKey_ne hk).2.1) rfl rfl rfl
  | acknowledge _ _ _ hack _ =>
    exact .same (fun k hk => hack.frame k (voucherKey_ne hk).1 (voucherKey_ne hk).2.1) rfl rfl rfl
  | archive _ _ harchived hack _ =>
    refine .same (fun k hk => ?_) rfl rfl rfl
    obtain ⟨horders, hattempts, hdead, hfailures, -⟩ := voucherKey_ne hk
    exact (hack.frame k horders hattempts).trans (harchived.frame k hdead hfailures)
  | persist _ _ _ _ _ _ _ _ _ => exact .same (fun _ _ => rfl) rfl rfl rfl
  | cancel _ => exact .same (fun _ _ => rfl) rfl rfl rfl
  | @release orderId e n ks hrow hreleasable hdone =>
    by_cases hv : v = e.voucherId
    · subst hv
      exact .release hrow rfl hreleasable hdone rfl rfl (Function.update_self ..)
    · refine .same (fun k hk => ?_) rfl rfl (Function.update_of_ne hv ..)
      obtain ⟨-, -, hstock, hmarks⟩ := notMem_of_ne hv hk
      exact hdone.frame k hstock hmarks
  | redrive hredriven _ _ =>
    refine .same (fun k hk => ?_) rfl rfl rfl
    obtain ⟨horders, -, -, -, hredrives⟩ := voucherKey_ne hk
    exact hredriven.frame k horders hredrives

/-- A voucher without keys has no stock in Redis. -/
theorem get_of_absent {ks : Keyspace Key} (habsent : ∀ k ∈ voucherKeys v, ks k = none) :
    ks.get (.stock v) = none := by
  rw [Keyspace.get, habsent _ (by simp [voucherKeys])]

/-- **A published voucher stays published.** -/
theorem Opened.turn (h : Opened c w v) (t : Turn c w v w')
    (hdeadline : ∀ id e N r, w.db.cancellations.lookup id = some e → e.voucherId = v →
      Published c v N r → e.expiresAtMs = r.expiresAtMillis) : Opened c w' v := by
  cases h with
  | @live N r hpublished hlive hactivity =>
    cases t with
    | same hkeys hnow haccepted hreleased =>
      refine .live hpublished (hnow ▸ hlive) ?_
      rw [haccepted, hreleased]
      exact hactivity.congr hkeys
    | expire hkeys hnow haccepted hreleased =>
      rcases le_or_gt w'.now r.expiresAtMillis with hle | hlt
      · refine .live hpublished hle ?_
        rw [haccepted, hreleased, hkeys]
        exact hactivity.purge hle
      · refine .gone hpublished hlt ?_ ?_
        · rw [hkeys]
          exact hactivity.expire hlt
        · rw [haccepted, hreleased]
          exact hactivity.le
    | publish _ _ habsent _ _ _ _ =>
      obtain ⟨n, hn, -⟩ := hactivity.stock
      have hnone : w.redis (.stock v) = none :=
        habsent _ (by simp [keysOf, AdmissionKeys.activityKeys])
      rw [hn] at hnone
      cases hnone
    | admitVoucher hadmitted hnow haccepted hreleased =>
      refine .live hpublished (hnow ▸ hlive) ?_
      rw [haccepted, hreleased]
      exact hactivity.admitVoucher hadmitted
    | release hrow hv hreleasable hdone hnow haccepted hreleased =>
      have hexpires := hdeadline _ _ N r hrow hv hpublished
      rw [hexpires] at hreleasable hdone
      refine .live hpublished (hnow ▸ hlive) ?_
      rw [haccepted, hreleased]
      exact hactivity.release hreleasable hdone
  | @gone N r hpublished hgone habsent hcount =>
    cases t with
    | same hkeys hnow haccepted hreleased =>
      refine .gone hpublished (hnow ▸ hgone) (fun k hk => (hkeys k hk).trans (habsent k hk)) ?_
      rw [haccepted, hreleased]
      exact hcount
    | expire hkeys hnow haccepted hreleased =>
      refine .gone hpublished (hgone.trans_le hnow) (fun k hk => ?_) ?_
      · rw [hkeys]
        exact Keyspace.purge_of_none (habsent k hk)
      · rw [haccepted, hreleased]
        exact hcount
    | publish hpublished' hlt _ _ _ _ _ =>
      obtain ⟨-, rfl⟩ := hpublished.unique hpublished'
      omega
    | admitVoucher hadmitted _ _ _ =>
      have hbefore : w.redis.get (.stock v) = _ := hadmitted.stock_before
      rw [get_of_absent habsent] at hbefore
      cases hbefore
    | release _ _ hreleasable _ _ _ _ =>
      have hstock : w.redis.get (.stock v) = _ := hreleasable.stock
      rw [get_of_absent habsent] at hstock
      cases hstock

/-- A voucher that is not published stays so, or is published. -/
theorem Unpublished.turn (h : Unpublished w v) (t : Turn c w v w') : Phase c w' v := by
  cases t with
  | same hkeys hnow haccepted hreleased =>
    exact .inl ⟨fun k hk => (hkeys k hk).trans (h.absent k hk), haccepted.trans h.accepted,
      hreleased.trans h.released⟩
  | expire hkeys hnow haccepted hreleased =>
    refine .inl ⟨fun k hk => ?_, haccepted.trans h.accepted, hreleased.trans h.released⟩
    rw [hkeys]
    exact Keyspace.purge_of_none (h.absent k hk)
  | publish hpublished hlt _ hinit hnow haccepted hreleased =>
    refine .inr (.live hpublished (hnow ▸ hlt.le) ?_)
    rw [haccepted, hreleased, h.accepted, h.released]
    exact activity_of_initialized hinit (h.absent _ (by simp [voucherKeys]))
  | admitVoucher hadmitted _ _ _ =>
    have hbefore : w.redis.get (.stock v) = _ := hadmitted.stock_before
    rw [get_of_absent h.absent] at hbefore
    cases hbefore
  | release _ _ hreleasable _ _ _ _ =>
    have hstock : w.redis.get (.stock v) = _ := hreleasable.stock
    rw [get_of_absent h.absent] at hstock
    cases hstock

/-- An accepted order stays accepted. -/
theorem Phase.accepted_of_turn (h : Phase c w v) (t : Turn c w v w') {u o : LongId}
    (ho : (w.accepted v).lookup u = some o) : (w'.accepted v).lookup u = some o := by
  cases t with
  | same _ _ haccepted _ => rwa [haccepted]
  | expire _ _ haccepted _ => rwa [haccepted]
  | publish _ _ _ _ _ haccepted _ => rwa [haccepted]
  | release _ _ _ _ _ haccepted _ => rwa [haccepted]
  | @admitVoucher u' o' n x hadmitted _ haccepted _ =>
    rw [haccepted, lookup_insert_eq]
    split
    · rename_i hu
      rcases h with hun | ⟨-, -, hactivity⟩ | ⟨-, -, habsent, -⟩
      · rw [hun.accepted] at ho
        cases ho
      · rw [hu, hactivity.not_accepted hadmitted] at ho
        cases ho
      · have hbefore : w.redis.get (.stock v) = _ := hadmitted.stock_before
        rw [get_of_absent habsent] at hbefore
        cases hbefore
    · exact ho

end turns

end CampusHub.OrderFlow
