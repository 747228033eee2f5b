import CampusHub.Foundations.Runs
import CampusHub.Domain
import CampusHub.FlashSale.Scripts

/-!
# The stock of a cancelled order

* `attempt` — one call of `release-cancelled-order.lua`, cut off after some of its writes or run to
  its end.
* `Effect` — what the writes of a call may change.
* `ReleaseInv` — the invariant of an order over any sequence of calls: its marker says how often the
  stock was incremented on its behalf, or the deadline has passed.
* `release_at_most_once` — the result over all runs.

**Theorem** (`release_at_most_once`). Over any sequence of calls for any orders, each answered or cut off
after any of its writes, with keys expiring in between, the stock grows by at most one for each order, and
by exactly one once a call for it has answered `0` or `1`. Any other answer changes no key, and once a call
has left the marker `PENDING` every later call before the deadline answers `3` and changes nothing.

**Proof route.** The marker is written first and completed last, so it tells how often the stock can have
been incremented (`Marker`). One call is a cut of four writes (`exec_take`), of which the effect on the
stock and on the marker is stated once (`Effect`); the invariant of an order follows for every call, for the
calls of other orders, which touch neither its marker nor more than the stock, and for expiry, since the
markers live until the deadline (`ReleaseInv.step`).

**Left out.** The rows of the cancellation and who calls the script: see `Cancellation.Outbox`.
-/

namespace CampusHub.FlashSale.Release

open CampusHub.Redis CampusHub.Foundations CampusHub.Foundations.Guards CampusHub.Foundations.Lua
open CampusHub.Foundations.Decimal CampusHub.Foundations.Maps CampusHub.FlashSale.Scripts
open CampusHub.Domain

variable {κ : Type}

/-- The four keys of the release script, all different. -/
structure ReleaseKeys (κ : Type) where
  stock : κ
  activity : κ
  request : κ
  released : κ
  nodup : [stock, activity, request, released].Nodup

/-- The script on these keys. -/
def ReleaseKeys.script (K : ReleaseKeys κ) (deadline : String) (now : ℕ) (ks : Keyspace κ)
    (user order : String) : Plan κ ℕ :=
  releaseCancelledOrder now ks K.stock K.activity K.request K.released user order deadline

/-- The keys of the release script for a voucher. Source: `OrderCancellationReconciler.java` 75–77. -/
def releaseKeysOf (v : LongId) : ReleaseKeys Key where
  stock := .stock v
  activity := .activity v
  request := .request v
  released := .released v
  nodup := by simp

/-- The stock that a key holds. -/
def stockOf (ks : Keyspace κ) (k : κ) : ℤ := ((ks.get k).bind string2ll).getD 0

/-- The deadline is reached at time `t`. -/
def Reached (deadline : String) (t : ℕ) : Prop :=
  ∀ x, tonumber deadline = some x → x.le (.ofNat t) = true

/-- A deadline that is reached stays so. -/
theorem Reached.mono {deadline : String} {t t' : ℕ} (h : Reached deadline t) (ht : t ≤ t') :
    Reached deadline t' := by
  intro x hx
  have := h x hx
  cases x with
  | nan => exact this
  | inf s => exact this
  | fin q =>
    simp only [Number.ofNat, le_fin_fin, decide_eq_true_eq] at this ⊢
    exact this.trans (by exact_mod_cast ht)

/-! ## The checks -/

/-- What holds when the checks of a call pass. -/
structure Releasable (K : ReleaseKeys κ) (deadline : String) (now : ℕ) (ks : Keyspace κ)
    (user order : String) (n : ℕ) : Prop where
  not_reached : ¬ Reached deadline now
  expiry : string2ll deadline = none ∨
    ∃ d : ℕ, string2ll deadline = some (d : ℤ) ∧ now < d ∧ Reached deadline d
  stock_kind : ks.typeOf K.stock = .string
  released_kind : Typed ks K.released .hash
  unmarked : ks.hget K.released order = none
  accepted : ks.hget K.request user = some order
  stock : ks.get K.stock = some (decimal n)
  stock_lt : n < 2147483647

/-- The deadline text is refused by `PEXPIREAT`, or spells the time it stands for. -/
theorem expiry_of_checks {deadline : String} {now : ℕ} {x : Number}
    (hx : tonumber deadline = some x) (hfloor : x.eq x.floor = true)
    (hpos : x.lt (.ofNat 1) = false) (htext : deadline = x.format0)
    (hnow : x.le (.ofNat now) = false) :
    string2ll deadline = none ∨
      ∃ d : ℕ, string2ll deadline = some (d : ℤ) ∧ now < d ∧ Reached deadline d := by
  cases x with
  | nan => cases hfloor
  | inf s =>
    cases s
    · exact .inl (by rw [htext]; decide)
    · simp [Number.ofNat, Number.lt] at hpos
  | fin q =>
    simp only [Number.ofNat, lt_fin_fin, le_fin_fin, decide_eq_false_iff_not, not_lt,
      not_le] at hpos hnow
    have hq : (0 : ℚ) ≤ q := le_trans (by norm_num) hpos
    obtain ⟨d, hd, rfl⟩ := exists_eq_decimal hx hq htext
    rcases le_or_gt (d : ℤ) llongMax with h | h
    · refine .inr ⟨d, by rw [hd, string2ll_decimal h], by exact_mod_cast hnow, fun y hy => ?_⟩
      obtain rfl := Option.some.inj (hx.symm.trans hy)
      simp [Number.ofNat]
    · exact .inl (by rw [hd, string2ll_decimal_of_gt h])

/-- The writes of a call. -/
def writes (K : ReleaseKeys κ) (deadline user order : String) : List (Command κ) :=
  [.hset K.released [(order, "PENDING:" ++ user)], .pexpireat K.released deadline,
    .incrby K.stock 1, .hset K.released [(order, "DONE:" ++ user)]]

/-- Checks that pass lead to the four writes and the answer `0`. -/
theorem releasable_of_ok {K : ReleaseKeys κ} {deadline : String} {now : ℕ} {ks : Keyspace κ}
    {user order : String} {p : List (Command κ) × ℕ}
    (h : K.script deadline now ks user order = .ok p) :
    p = (writes K deadline user order, 0) ∧ ∃ n, Releasable K deadline now ks user order n := by
  unfold ReleaseKeys.script releaseCancelledOrder at h
  simp only [ensure_bind_eq_ok, getOr_bind_eq_ok, absentOr_bind_eq_ok] at h
  obtain ⟨x, hx, hfloor, hpos, htext, hnow, hstock, -, -, hreleased, hnone, -, haccepted, raw, hraw,
    y, hy, -, hmax, -, hrawText, hp⟩ := h
  refine ⟨(Except.ok.inj hp).symm, ?_⟩
  obtain ⟨n, -, rfl, rfl⟩ := exists_stock hy (b := 2147483647) (by norm_num)
    (lt_of_le_eq_false hmax) hrawText
  refine ⟨n, fun hr => ?_, expiry_of_checks hx hfloor hpos htext hnow, hstock, hreleased, hnone,
    haccepted, hraw, by simpa using hmax⟩
  rw [hr x hx] at hnow
  cases hnow

/-- An early answer, and what it says about the marker and the deadline. -/
theorem release_error {K : ReleaseKeys κ} {deadline : String} {now : ℕ} {ks : Keyspace κ}
    {user order : String} {o : Outcome ℕ} (h : K.script deadline now ks user order = .error o) :
    o = .answer 3 ∨ o = .answer 2 ∧ Reached deadline now ∨
      o = .answer 1 ∧ ¬ Reached deadline now ∧ ks.hget K.released order = some ("DONE:" ++ user) ∨
      o = .answer 4 ∧ ks.hget K.released order = none := by
  revert o
  change Raises _ _
  unfold ReleaseKeys.script releaseCancelledOrder
  simp only [raises_ensure_bind, raises_getOr_bind, raises_absentOr_bind, raises_ok,
    Outcome.answer.injEq, true_or, imp_true_iff, and_true, true_and]
  intro x hx _ _ _
  have hreached : x.le (.ofNat now) = true → Reached deadline now := fun hle y hy => by
    rwa [← Option.some.inj (hx.symm.trans hy)]
  refine ⟨fun hle => .inr (.inl (hreached (by simpa using hle))),
    fun hle _ _ _ _ => ⟨fun prior hprior => ?_, fun hnone _ _ => .inr (.inr (.inr hnone))⟩⟩
  have hnot : ¬ Reached deadline now := fun h => by rw [h x hx] at hle; cases hle
  by_cases hdone : prior = "DONE:" ++ user
  · simp [hdone, hnot, hprior]
  · simp [hdone]

/-! ## The writes -/

/-- **What a call may change.** The marker of its own order, the stock by `gain`, and an expiry of
the markers at the deadline. -/
structure Effect (K : ReleaseKeys κ) (deadline order : String) (ks ks' : Keyspace κ) (gain : ℤ) :
    Prop where
  frame : ∀ k, k ≠ K.stock → k ≠ K.released → ks' k = ks k
  others : ∀ o, o ≠ order → ks'.hget K.released o = ks.hget K.released o
  ttl : ∀ t, ks'.ttl K.released = some t → ks.ttl K.released = some t ∨ Reached deadline t
  stock : stockOf ks' K.stock = stockOf ks K.stock + gain

/-- The stock is not among the markers. -/
theorem ReleaseKeys.stock_ne (K : ReleaseKeys κ) : K.stock ≠ K.released := by
  have := K.nodup
  simp only [List.nodup_cons, List.mem_cons, not_or] at this
  exact this.1.2.2.1

section effect

variable {K : ReleaseKeys κ} {deadline user order : String} {now n : ℕ} {ks ks' : Keyspace κ}
  {gain : ℤ}

/-- A call may change nothing. -/
theorem Effect.refl : Effect K deadline order ks ks 0 :=
  ⟨fun _ _ _ => rfl, fun _ _ => rfl, fun _ => .inl, (add_zero _).symm⟩

variable [DecidableEq κ]

/-- A release that writes its marker after other writes. -/
theorem Effect.mark (h : Effect K deadline order ks ks' gain) (v : String) :
    Effect K deadline order ks
        (ks'.put K.released (.hash ((ks'.fields K.released).insert order v))) gain ∧
      (ks'.put K.released (.hash ((ks'.fields K.released).insert order v))).hget K.released order =
        some v := by
  refine ⟨⟨fun k hk hk' => ?_, fun o ho => ?_, fun t ht => ?_, ?_⟩, ?_⟩
  · rw [Keyspace.put_of_ne _ _ hk', h.frame k hk hk']
  · rw [← h.others o ho]
    simp [Keyspace.hget, Keyspace.fields, ho]
  · exact h.ttl t (by simpa [Keyspace.ttl] using ht)
  · rw [stockOf, Keyspace.get_congr (Keyspace.put_of_ne _ _ K.stock_ne), ← h.stock, stockOf]
  · simp [Keyspace.hget, Keyspace.fields]

/-- Putting the expiry on the markers. -/
theorem Effect.expire (h : Effect K deadline order ks ks' gain) {d : ℕ}
    (hd : Reached deadline d) :
    Effect K deadline order ks (ks'.expire K.released d) gain := by
  refine ⟨fun k hk hk' => ?_, fun o ho => ?_, fun t ht => ?_, ?_⟩
  · rw [Keyspace.expire_of_ne _ _ hk', h.frame k hk hk']
  · rw [Keyspace.hget_expire, h.others o ho]
  · rw [Keyspace.ttl, Keyspace.expire_self] at ht
    cases hk : ks' K.released with
    | none => simp [hk] at ht
    | some e =>
      rw [hk] at ht
      obtain rfl : d = t := by simpa using ht
      exact .inr hd
  · rw [stockOf, Keyspace.get_congr (Keyspace.expire_of_ne _ _ K.stock_ne), ← h.stock, stockOf]

/-- A release that gives the unit back after other writes. -/
theorem Effect.increment (h : Effect K deadline order ks ks' 0) (hn : ks'.get K.stock = some (decimal n))
    (hlt : n < 2147483647) :
    Effect K deadline order ks (ks'.put K.stock (.str (decimal (n + 1)))) 1 := by
  have hput := fun v => Keyspace.put_of_ne ks' (k := K.stock) v K.stock_ne.symm
  refine ⟨fun k hk hk' => ?_, fun o ho => ?_, fun t ht => ?_, ?_⟩
  · rw [Keyspace.put_of_ne _ _ hk, h.frame k hk hk']
  · rw [Keyspace.hget_congr (hput _), h.others o ho]
  · exact h.ttl t (by rwa [Keyspace.ttl_congr (hput _)] at ht)
  · have h0 := h.stock
    rw [stockOf, hn, Option.bind_some, string2ll_decimal (by unfold llongMax; omega),
      Option.getD_some] at h0
    rw [stockOf, Keyspace.get, Keyspace.put_self, Option.bind_some,
      string2ll_decimal (by unfold llongMax; omega), Option.getD_some]
    push_cast
    omega

/-- **A call cut off anywhere.** After none of its writes nothing has changed; after some of them the
marker is `PENDING` and the stock may have been incremented; after all of them the marker is `DONE`
and it has been incremented once. -/
theorem exec_take (hr : Releasable K deadline now ks user order n) (m : ℕ) :
    exec now ((writes K deadline user order).take m) ks = (ks, none) ∧ m = 0 ∨
    ∃ ks' err, exec now ((writes K deadline user order).take m) ks = (ks', err) ∧
      ∃ gain, Effect K deadline order ks ks' gain ∧
        (ks'.hget K.released order = some ("PENDING:" ++ user) ∧ (gain = 0 ∨ gain = 1) ∧
            (err = none → m < 4) ∨
          ks'.hget K.released order = some ("DONE:" ++ user) ∧ gain = 1) := by
  have hrefl : Effect K deadline order ks ks 0 := Effect.refl
  obtain ⟨hmark, hmarked⟩ := hrefl.mark ("PENDING:" ++ user)
  set ks1 := ks.put K.released (.hash ((ks.fields K.released).insert order ("PENDING:" ++ user)))
  have hset : apply now ks (.hset K.released [(order, "PENDING:" ++ user)]) = .ok ks1 :=
    apply_hset hr.released_kind
  have hget1 : ks1.get K.stock = some (decimal n) := by
    rw [Keyspace.get_congr (Keyspace.put_of_ne _ _ K.stock_ne), hr.stock]
  rcases m with _ | _ | m
  · exact .inl ⟨rfl, rfl⟩
  · exact .inr ⟨ks1, none, by simp only [writes, List.take, exec_cons hset, exec_nil], 0, hmark,
      .inl ⟨hmarked, .inl rfl, fun _ => by decide⟩⟩
  right
  rcases hr.expiry with hexp | ⟨d, hd, hlt, hreached⟩
  · -- `PEXPIREAT` refuses the deadline: the call ends with the marker written.
    refine ⟨ks1, some .notInteger, ?_, 0, hmark, .inl ⟨hmarked, .inl rfl, nofun⟩⟩
    simp only [writes, List.take, exec_cons hset]
    exact exec_cons_error (by simp [apply, readCounter, hexp, getOr, bind, Except.bind]) _
  have hexpire := hmark.expire hreached
  set ks2 := ks1.expire K.released d
  have happly : apply now ks1 (.pexpireat K.released deadline) = .ok ks2 :=
    apply_pexpireat hd hlt
  have hget2 : ks2.get K.stock = some (decimal n) := by
    rw [Keyspace.get_congr (Keyspace.expire_of_ne _ _ K.stock_ne), hget1]
  have hmarked2 : ks2.hget K.released order = some ("PENDING:" ++ user) := by
    rw [Keyspace.hget_expire, hmarked]
  rcases m with _ | m
  · refine ⟨ks2, none, ?_, 0, hexpire, .inl ⟨hmarked2, .inl rfl, fun _ => by decide⟩⟩
    simp only [writes, List.take, exec_cons hset, exec_cons happly, exec_nil]
  have hincr := hexpire.increment hget2 hr.stock_lt
  have hadd : apply now ks2 (.incrby K.stock 1) = .ok (ks2.put K.stock (.str (decimal (n + 1)))) := by
    have hlt := hr.stock_lt
    have hkind : ks2.typeOf K.stock = .string := by
      rw [Keyspace.typeOf_congr (Keyspace.expire_of_ne _ _ K.stock_ne),
        Keyspace.typeOf_congr (Keyspace.put_of_ne _ _ K.stock_ne), hr.stock_kind]
    rw [apply_incrby (s := decimal n) (n := n) (.inr hkind) (by rw [hget2]; rfl)
      (string2ll_decimal (by unfold llongMax; omega)) (by unfold llongMax; omega)
      (by unfold llongMax; omega), show (n : ℤ) + 1 = (n + 1 : ℕ) by push_cast; rfl,
      counterText_natCast]
  set ks3 := ks2.put K.stock (.str (decimal (n + 1)))
  have hput3 : ks3 K.released = ks2 K.released := Keyspace.put_of_ne _ _ K.stock_ne.symm
  rcases m with _ | m
  · refine ⟨ks3, none, ?_, 1, hincr, .inl ⟨?_, .inr rfl, fun _ => by decide⟩⟩
    · simp only [writes, List.take, exec_cons hset, exec_cons happly, exec_cons hadd, exec_nil]
    · rw [Keyspace.hget_congr hput3, hmarked2]
  obtain ⟨hdone, hdoneMarked⟩ := hincr.mark ("DONE:" ++ user)
  have hkind3 : Typed ks3 K.released .hash := by
    obtain ⟨t, ht⟩ := Keyspace.exists_of_hget (by rw [Keyspace.hget_congr hput3, hmarked2] :
      ks3.hget K.released order = some ("PENDING:" ++ user))
    exact .inr (by rw [Keyspace.typeOf, ht]; rfl)
  set ks4 := ks3.put K.released (.hash ((ks3.fields K.released).insert order ("DONE:" ++ user)))
  have hset3 : apply now ks3 (.hset K.released [(order, "DONE:" ++ user)]) = .ok ks4 :=
    apply_hset hkind3
  refine ⟨ks4, none, ?_, 1, hdone, .inr ⟨hdoneMarked, rfl⟩⟩
  simp only [writes, List.take, List.take_nil, exec_cons hset, exec_cons happly, exec_cons hadd,
    exec_cons hset3, exec_nil]

end effect

/-! ## A whole call -/

/-- **A release.** The stock is one higher, and the marker of the order is `DONE` until the
deadline. -/
structure Released (K : ReleaseKeys κ) (d : ℕ) (user order : String) (n : ℕ) (ks ks' : Keyspace κ) :
    Prop where
  stock : ks' K.stock = some ⟨.str (decimal (n + 1)), ks.ttl K.stock⟩
  marker : ks' K.released =
    some ⟨.hash ((ks.fields K.released).insert order ("DONE:" ++ user)), some d⟩
  frame : ∀ k, k ≠ K.stock → k ≠ K.released → ks' k = ks k

section whole

variable [DecidableEq κ] {K : ReleaseKeys κ} {user order : String} {now n d : ℕ} {ks : Keyspace κ}

/-- All writes of a call succeed when the deadline is a 64-bit one. -/
theorem exec_writes (hr : Releasable K (decimal d) now ks user order n)
    (hd : string2ll (decimal d) = some (d : ℤ)) (hlt : now < d) :
    ∃ ks', exec now (writes K (decimal d) user order) ks = (ks', none) ∧
      Released K d user order n ks ks' := by
  set ks1 := ks.put K.released (.hash ((ks.fields K.released).insert order ("PENDING:" ++ user)))
    with hks1
  set ks2 := ks1.expire K.released d with hks2
  set ks3 := ks2.put K.stock (.str (decimal (n + 1))) with hks3
  set ks4 := ks3.put K.released
    (.hash ((ks.fields K.released).insert order ("DONE:" ++ user))) with hks4
  have hmark : apply now ks (.hset K.released [(order, "PENDING:" ++ user)]) = .ok ks1 :=
    apply_hset hr.released_kind
  have hexpire : apply now ks1 (.pexpireat K.released (decimal d)) = .ok ks2 :=
    apply_pexpireat hd hlt
  have hstock : ks2 K.stock = ks K.stock := by
    rw [hks2, Keyspace.expire_of_ne _ _ K.stock_ne, hks1, Keyspace.put_of_ne _ _ K.stock_ne]
  have hadd : apply now ks2 (.incrby K.stock 1) = .ok ks3 := by
    have hn := hr.stock_lt
    rw [apply_incrby (s := decimal n) (n := n)
      (.inr ((Keyspace.typeOf_congr hstock).trans hr.stock_kind))
      (by rw [Keyspace.get_congr hstock, hr.stock]; rfl)
      (string2ll_decimal (by unfold llongMax; omega)) (by unfold llongMax; omega)
      (by unfold llongMax; omega), show (n : ℤ) + 1 = (n + 1 : ℕ) by push_cast; rfl,
      counterText_natCast]
  have hmarker : ks3 K.released =
      some ⟨.hash ((ks.fields K.released).insert order ("PENDING:" ++ user)), some d⟩ := by
    rw [hks3, Keyspace.put_of_ne _ _ K.stock_ne.symm, hks2, Keyspace.expire_self, hks1,
      Keyspace.put_self]
    rfl
  have hdone : apply now ks3 (.hset K.released [(order, "DONE:" ++ user)]) = .ok ks4 := by
    have hfields : (ks3.fields K.released).insert order ("DONE:" ++ user) =
        (ks.fields K.released).insert order ("DONE:" ++ user) := by
      rw [Keyspace.fields, hmarker]
      exact Finmap.insert_insert ..
    rw [apply_hset (.inr (by rw [Keyspace.typeOf, hmarker]; rfl)), hks4, ← hfields]
    rfl
  refine ⟨ks4, ?_, ?_, ?_, fun k hk hk' => ?_⟩
  · rw [writes, exec_cons hmark, exec_cons hexpire, exec_cons hadd, exec_cons hdone, exec_nil]
  · rw [hks4, Keyspace.put_of_ne _ _ K.stock_ne, hks3, Keyspace.put_self, Keyspace.ttl_congr hstock]
  · rw [hks4, Keyspace.put_self, Keyspace.ttl, hmarker]
    rfl
  · rw [hks4, Keyspace.put_of_ne _ _ hk', hks3, Keyspace.put_of_ne _ _ hk, hks2,
      Keyspace.expire_of_ne _ _ hk', hks1, Keyspace.put_of_ne _ _ hk']

/-- **What a whole call does**, for a deadline that a number of the script can hold: it releases the
order, or it changes nothing and does not answer `0`. -/
theorem release_cases (K : ReleaseKeys κ) (hd : d < 2 ^ 53) (now : ℕ) (ks : Keyspace κ)
    (user order : String) :
    let r := Plan.run now (K.script (decimal d) now ks user order) ks
    (r.2 = ks ∧ r.1 ≠ .answer 0) ∨
      ∃ n, Releasable K (decimal d) now ks user order n ∧ now < d ∧ r.1 = .answer 0 ∧
        Released K d user order n ks r.2 := by
  intro r
  cases h : K.script (decimal d) now ks user order with
  | error o =>
    left
    have hr : r = (o, ks) := by
      show Plan.run now _ ks = _
      rw [h]
      rfl
    rw [hr]
    refine ⟨rfl, ?_⟩
    rcases release_error h with rfl | ⟨rfl, -⟩ | ⟨rfl, -, -⟩ | ⟨rfl, -⟩ <;> nofun
  | ok p =>
    right
    obtain ⟨rfl, n, hr⟩ := releasable_of_ok h
    have htext : tonumber (decimal d) = some (.ofNat d) := tonumber_decimal hd
    have hlt : now < d := by
      by_contra hle
      refine hr.not_reached fun x hx => ?_
      rw [htext, Option.some.injEq] at hx
      rw [← hx, le_ofNat, decide_eq_true_eq]
      omega
    obtain ⟨ks', hexec, hreleased⟩ := exec_writes hr
      (string2ll_decimal (by unfold llongMax; omega)) hlt
    have hrun : r = (.answer 0, ks') := by
      show Plan.run now _ ks = _
      rw [h]
      simp only [Plan.run, hexec]
    rw [hrun]
    exact ⟨n, hr, hlt, rfl, hreleased⟩

end whole

/-! ## Runs -/

/-- What happens around the markers of an activity: a call for an order, run to its end or cut off
after some of its writes; another client's write of any other key; time going by. -/
inductive Act (κ : Type) where
  | call (user order : String) (cut : Option ℕ)
  | write (k : κ) (e : Option Entry)
  | tick (d : ℕ)

/-- The keys, the clock, and by how much the stock has grown in the calls for each order. -/
structure State (κ : Type) where
  keys : Keyspace κ
  now : ℕ
  gained : String → ℤ

/-- How often the stock was incremented for an order, as far as its marker tells. -/
def Marker (marker : Option String) (gain : ℤ) : Prop :=
  marker = none ∧ gain = 0 ∨
  (∃ user, marker = some ("PENDING:" ++ user)) ∧ (gain = 0 ∨ gain = 1) ∨
  (∃ user, marker = some ("DONE:" ++ user)) ∧ gain = 1

/-- **The invariant of an order.** -/
structure ReleaseInv (K : ReleaseKeys κ) (deadline order : String) (s : State κ) : Prop where
  ttl : ∀ t, s.keys.ttl K.released = some t → Reached deadline t
  marked : Marker (s.keys.hget K.released order) (s.gained order) ∨
    Reached deadline s.now ∧ (s.gained order = 0 ∨ s.gained order = 1)

/-- A marker is `PENDING` or `DONE`, never both. -/
theorem pending_ne_done (u v : String) : "PENDING:" ++ u ≠ "DONE:" ++ v := by
  intro h
  have := congrArg String.toList h
  simp at this

/-- Before the deadline the markers have not expired. -/
theorem purge_released {K : ReleaseKeys κ} {deadline : String} {keys : Keyspace κ} {now : ℕ}
    (httl : ∀ t, keys.ttl K.released = some t → Reached deadline t)
    (hnow : ¬ Reached deadline now) : keys.purge now K.released = keys K.released := by
  cases hk : keys K.released with
  | none => exact Keyspace.purge_of_none hk
  | some e =>
    rcases e with ⟨v, _ | t⟩
    · rw [Keyspace.purge_of_persistent (by simp [Keyspace.ttl, hk]), hk]
    · have hr := httl t (by simp [Keyspace.ttl, hk])
      exact Keyspace.purge_of_le hk (by
        by_contra hlt
        exact hnow (hr.mono (by omega)))

/-- Without a marker the stock was never incremented for the order. -/
theorem Marker.of_none {gain : ℤ} (h : Marker none gain) : gain = 0 := by
  rcases h with ⟨-, h⟩ | ⟨⟨u, h⟩, -⟩ | ⟨⟨u, h⟩, -⟩
  · exact h
  · cases h
  · cases h

/-- With the marker `DONE` it was incremented once. -/
theorem Marker.of_done {gain : ℤ} {user : String} (h : Marker (some ("DONE:" ++ user)) gain) :
    gain = 1 := by
  rcases h with ⟨h, -⟩ | ⟨⟨u, h⟩, -⟩ | ⟨-, h⟩
  · cases h
  · exact absurd (Option.some.inj h).symm (pending_ne_done u user)
  · exact h

/-- It was incremented once or never, whatever the marker. -/
theorem Marker.zero_or_one {marker : Option String} {gain : ℤ} (h : Marker marker gain) :
    gain = 0 ∨ gain = 1 := by
  rcases h with ⟨-, h⟩ | ⟨-, h⟩ | ⟨-, h⟩
  · exact .inl h
  · exact h
  · exact .inr h

/-- Expiry keeps the invariant: the marker stays, or the deadline has passed. -/
theorem ReleaseInv.purge {K : ReleaseKeys κ} {deadline order : String} {s : State κ}
    (hI : ReleaseInv K deadline order s) :
    ReleaseInv K deadline order { s with keys := s.keys.purge s.now } := by
  refine ⟨fun t ht => hI.ttl t (Keyspace.ttl_of_purge ht), ?_⟩
  by_cases hnow : Reached deadline s.now
  · exact .inr ⟨hnow, hI.marked.elim Marker.zero_or_one And.right⟩
  · simpa only [Keyspace.hget_congr (purge_released hI.ttl hnow)] using hI.marked

/-- A call of the order was cut off in the middle, or the deadline has passed. -/
structure Stuck (K : ReleaseKeys κ) (deadline order : String) (s : State κ) : Prop where
  ttl : ∀ t, s.keys.ttl K.released = some t → Reached deadline t
  marked : (∃ user, s.keys.hget K.released order = some ("PENDING:" ++ user)) ∨
    Reached deadline s.now

/-- Expiry keeps an order stuck. -/
theorem Stuck.purge {K : ReleaseKeys κ} {deadline order : String} {s : State κ}
    (hs : Stuck K deadline order s) :
    Stuck K deadline order { s with keys := s.keys.purge s.now } := by
  refine ⟨fun t ht => hs.ttl t (Keyspace.ttl_of_purge ht), ?_⟩
  by_cases hnow : Reached deadline s.now
  · exact .inr hnow
  · simpa only [Keyspace.hget_congr (purge_released hs.ttl hnow)] using hs.marked

variable [DecidableEq κ]

/-- A call of the script at time `now`: what it answers, if anybody hears it, and the keys after
it. -/
def attempt (K : ReleaseKeys κ) (deadline : String) (now : ℕ) (keys : Keyspace κ)
    (user order : String) : Option ℕ → Option (Outcome ℕ) × Keyspace κ
  | none =>
    let (o, ks) := Plan.run now (K.script deadline now (keys.purge now) user order) (keys.purge now)
    (some o, ks)
  | some m =>
    (none, Plan.cut m now (K.script deadline now (keys.purge now) user order) (keys.purge now))

/-- The next state. -/
def step (K : ReleaseKeys κ) (deadline : String) (s : State κ) : Act κ → State κ
  | .call user order cut =>
    let keys := (attempt K deadline s.now s.keys user order cut).2
    { s with
      keys := keys
      gained := Function.update s.gained order
        (s.gained order + (stockOf keys K.stock - stockOf (s.keys.purge s.now) K.stock)) }
  | .write k e => if k = K.released then s else { s with keys := s.keys.replace k e }
  | .tick d => { s with now := s.now + d }

section run

variable {K : ReleaseKeys κ} {deadline order : String} {s : State κ}

/-- **What a call can do**: an early answer over unchanged keys, or some of its writes. -/
theorem attempt_cases (K : ReleaseKeys κ) (deadline : String) (now : ℕ) (keys : Keyspace κ)
    (user order : String) (cut : Option ℕ) :
    (∃ o, K.script deadline now (keys.purge now) user order = .error o ∧
      (attempt K deadline now keys user order cut).2 = keys.purge now ∧
      ∀ o', (attempt K deadline now keys user order cut).1 = some o' → o' = o) ∨
    ∃ n m ks' err, Releasable K deadline now (keys.purge now) user order n ∧
      exec now ((writes K deadline user order).take m) (keys.purge now) = (ks', err) ∧
      (attempt K deadline now keys user order cut).2 = ks' ∧
      ∀ r, (attempt K deadline now keys user order cut).1 = some (.answer r) →
        r = 0 ∧ m = 4 ∧ err = none := by
  cases h : K.script deadline now (keys.purge now) user order with
  | error o =>
    left
    refine ⟨o, rfl, ?_⟩
    cases cut with
    | none => simp [attempt, h, Plan.run]
    | some m => simp [attempt, h, Plan.cut]
  | ok p =>
    right
    obtain ⟨rfl, n, hr⟩ := releasable_of_ok h
    cases cut with
    | none =>
      cases he : exec now (writes K deadline user order) (keys.purge now) with
      | mk ks' err =>
        refine ⟨n, 4, ks', err, hr, he, ?_⟩
        cases err <;> simp [attempt, h, Plan.run, he, eq_comm]
    | some m => exact ⟨n, m, _, _, hr, rfl, by simp [attempt, h, Plan.cut]⟩

section attempt

variable {now : ℕ} {keys : Keyspace κ} {user : String} {cut : Option ℕ}

/-- A call changes no key but the stock and the markers. -/
theorem attempt_frame {k : κ} (h1 : k ≠ K.stock) (h2 : k ≠ K.released) :
    (attempt K deadline now keys user order cut).2 k = keys.purge now k := by
  rcases attempt_cases K deadline now keys user order cut with
    ⟨o, -, hkeys, -⟩ | ⟨n, m, ks', err, hr, hexec, hkeys, -⟩
  · rw [hkeys]
  · rw [hkeys]
    rcases exec_take hr m with ⟨hnone, -⟩ | ⟨ks'', err', hsome, gain, heff, -⟩
    · rw [hexec, Prod.mk.injEq] at hnone
      rw [hnone.1]
    · rw [hexec, Prod.mk.injEq] at hsome
      obtain ⟨rfl, rfl⟩ := hsome
      exact heff.frame k h1 h2

/-- A call that answers anything but `0` changes no key. -/
theorem attempt_unchanged {c : ℕ} (hc : c ≠ 0)
    (h : (attempt K deadline now keys user order cut).1 = some (.answer c)) :
    (attempt K deadline now keys user order cut).2 = keys.purge now := by
  rcases attempt_cases K deadline now keys user order cut with
    ⟨o, -, hkeys, -⟩ | ⟨n, m, ks', err, -, -, -, hanswer⟩
  · exact hkeys
  · exact absurd (hanswer c h).1 hc

/-- A call that answers `0` or `1` leaves the marker `DONE`, before the deadline. -/
theorem attempt_done
    (h : (attempt K deadline now keys user order cut).1 = some (.answer 0) ∨
      (attempt K deadline now keys user order cut).1 = some (.answer 1)) :
    (attempt K deadline now keys user order cut).2.hget K.released order = some ("DONE:" ++ user) ∧
      ¬ Reached deadline now := by
  rcases attempt_cases K deadline now keys user order cut with
    ⟨o, ho, hkeys, hanswer⟩ | ⟨n, m, ks', err, hr, hexec, hkeys, hanswer⟩
  · -- An early answer `1`: the marker says so already.
    rw [hkeys]
    rcases h with h | h
    · rcases release_error ho with rfl | ⟨rfl, -⟩ | ⟨rfl, -⟩ | ⟨rfl, -⟩ <;> cases hanswer _ h
    · rcases release_error ho with rfl | ⟨rfl, -⟩ | ⟨rfl, hnow, hprior⟩ | ⟨rfl, -⟩
      · cases hanswer _ h
      · cases hanswer _ h
      · exact ⟨hprior, hnow⟩
      · cases hanswer _ h
  · -- The answer `0`: all the writes were made.
    rw [hkeys]
    obtain ⟨rfl, herr⟩ : m = 4 ∧ err = none := h.elim (fun h => (hanswer _ h).2) fun h =>
      (hanswer _ h).2
    rcases exec_take hr 4 with ⟨-, hzero⟩ | ⟨ks'', err', hsome, gain, -, hmark⟩
    · cases hzero
    · rw [hexec, Prod.mk.injEq] at hsome
      obtain ⟨rfl, rfl⟩ := hsome
      rcases hmark with ⟨-, -, hlt⟩ | ⟨hv, -⟩
      · exact absurd (hlt herr) (lt_irrefl 4)
      · exact ⟨hv, hr.not_reached⟩

end attempt

/-- **A call keeps the invariant of every order.** -/
theorem ReleaseInv.call (hI : ReleaseInv K deadline order s) (user called : String)
    (cut : Option ℕ) : ReleaseInv K deadline order (step K deadline s (.call user called cut)) := by
  have hp := hI.purge
  rcases attempt_cases K deadline s.now s.keys user called cut with
    ⟨o, -, hkeys, -⟩ | ⟨n, m, ks', err, hr, hexec, hkeys, -⟩
  · have hgain : Function.update s.gained called (s.gained called + 0) order = s.gained order := by
      rw [add_zero, Function.update_eq_self]
    refine ⟨?_, ?_⟩
    · simpa only [step, hkeys] using hp.ttl
    · simpa only [step, hkeys, sub_self, hgain] using hp.marked
  · have hmarked := hp.marked.resolve_right fun h => hr.not_reached h.1
    rcases exec_take hr m with ⟨hnone, -⟩ | ⟨ks'', err', hsome, gain, heff, hmark⟩
    · rw [hexec, Prod.mk.injEq] at hnone
      obtain ⟨rfl, -⟩ := hnone
      have hgain : Function.update s.gained called (s.gained called + 0) order = s.gained order := by
        rw [add_zero, Function.update_eq_self]
      refine ⟨?_, .inl ?_⟩
      · simpa only [step, hkeys] using hp.ttl
      · simpa only [step, hkeys, sub_self, hgain] using hmarked
    · rw [hexec, Prod.mk.injEq] at hsome
      obtain ⟨rfl, rfl⟩ := hsome
      have hdelta : stockOf ks' K.stock - stockOf (s.keys.purge s.now) K.stock = gain := by
        rw [heff.stock]; ring
      refine ⟨fun t ht => ?_, .inl ?_⟩
      · simp only [step, hkeys] at ht
        exact (heff.ttl t ht).elim (hp.ttl t) id
      · simp only [step, hkeys, hdelta]
        by_cases ho : order = called
        · subst ho
          have hzero : s.gained order = 0 := by
            have := hr.unmarked
            rw [this] at hmarked
            exact hmarked.of_none
          rw [Function.update_self, hzero, zero_add]
          rcases hmark with ⟨hv, hg, -⟩ | ⟨hv, hg⟩
          · exact .inr (.inl ⟨⟨user, hv⟩, hg⟩)
          · exact .inr (.inr ⟨⟨user, hv⟩, hg⟩)
        · rw [Function.update_of_ne ho, heff.others order ho]
          exact hmarked

/-- **Every step keeps the invariant.** -/
theorem ReleaseInv.step (hI : ReleaseInv K deadline order s) (a : Act κ) :
    ReleaseInv K deadline order (step K deadline s a) := by
  cases a with
  | call user called cut => exact hI.call user called cut
  | write k e =>
    by_cases hk : k = K.released
    · simpa only [Release.step, hk, if_true] using hI
    · have hslot := Keyspace.replace_of_ne s.keys e (Ne.symm hk)
      simp only [Release.step, hk, if_false]
      refine ⟨fun t ht => hI.ttl t ?_, ?_⟩
      · rwa [Keyspace.ttl_congr hslot] at ht
      · simpa only [Keyspace.hget_congr hslot] using hI.marked
  | tick d =>
    refine ⟨hI.ttl, hI.marked.imp_right fun h => ⟨h.1.mono ?_, h.2⟩⟩
    exact Nat.le_add_right _ _

/-- A stuck order keeps its marker, or the deadline has passed: before that a call answers `3` over
unchanged keys. -/
theorem Stuck.attempt (hs : Stuck K deadline order s) (hnow : ¬ Reached deadline s.now)
    (user : String) (cut : Option ℕ) :
    (attempt K deadline s.now s.keys user order cut).2 = s.keys.purge s.now ∧
      ∀ o, (attempt K deadline s.now s.keys user order cut).1 = some o → o = .answer 3 := by
  obtain ⟨u, hu⟩ := hs.marked.resolve_right hnow
  rw [← Keyspace.hget_congr (purge_released hs.ttl hnow)] at hu
  rcases attempt_cases K deadline s.now s.keys user order cut with
    ⟨o, ho, hkeys, hanswer⟩ | ⟨n, m, ks', err, hr, -⟩
  · refine ⟨hkeys, fun o' ho' => ?_⟩
    rw [hanswer o' ho']
    rcases release_error ho with h | ⟨-, h⟩ | ⟨-, -, h⟩ | ⟨-, h⟩
    · exact h
    · exact absurd h hnow
    · rw [hu, Option.some.injEq] at h
      exact absurd h (pending_ne_done u user)
    · rw [hu] at h
      cases h
  · rw [hr.unmarked] at hu
    cases hu

/-- **A stuck order stays stuck.** -/
theorem Stuck.step (hs : Stuck K deadline order s) (a : Act κ) :
    Stuck K deadline order (step K deadline s a) := by
  cases a with
  | call user called cut =>
    have hp := hs.purge
    rcases attempt_cases K deadline s.now s.keys user called cut with
      ⟨o, -, hkeys, -⟩ | ⟨n, m, ks', err, hr, hexec, hkeys, -⟩
    · refine ⟨?_, ?_⟩
      · simpa only [Release.step, hkeys] using hp.ttl
      · simpa only [Release.step, hkeys] using hp.marked
    · obtain ⟨u, hu⟩ := hp.marked.resolve_right hr.not_reached
      have hother : order ≠ called := by
        rintro rfl
        rw [hr.unmarked] at hu
        cases hu
      rcases exec_take hr m with ⟨hnone, -⟩ | ⟨ks'', err', hsome, gain, heff, -⟩
      · rw [hexec, Prod.mk.injEq] at hnone
        refine ⟨?_, .inl ⟨u, ?_⟩⟩
        · simpa only [Release.step, hkeys, hnone.1] using hp.ttl
        · simpa only [Release.step, hkeys, hnone.1] using hu
      · rw [hexec, Prod.mk.injEq] at hsome
        obtain ⟨rfl, rfl⟩ := hsome
        refine ⟨fun t ht => ?_, .inl ⟨u, ?_⟩⟩
        · simp only [Release.step, hkeys] at ht
          exact (heff.ttl t ht).elim (hp.ttl t) id
        · simpa only [Release.step, hkeys, heff.others order hother] using hu
  | write k e =>
    by_cases hk : k = K.released
    · simpa only [Release.step, hk, if_true] using hs
    · have hslot := Keyspace.replace_of_ne s.keys e (Ne.symm hk)
      simp only [Release.step, hk, if_false]
      refine ⟨fun t ht => hs.ttl t ?_, ?_⟩
      · rwa [Keyspace.ttl_congr hslot] at ht
      · simpa only [Keyspace.hget_congr hslot] using hs.marked
  | tick d => exact ⟨hs.ttl, hs.marked.imp_right fun h => h.mono (Nat.le_add_right _ _)⟩

end run

/-- **Cancellation gives stock back at most once.** From any keys without a marker for the order, and
no expiry on the markers before the deadline, whatever calls for whatever orders come, cut off
wherever, with other clients writing the other keys and time going by:

* the calls for the order have incremented the stock by `0` or `1` together, and by `1` once a call
  answers `0` or `1`;
* a call that answers anything but `0` changes no key, and none changes the accepted requests or the
  metadata;
* once a call left the marker `PENDING`, every later call before the deadline answers `3` and changes
  nothing. -/
theorem release_at_most_once (K : ReleaseKeys κ) (deadline order : String) (keys₀ : Keyspace κ)
    (now₀ : ℕ) (hmarker : keys₀.hget K.released order = none)
    (httl : ∀ t, keys₀.ttl K.released = some t → Reached deadline t) (as : List (Act κ)) :
    let s := Runs.run (step K deadline) ⟨keys₀, now₀, fun _ => 0⟩ as
    (s.gained order = 0 ∨ s.gained order = 1) ∧
    ∀ user cut,
      let r := attempt K deadline s.now s.keys user order cut
      let s' := step K deadline s (.call user order cut)
      (r.1 = some (.answer 0) ∨ r.1 = some (.answer 1) → s'.gained order = 1) ∧
      (∀ c ≠ 0, r.1 = some (.answer c) → r.2 = s.keys.purge s.now) ∧
      r.2 K.request = s.keys.purge s.now K.request ∧
      r.2 K.activity = s.keys.purge s.now K.activity ∧
      ((∃ u, r.2.hget K.released order = some ("PENDING:" ++ u)) → ∀ bs,
        let t := Runs.run (step K deadline) s' bs
        ¬ Reached deadline t.now → ∀ user',
          attempt K deadline t.now t.keys user' order none =
            (some (.answer 3), t.keys.purge t.now) ∧
          ∀ m, attempt K deadline t.now t.keys user' order (some m) =
            (none, t.keys.purge t.now)) := by
  intro s
  have hI : ReleaseInv K deadline order s :=
    Runs.run_invariant (step K deadline) (I := ReleaseInv K deadline order)
      (fun s a h => h.step a) as ⟨httl, .inl (.inl ⟨hmarker, rfl⟩)⟩
  refine ⟨hI.marked.elim Marker.zero_or_one And.right, ?_⟩
  intro user cut r s'
  have hI' : ReleaseInv K deadline order s' := hI.step (.call user order cut)
  have hne := K.nodup
  simp only [List.nodup_cons, List.mem_cons, List.not_mem_nil, or_false, not_or] at hne
  obtain ⟨⟨h12, h13, -⟩, ⟨-, h24⟩, h34, -⟩ := hne
  refine ⟨fun h => ?_, fun c hc h => attempt_unchanged hc h,
    attempt_frame (Ne.symm h13) h34, attempt_frame (Ne.symm h12) h24, ?_⟩
  · obtain ⟨hv, hnow⟩ := attempt_done h
    have hm := hI'.marked.resolve_right fun h => hnow h.1
    rw [show s'.keys.hget K.released order = _ from hv] at hm
    exact hm.of_done
  · rintro ⟨u, hu⟩ bs t hnow user'
    have hs : Stuck K deadline order t :=
      Runs.run_invariant (step K deadline) (I := Stuck K deadline order) (fun s a h => h.step a) bs
        ⟨hI'.ttl, .inl ⟨u, hu⟩⟩
    refine ⟨?_, fun m => ?_⟩
    · obtain ⟨hkeys, hanswer⟩ := hs.attempt hnow user' none
      exact Prod.ext (congrArg some (hanswer _ rfl)) hkeys
    · exact Prod.ext rfl (hs.attempt hnow user' (some m)).1

/-- Voucher `1` with one order `7` of user `5`, sold out. -/
def soldOut : Keyspace Key
  | .stock _ => some ⟨.str "0", some 86402000⟩
  | .activity _ => some ⟨.hash (writeFields ∅ [("expireAt", "86402000")]), some 86402000⟩
  | .request _ => some ⟨.hash (writeFields ∅ [("5", "7")]), some 86402000⟩
  | _ => none

/-- A call that is cut off after three writes and a second call give back at most one unit. -/
theorem soldOut_released_at_most_once :
    let K := releaseKeysOf ⟨1, by decide, by decide⟩
    let s := Runs.run (step K "86402000") ⟨soldOut, 1000, fun _ => 0⟩
      [.call "5" "7" (some 3), .tick 5000, .call "5" "7" none]
    s.gained "7" = 0 ∨ s.gained "7" = 1 :=
  (release_at_most_once (releaseKeysOf ⟨1, by decide, by decide⟩) "86402000" "7" soldOut 1000 rfl
    (fun _ h => by cases h) _).1

end CampusHub.FlashSale.Release
