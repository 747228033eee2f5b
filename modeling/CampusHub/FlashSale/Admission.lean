import CampusHub.Foundations.Runs
import CampusHub.FlashSale.Initialization

/-!
# Admission is all or nothing

* `Admitted` — what an accepted call of `seckill.lua` finds and leaves behind.
* `AllOrNothing` — a call leaves exactly an admission, or unchanged keys and another answer.
* `History`, `visit` — any sequence of calls by any users, of expiry and of time.
* `Sound` — the invariant of a history; `Sound.visit` keeps it.
* `admission_all_or_nothing_and_stable` — the result, and `admission_not_all_or_nothing` its limit.

**Theorem.** For every content of the five keys and all arguments a call accepts its order with all five
writes or changes nothing, provided that the end of the activity leads to a 64-bit deadline; over any
sequence of calls the stock never goes below zero, no user is accepted twice, and a call that is repeated is
answered with the order that was accepted, before any other answer.

The first part unfolds the script once (`seckill_admits`) and shows that after its checks none of its writes
can be refused. Only `PEXPIREAT` could be, with a deadline past 64 bits, and it comes after the other
writes: the counterexample is an activity that ends one day before the last 64-bit millisecond. The second
part is an induction over the history with the invariant that relates the keys to the accepted orders.

**Left out.** Who may take part: the service checks that before the script, see `OrderFlow.Admissions`.
-/

namespace CampusHub.FlashSale.Admission

open CampusHub.Redis CampusHub.Foundations.Guards CampusHub.Foundations.Lua
open CampusHub.Foundations.Decimal CampusHub.Foundations.Maps CampusHub.FlashSale.Scripts
open CampusHub.FlashSale.Initialization CampusHub.Foundations CampusHub.Domain

variable {κ : Type}

/-- **The end time leads to a 64-bit deadline.** Its number plus the retention of one day is not
`2^63` or more. -/
def DeadlineFits (endText : String) : Prop :=
  ∀ e, tonumber endText = some e → (Number.ofNat (2 ^ 63)).le (e.add (.ofNat 86400000)) = false

/-- The end time of the call is the one of the activity, and leads to a deadline past 64 bits. -/
def DeadlineOverflows (K : AdmissionKeys κ) (ks : Keyspace κ) (args : List String) : Prop :=
  ∃ endText, args[5]? = some endText ∧ ks.hget K.activity "endAt" = some endText ∧
    ¬ DeadlineFits endText

/-- **An admission.** What an accepted call finds and leaves behind: one unit of stock less, one
participant more, the order recorded under the user, and one entry more in the stream. -/
structure Admitted (K : AdmissionKeys κ) (now : ℕ) (user order voucher : String) (n expireAt : ℕ)
    (ks ks' : Keyspace κ) : Prop where
  stock_before : ks.get K.stock = some (decimal (n + 1))
  stock_le : n + 1 ≤ 2147483647
  not_participant : user ∉ ks.members K.participants
  no_request : ks.hget K.request user = none
  deadline : ks.hget K.activity "expireAt" = some (decimal expireAt)
  now_lt : now < expireAt
  stock : ks' K.stock = some ⟨.str (decimal n), some expireAt⟩
  participants : ks' K.participants =
    some ⟨.set (insert user (ks.members K.participants)), some expireAt⟩
  activity : ks' K.activity = some ⟨.hash (ks.fields K.activity), some expireAt⟩
  request : ks' K.request =
    some ⟨.hash ((ks.fields K.request).insert user order), some expireAt⟩
  stream : ∃ id s, (ks.stream K.stream).append now
      [("userId", user), ("voucherId", voucher), ("id", order)] = some (id, s) ∧
    ks' K.stream = some ⟨.stream s, ks.ttl K.stream⟩
  frame : ∀ k, k ∉ K.list → ks' k = ks k

/-- An early answer is never the code of an acceptance. -/
theorem seckill_raises (now : ℕ) (appended : Bool) (ks : Keyspace κ) (keys : List κ)
    (args : List String) :
    Raises (fun o => ∃ r : Reply, o = .answer r ∧ r.code ≠ 0)
      (seckill now appended ks keys args) := by
  unfold seckill
  split
  · simp only [reject, raises_ensure_bind, raises_getOr_bind, raises_absentOr_bind, raises_ok,
      Outcome.answer.injEq, exists_eq_left']
    simp
  · simp [reject]

/-! ## Histories of an activity -/

/-- What happens to an activity: a call of the admission script at a Redis time, or any other
client's move of the shared stream. -/
inductive Visit where
  | call (now : ℕ) (appended : Bool) (args : List String)
  | shared (s : EventStream)

/-- The keys, and the pairs of user and order for which a call answered `0` so far. -/
structure History (κ : Type) where
  keys : Keyspace κ
  accepted : List (String × String)

/-- The activity is gone, with everything accepted before. -/
structure Closed (K : AdmissionKeys κ) (stock : ℕ) (keys : Keyspace κ)
    (accepted : List (String × String)) : Prop where
  absent : Absent K keys
  le_stock : accepted.length ≤ stock
  users_nodup : (accepted.map Prod.fst).Nodup

/-- The activity is there: what was accepted is recorded under the users, and stock and accepted
orders together are the initial stock. -/
structure Open (K : AdmissionKeys κ) (stock beginMillis endMillis expireAt : ℕ) (keys : Keyspace κ)
    (accepted : List (String × String)) :
    Prop where
  stock : ∃ n, keys K.stock = some ⟨.str (decimal n), some expireAt⟩ ∧
    n + accepted.length = stock
  activity : keys K.activity =
    some ⟨.hash (writeFields ∅ (metadata beginMillis endMillis expireAt)), some expireAt⟩
  request : keys K.request = none ∨ ∃ fs, keys K.request = some ⟨.hash fs, some expireAt⟩
  participants : keys K.participants = none ∨
    ∃ ms, keys K.participants = some ⟨.set ms, some expireAt⟩
  recorded : ∀ user order, keys.hget K.request user = some order ↔ (user, order) ∈ accepted
  users_nodup : (accepted.map Prod.fst).Nodup

/-- **The invariant of a history**: the activity before or after its keys expired, and a stream to
append to once something was accepted. -/
structure Sound (K : AdmissionKeys κ) (stock b e x : ℕ) (keys : Keyspace κ)
    (accepted : List (String × String)) : Prop where
  state : Open K stock b e x keys accepted ∨ Closed K stock keys accepted
  stream : accepted = [] ∨ Typed keys K.stream .stream

section sound

variable {K : AdmissionKeys κ} {N b e x : ℕ} {keys : Keyspace κ}
  {accepted : List (String × String)}

/-- No more orders are accepted than there was stock. -/
theorem Open.le_stock (ho : Open K N b e x keys accepted) : accepted.length ≤ N := by
  obtain ⟨n, -, hn⟩ := ho.stock
  omega

/-- The metadata of an open activity have its end. -/
theorem Open.endAt (ho : Open K N b e x keys accepted) : keys.hget K.activity "endAt" = some (decimal e) := by
  simp [Keyspace.hget, Keyspace.fields, ho.activity, writeFields, metadata]

/-- The metadata of an open activity have its deadline. -/
theorem Open.deadline (ho : Open K N b e x keys accepted) :
    keys.hget K.activity "expireAt" = some (decimal x) := by
  simp [Keyspace.hget, Keyspace.fields, ho.activity, writeFields, metadata]

/-- Expiry keeps the type of a key, or takes the key. -/
theorem typed_purge (now : ℕ) {k : κ} {kind : Kind} (h : Typed keys k kind) :
    Typed (keys.purge now) k kind := by
  unfold Typed Keyspace.typeOf Keyspace.purge at *
  cases hk : keys k with
  | none => simp [Option.filter]
  | some e =>
    rw [hk] at h
    by_cases ha : e.alive now = true
    · simpa [Option.filter, ha] using h
    · simp [Option.filter, ha]

/-- Expiry either leaves the activity as it is or takes all of it. -/
theorem Sound.purge (hs : Sound K N b e x keys accepted) (now : ℕ) :
    Sound K N b e x (keys.purge now) accepted := by
  refine ⟨?_, hs.stream.imp_right (typed_purge now)⟩
  rcases hs.state with ho | hc
  · rcases le_or_gt now x with hle | hlt
    · left
      obtain ⟨n, hstock, hn⟩ := ho.stock
      have hrequest : keys.purge now K.request = keys K.request := by
        rcases ho.request with hr | ⟨fs, hr⟩
        · rw [Keyspace.purge_of_none hr, hr]
        · rw [Keyspace.purge_of_le hr hle, hr]
      refine ⟨⟨n, Keyspace.purge_of_le hstock hle, hn⟩, Keyspace.purge_of_le ho.activity hle, ?_, ?_,
        fun user order => ?_, ho.users_nodup⟩
      · simpa only [hrequest] using ho.request
      · rcases ho.participants with hp | ⟨ms, hp⟩
        · exact .inl (Keyspace.purge_of_none hp)
        · exact .inr ⟨ms, Keyspace.purge_of_le hp hle⟩
      · simpa only [Keyspace.hget_congr hrequest] using ho.recorded user order
    · right
      obtain ⟨n, hstock, -⟩ := ho.stock
      refine ⟨?_, ho.le_stock, ho.users_nodup⟩
      simp only [Absent, AdmissionKeys.activityKeys, List.forall_mem_cons, List.not_mem_nil,
        false_imp_iff, implies_true, and_true]
      refine ⟨Keyspace.purge_of_lt hstock hlt, ?_, Keyspace.purge_of_lt ho.activity hlt, ?_⟩
      · rcases ho.participants with hp | ⟨ms, hp⟩
        · exact Keyspace.purge_of_none hp
        · exact Keyspace.purge_of_lt hp hlt
      · rcases ho.request with hr | ⟨fs, hr⟩
        · exact Keyspace.purge_of_none hr
        · exact Keyspace.purge_of_lt hr hlt
  · exact .inr ⟨fun k hk => Keyspace.purge_of_none (hc.absent k hk), hc.le_stock, hc.users_nodup⟩

/-- An admission keeps the activity open, with one order more. -/
theorem Open.accept (ho : Open K N b e x keys accepted) {now n expireAt : ℕ} {user order voucher : String}
    {ks' : Keyspace κ} (hadm : Admitted K now user order voucher n expireAt keys ks') :
    Open K N b e x ks' (accepted ++ [(user, order)]) := by
  obtain ⟨m, hm, hmN⟩ := ho.stock
  have hmn : m = n + 1 := by
    have := hadm.stock_before
    rw [Keyspace.get, hm, Option.some.injEq, decimal_inj] at this
    exact this
  have hx : expireAt = x := by
    have := hadm.deadline
    rw [ho.deadline, Option.some.injEq, decimal_inj] at this
    exact this.symm
  subst hx
  have hnew : ∀ order', (user, order') ∉ accepted := fun order' hmem => by
    have := (ho.recorded user order').mpr hmem
    rw [hadm.no_request] at this
    cases this
  have hfields : ks'.fields K.request = (keys.fields K.request).insert user order := by
    rw [Keyspace.fields, hadm.request]
  have hmeta : keys.fields K.activity = writeFields ∅ (metadata b e expireAt) := by
    rw [Keyspace.fields, ho.activity]
  refine ⟨⟨n, hadm.stock, ?_⟩, hmeta ▸ hadm.activity, .inr ⟨_, hadm.request⟩,
    .inr ⟨_, hadm.participants⟩, fun user' order' => ?_, ?_⟩
  · rw [List.length_append, List.length_singleton]
    omega
  · rw [Keyspace.hget, hfields, lookup_insert_eq, List.mem_append, List.mem_singleton,
      Prod.mk.injEq]
    split
    · rename_i hu
      subst hu
      simp [hnew, eq_comm]
    · rename_i hu
      rw [← Keyspace.hget, ho.recorded user' order']
      simp [hu]
  · rw [List.map_append, List.map_singleton, List.nodup_append]
    refine ⟨ho.users_nodup, List.nodup_singleton _, fun u hu u' hu' => ?_⟩
    rw [List.mem_singleton] at hu'
    subst hu'
    obtain ⟨⟨u'', o⟩, hmem, rfl⟩ := List.mem_map.mp hu
    rintro rfl
    exact hnew o hmem

/-- A new activity is sound, with nothing accepted. -/
theorem sound_of_initialized {ks ks' : Keyspace κ} (hi : Initialized K N b e x ks ks') :
    Sound K N b e x ks' [] := by
  refine ⟨.inl ?_, .inl rfl⟩
  refine ⟨⟨N, hi.stock, by simp⟩, hi.activity, .inl hi.request, .inl hi.participants,
    fun user order => ?_, List.nodup_nil⟩
  simp [Keyspace.hget, Keyspace.fields, hi.request]

/-- No more orders are accepted than there was stock. -/
theorem Sound.le_stock (hs : Sound K N b e x keys accepted) : accepted.length ≤ N :=
  hs.state.elim Open.le_stock Closed.le_stock

/-- No user is accepted twice. -/
theorem Sound.users_nodup (hs : Sound K N b e x keys accepted) :
    (accepted.map Prod.fst).Nodup :=
  hs.state.elim Open.users_nodup Closed.users_nodup

/-- The stock is never negative and never above the initial one. -/
theorem Sound.stock_le (hs : Sound K N b e x keys accepted) {raw : String}
    (hraw : keys.get K.stock = some raw) : ∃ n ≤ N, raw = decimal n := by
  rcases hs.state with ho | hc
  · obtain ⟨n, hn, hN⟩ := ho.stock
    rw [Keyspace.get, hn, Option.some.injEq] at hraw
    exact ⟨n, by omega, hraw.symm⟩
  · rw [Keyspace.get, hc.absent _ (by simp [AdmissionKeys.activityKeys])] at hraw
    cases hraw

end sound

variable [DecidableEq κ]

/-! ## One call -/

/-- The writes of an admission, after checks that passed, all succeed. -/
theorem exec_admission {K : AdmissionKeys κ} {now n expireAt : ℕ} {ks : Keyspace κ}
    {user order voucher : String} {id : StreamId} {s : EventStream}
    (hstock : Typed ks K.stock .string) (hparticipants : Typed ks K.participants .set)
    (hrequest : Typed ks K.request .hash) (hstream : Typed ks K.stream .stream)
    (hraw : ks.get K.stock = some (decimal (n + 1))) (hn : n + 1 ≤ 2147483647)
    (hactivity : (ks.fields K.activity).lookup "expireAt" = some (decimal expireAt))
    (hnow : now < expireAt) (hmax : (expireAt : ℤ) ≤ llongMax)
    (hs : (ks.stream K.stream).append now
      [("userId", user), ("voucherId", voucher), ("id", order)] = some (id, s)) :
    ∃ ks', exec now [.xadd K.stream [("userId", user), ("voucherId", voucher), ("id", order)],
        .incrby K.stock (-1), .sadd K.participants user, .hset K.request [(user, order)],
        .pexpireat K.stock (decimal expireAt), .pexpireat K.participants (decimal expireAt),
        .pexpireat K.activity (decimal expireAt), .pexpireat K.request (decimal expireAt)] ks =
          (ks', none) ∧
      ks' K.stock = some ⟨.str (decimal n), some expireAt⟩ ∧
      ks' K.participants =
        some ⟨.set (insert user (ks.members K.participants)), some expireAt⟩ ∧
      ks' K.activity = some ⟨.hash (ks.fields K.activity), some expireAt⟩ ∧
      ks' K.request = some ⟨.hash ((ks.fields K.request).insert user order), some expireAt⟩ ∧
      ks' K.stream = some ⟨.stream s, ks.ttl K.stream⟩ ∧
      ∀ k, k ∉ K.list → ks' k = ks k := by
  have hne := K.nodup
  simp only [List.nodup_cons, List.mem_cons, List.not_mem_nil, or_false, not_or] at hne
  obtain ⟨⟨h12, h13, h14, h15⟩, ⟨h23, h24, h25⟩, ⟨h34, h35⟩, h45, -⟩ := hne
  have ht : string2ll (decimal expireAt) = some (expireAt : ℤ) := string2ll_decimal hmax
  obtain ⟨t, hslot⟩ : ∃ t, ks K.activity = some ⟨.hash (ks.fields K.activity), t⟩ :=
    Keyspace.exists_of_hget hactivity
  set ks1 := ks.put K.stream (.stream s) with hks1
  set ks2 := ks1.put K.stock (.str (decimal n)) with hks2
  set ks3 := ks2.put K.participants (.set (insert user (ks.members K.participants))) with hks3
  set ks4 := ks3.put K.request (.hash ((ks.fields K.request).insert user order)) with hks4
  have hincr : apply now ks1 (.incrby K.stock (-1)) = .ok ks2 := by
    have h : ks1 K.stock = ks K.stock := ks.put_of_ne _ h15
    have hcounter : counterText (((n + 1 : ℕ) : ℤ) + -1) = decimal n := by
      rw [show ((n + 1 : ℕ) : ℤ) + -1 = n by push_cast; ring, counterText_natCast]
    rw [apply_incrby (s := decimal (n + 1)) (n := ((n + 1 : ℕ) : ℤ)) _ _
      (string2ll_decimal (by unfold llongMax; omega)) (by unfold llongMax; omega)
      (by unfold llongMax; omega), hcounter]
    · rw [Keyspace.typeOf_congr h]; exact hstock
    · rw [Keyspace.get_congr h, hraw]; rfl
  have hadd : apply now ks2 (.sadd K.participants user) = .ok ks3 := by
    have h : ks2 K.participants = ks K.participants := by
      rw [hks2, Keyspace.put_of_ne _ _ (Ne.symm h12), hks1, Keyspace.put_of_ne _ _ h25]
    rw [apply_sadd (by rw [Keyspace.typeOf_congr h]; exact hparticipants),
      Keyspace.members_congr h]
  have hset : apply now ks3 (.hset K.request [(user, order)]) = .ok ks4 := by
    have h : ks3 K.request = ks K.request := by
      rw [hks3, Keyspace.put_of_ne _ _ (Ne.symm h24), hks2, Keyspace.put_of_ne _ _ (Ne.symm h14),
        hks1, Keyspace.put_of_ne _ _ h45]
    rw [apply_hset (by rw [Keyspace.typeOf_congr h]; exact hrequest), Keyspace.fields_congr h]
    rfl
  refine ⟨(((ks4.expire K.stock expireAt).expire K.participants expireAt).expire K.activity
    expireAt).expire K.request expireAt, ?_, ?_⟩
  · rw [exec_cons (apply_xadd hstream hs), exec_cons hincr, exec_cons hadd, exec_cons hset,
      exec_cons (apply_pexpireat ht hnow), exec_cons (apply_pexpireat ht hnow),
      exec_cons (apply_pexpireat ht hnow), exec_cons (apply_pexpireat ht hnow)]
    rfl
  · simp only [hks4, hks3, hks2, hks1, Keyspace.expire_apply, Keyspace.put_apply, h12, h13, h14,
      h15, h23, h24, h25, h34, h35, h45, Ne.symm h12, Ne.symm h13, Ne.symm h14, Ne.symm h15,
      Ne.symm h23, Ne.symm h24, Ne.symm h25, Ne.symm h34, Ne.symm h35, Ne.symm h45, if_true,
      if_false, Option.map_some, hslot, true_and]
    intro k hk
    simp only [AdmissionKeys.list, List.mem_cons, List.not_mem_nil, or_false, not_or] at hk
    obtain ⟨hk1, hk2, hk3, hk4, hk5⟩ := hk
    simp only [hk1, hk2, hk3, hk4, hk5, if_false]

/-- **Checks that pass lead to an admission**, unless the deadline overflows. -/
theorem seckill_admits {K : AdmissionKeys κ} {now : ℕ} {appended : Bool} {ks : Keyspace κ}
    {args : List String} {cs : List (Command κ)} {r : Reply}
    (hfit : ¬ DeadlineOverflows K ks args)
    (h : seckill now appended ks K.list args = .ok (cs, r)) :
    ∃ user order voucher beginText endText n expireAt ks',
      args = [user, order, "1", "1", beginText, endText, voucher] ∧ r = ⟨0, order⟩ ∧
      exec now cs ks = (ks', none) ∧ Admitted K now user order voucher n expireAt ks ks' := by
  unfold seckill AdmissionKeys.list at h
  split at h
  · rename_i user order eligible status beginText endText voucher hkeys
    simp only [List.cons.injEq, and_true] at hkeys
    obtain ⟨rfl, rfl, rfl, rfl, rfl⟩ := hkeys
    simp only [ensure_bind_eq_ok, getOr_bind_eq_ok, absentOr_bind_eq_ok] at h
    obtain ⟨hstock, hparticipants, -, hrequest, hstream, rfl, hnone, hnew, -, rfl, -, -, endAt,
      hend, -, -, hnow, -, -, -, -, endText', hmeta, expireText, hexpire, -, -, -, rfl, -, -, endAt',
      hend', -, expireAt, hexpireAt, hlt, heq, hformat, raw, hraw, x, hx, -, hmax, -, htext, hpos,
      ⟨-, hnext⟩, hok⟩ := h
    obtain rfl : endAt' = endAt := Option.some.inj (hend'.symm.trans hend)
    have hfits : (Number.ofNat (2 ^ 63)).le (endAt'.add (.ofNat 86400000)) = false := by
      by_contra hover
      exact hfit ⟨_, rfl, hmeta, fun h => hover (h endAt' hend)⟩
    obtain ⟨expire, rfl, hnowE, hmaxE⟩ := exists_deadline hexpireAt hnow hlt heq hformat hfits
    obtain ⟨m, hm, rfl, rfl⟩ := exists_stock hx (by norm_num) hmax htext
    obtain ⟨n, rfl⟩ : ∃ n, m = n + 1 := by
      refine Nat.exists_eq_succ_of_ne_zero ?_
      rintro rfl
      simp [Number.ofNat] at hpos
    obtain ⟨⟨id, s⟩, hs⟩ : ∃ e, (ks.stream K.stream).append now
        [("userId", user), ("voucherId", voucher), ("id", order)] = some e :=
      Option.isSome_iff_exists.mp (by rw [EventStream.append_isSome]; exact hnext)
    obtain ⟨ks', hexec, h1, h2, h3, h4, h5, hframe⟩ := exec_admission hstock hparticipants hrequest
      hstream hraw hm hexpire hnowE (by unfold llongMax; omega) hs
    simp only [Except.ok.injEq, Prod.mk.injEq] at hok
    obtain ⟨rfl, rfl⟩ := hok
    refine ⟨user, order, voucher, _, _, n, expire, ks', rfl, rfl, hexec, ?_⟩
    exact
      { stock_before := hraw, stock_le := hm, not_participant := hnew, no_request := hnone
        deadline := hexpire, now_lt := hnowE, stock := h1, participants := h2, activity := h3
        request := h4, stream := ⟨id, s, hs, h5⟩, frame := hframe }
  · cases h

/-- One call either accepts the order and leaves exactly the admission behind, or answers with
another code and writes nothing. -/
def AllOrNothing (K : AdmissionKeys κ) (now : ℕ) (appended : Bool) (ks : Keyspace κ)
    (args : List String) : Prop :=
  (∃ user order voucher beginText endText n expireAt,
    args = [user, order, "1", "1", beginText, endText, voucher] ∧
    (Plan.run now (seckill now appended ks K.list args) ks).1 = .answer ⟨0, order⟩ ∧
    Admitted K now user order voucher n expireAt ks
      (Plan.run now (seckill now appended ks K.list args) ks).2) ∨
  ∃ r : Reply, r.code ≠ 0 ∧
    Plan.run now (seckill now appended ks K.list args) ks = (.answer r, ks)

/-- For every content of the five keys and all arguments, a call is all or nothing unless the
deadline overflows. -/
theorem allOrNothing_of_not_overflows {K : AdmissionKeys κ} {now : ℕ} {appended : Bool}
    {ks : Keyspace κ} {args : List String} (hfit : ¬ DeadlineOverflows K ks args) :
    AllOrNothing K now appended ks args := by
  cases h : seckill now appended ks K.list args with
  | error o =>
    right
    obtain ⟨r, rfl, hr⟩ := seckill_raises now appended ks K.list args o h
    exact ⟨r, hr, by rw [h]; rfl⟩
  | ok p =>
    left
    obtain ⟨user, order, voucher, b, e, n, expireAt, ks', hargs, hr, hexec, hadm⟩ :=
      seckill_admits hfit h
    rw [h]
    refine ⟨user, order, voucher, b, e, n, expireAt, hargs, ?_, ?_⟩
    · simp only [Plan.run, hexec, hr]
    · simpa only [Plan.run, hexec] using hadm

/-- An end time of an activity of the current calendar leads to a 64-bit deadline. -/
theorem deadlineFits_decimal {e : ℕ} (he : e + 86400000 < 2 ^ 53) : DeadlineFits (decimal e) := by
  intro x hx
  obtain rfl := Option.some.inj ((tonumber_decimal (by omega)).symm.trans hx)
  rw [add_ofNat he, le_ofNat]
  simp
  omega

/-! ## Sequences of calls -/

/-- The outcome of a call and the keys after it. Keys that have expired are gone first. -/
def call (K : AdmissionKeys κ) (keys : Keyspace κ) (now : ℕ) (appended : Bool)
    (args : List String) : Outcome Reply × Keyspace κ :=
  Plan.run now (seckill now appended (keys.purge now) K.list args) (keys.purge now)

/-- What a call adds to the accepted orders. -/
def acceptedBy (args : List String) : Outcome Reply → List (String × String)
  | .answer ⟨0, order⟩ => [(args.headD "", order)]
  | _ => []

/-- An answer other than `0` accepts nothing. -/
theorem acceptedBy_of_ne_zero {args : List String} {r : Reply} (h : r.code ≠ 0) :
    acceptedBy args (.answer r) = [] := by
  rcases r with ⟨code, text⟩
  unfold acceptedBy
  split
  · rename_i heq
    simp only [Outcome.answer.injEq, Reply.mk.injEq] at heq
    exact absurd heq.1 h
  · rfl

/-- The next state. -/
def visit (K : AdmissionKeys κ) (h : History κ) : Visit → History κ
  | .call now appended args =>
    let (outcome, keys) := call K h.keys now appended args
    ⟨keys, h.accepted ++ acceptedBy args outcome⟩
  | .shared s => ⟨h.keys.put K.stream (.stream s), h.accepted⟩

section sound

variable {K : AdmissionKeys κ} {N b e x : ℕ} {keys : Keyspace κ}
  {accepted : List (String × String)}

/-- A call on unexpired keys. -/
theorem Sound.run_seckill (hs : Sound K N b e x keys accepted) (he : e + 86400000 < 2 ^ 53) (now : ℕ) (appended : Bool)
    (args : List String) :
    Sound K N b e x
      (Plan.run now (seckill now appended keys K.list args) keys).2
      (accepted ++
        acceptedBy args (Plan.run now (seckill now appended keys K.list args) keys).1) := by
  have hfit : ¬ DeadlineOverflows K keys args := by
    rintro ⟨endText, -, hend, hover⟩
    rcases hs.state with ho | hc
    · rw [ho.endAt, Option.some.injEq] at hend
      exact hover (hend ▸ deadlineFits_decimal he)
    · rw [Keyspace.hget, Keyspace.fields, hc.absent _ (by simp [AdmissionKeys.activityKeys])] at hend
      simp at hend
  have hall : AllOrNothing K now appended keys args := allOrNothing_of_not_overflows hfit
  rcases hall with
    ⟨user, order, voucher, bt, et, n, expireAt, rfl, hout, hadm⟩ | ⟨r, hr, hrun⟩
  · -- An accepted call: the activity is there, and the order is recorded under its user.
    rw [hout]
    obtain ⟨id, s, -, hstream⟩ := hadm.stream
    refine ⟨?_, .inr (.inr (by rw [Keyspace.typeOf, hstream]; rfl))⟩
    rcases hs.state with ho | hc
    · exact .inl (ho.accept hadm)
    · have := hadm.deadline
      rw [Keyspace.hget, Keyspace.fields, hc.absent _ (by simp [AdmissionKeys.activityKeys])] at this
      simp at this
  · rw [hrun, acceptedBy_of_ne_zero hr, List.append_nil]
    exact hs

/-- The shared stream is no key of the activity. -/
theorem Sound.shared (hs : Sound K N b e x keys accepted) (s : EventStream) :
    Sound K N b e x (keys.put K.stream (.stream s)) accepted := by
  have hne := K.nodup
  simp only [List.nodup_cons, List.mem_cons, List.not_mem_nil, or_false, not_or] at hne
  obtain ⟨⟨-, -, -, h1⟩, ⟨-, -, h2⟩, ⟨-, h3⟩, h4, -⟩ := hne
  refine ⟨?_, .inr (.inr (by simp [Keyspace.typeOf, Value.kind]))⟩
  rcases hs.state with ho | hc
  · left
    have hrequest := Keyspace.put_of_ne keys (.stream s) h4
    refine ⟨?_, ?_, ?_, ?_, fun user order => ?_, ho.users_nodup⟩
    · simpa only [Keyspace.put_of_ne _ _ h1] using ho.stock
    · simpa only [Keyspace.put_of_ne _ _ h3] using ho.activity
    · simpa only [hrequest] using ho.request
    · simpa only [Keyspace.put_of_ne _ _ h2] using ho.participants
    · simpa only [Keyspace.hget_congr hrequest] using ho.recorded user order
  · refine .inr ⟨fun k hk => ?_, hc.le_stock, hc.users_nodup⟩
    have hk' : k ≠ K.stream := by
      rintro rfl
      simp only [AdmissionKeys.activityKeys, List.mem_cons, List.not_mem_nil, or_false] at hk
      rcases hk with hk | hk | hk | hk <;> simp_all
    exact (Keyspace.put_of_ne _ _ hk').trans (hc.absent k hk)

/-- **Every visit keeps the activity sound.** -/
theorem Sound.visit {h : History κ} (hs : Sound K N b e x h.keys h.accepted)
    (he : e + 86400000 < 2 ^ 53) (v : Visit) :
    Sound K N b e x (visit K h v).keys (visit K h v).accepted := by
  cases v with
  | call now appended args => exact (hs.purge now).run_seckill he now appended args
  | shared s => exact hs.shared s

/-- **Replay wins over every other answer.** -/
theorem Sound.replay (hs : Sound K N b e x keys accepted) {user order : String}
    (hmem : (user, order) ∈ accepted) {now : ℕ} (hlive : keys.purge now K.request ≠ none)
    (appended : Bool) (candidate status beginText endText voucher : String) :
    (call K keys now appended
      [user, candidate, "1", status, beginText, endText, voucher]).1 = .answer ⟨9, order⟩ := by
  have hstream : Typed (keys.purge now) K.stream .stream :=
    (hs.purge now).stream.resolve_left fun h => by simp [h] at hmem
  rcases (hs.purge now).state with ho | hc
  · obtain ⟨n, hstock, -⟩ := ho.stock
    have hstock' : Typed (keys.purge now) K.stock .string :=
      .inr (by rw [Keyspace.typeOf, hstock]; rfl)
    have hparticipants : Typed (keys.purge now) K.participants .set := by
      rcases ho.participants with hp | ⟨ms, hp⟩
      · exact .inl (typeOf_eq_none.mpr hp)
      · exact .inr (by rw [Keyspace.typeOf, hp]; rfl)
    have hactivity : Typed (keys.purge now) K.activity .hash :=
      .inr (by rw [Keyspace.typeOf, ho.activity]; rfl)
    have hrequest : Typed (keys.purge now) K.request .hash := by
      rcases ho.request with hr | ⟨fs, hr⟩
      · exact .inl (typeOf_eq_none.mpr hr)
      · exact .inr (by rw [Keyspace.typeOf, hr]; rfl)
    have hrec := (ho.recorded user order).mpr hmem
    unfold call seckill AdmissionKeys.list
    dsimp only
    rw [ensure_of hstock', ensure_of hparticipants, ensure_of hactivity, ensure_of hrequest,
      ensure_of hstream, ensure_of rfl, hrec, absentOr_some_bind]
    rfl
  · exact absurd (hc.absent K.request (by simp [AdmissionKeys.activityKeys])) hlive

end sound

/-- **Admission is all or nothing, never oversells and is stable under replay.** For every content of
the five keys and all arguments, a call is all or nothing unless the end argument is the end time of
the activity and leads to a deadline past 64 bits. After an activity is initialized with stock `N`,
whatever calls come in whatever order: at most `N` are accepted and at most one for each user, the
stock is a number between `0` and `N`, and while the request key lives every further call of an
accepted user answers `9` with the accepted order. -/
theorem admission_all_or_nothing_and_stable :
    (∀ (K : AdmissionKeys κ) (now : ℕ) (appended : Bool) (ks : Keyspace κ) (args : List String),
      ¬ DeadlineOverflows K ks args → AllOrNothing K now appended ks args) ∧
    ∀ (K : AdmissionKeys κ) (now₀ N b e x : ℕ) (ks₀ ks₁ : Keyspace κ),
      Plan.run now₀ (initializeFlashSale now₀ ks₀ K.activityKeys (arguments N b e x)) ks₀ =
          (.answer 0, ks₁) →
      ∀ visits : List Visit,
        let h := Runs.run (visit K) ⟨ks₁, []⟩ visits
        h.accepted.length ≤ N ∧ (h.accepted.map Prod.fst).Nodup ∧
        (∀ raw, h.keys.get K.stock = some raw → ∃ n ≤ N, raw = decimal n) ∧
        ∀ user order, (user, order) ∈ h.accepted → ∀ now, h.keys.purge now K.request ≠ none →
          ∀ appended candidate status beginText endText voucher,
            (call K h.keys now appended
              [user, candidate, "1", status, beginText, endText, voucher]).1 =
                .answer ⟨9, order⟩ := by
  refine ⟨fun K now appended ks args => allOrNothing_of_not_overflows, ?_⟩
  intro K now₀ N b e x ks₀ ks₁ hinit visits h
  obtain ⟨hrange, hi⟩ : InRange now₀ N b e x ∧ Initialized K N b e x ks₀ ks₁ := by
    rcases initialize_cases K now₀ N b e x ks₀ with ⟨-, hr, -, hi⟩ | ⟨r, hr, hrun⟩
    · rw [hinit] at hi
      exact ⟨hr, hi⟩
    · rw [hinit, Prod.mk.injEq, Outcome.answer.injEq] at hrun
      exact absurd hrun.1.symm hr
  have he : e + 86400000 < 2 ^ 53 := by
    have := hrange.end_le
    omega
  have hs : Sound K N b e x h.keys h.accepted :=
    Runs.run_invariant (visit K) (I := fun h => Sound K N b e x h.keys h.accepted)
      (fun h v hs => hs.visit he v) visits (s := ⟨ks₁, []⟩) (sound_of_initialized hi)
  exact ⟨hs.le_stock, hs.users_nodup, fun raw => hs.stock_le,
    fun user order hmem now hlive => hs.replay hmem hlive⟩

/-- The voucher with id `1`. -/
def voucherOne : LongId := ⟨1, Nat.one_pos, one_le_longMax⟩

/-- The activity of voucher `1`, with one unit of stock between the first and the second second. -/
def smallActivity : Keyspace Key :=
  (Plan.run 0 (initializeFlashSale 0 (fun _ => none) (keysOf voucherOne).activityKeys
    (arguments 1 1000 2000 86402000)) fun _ => none).2

/-- The initialization script makes that activity. -/
theorem initialize_smallActivity :
    Plan.run 0 (initializeFlashSale 0 (fun _ => none) (keysOf voucherOne).activityKeys
      (arguments 1 1000 2000 86402000)) (fun _ => none) = (.answer 0, smallActivity) :=
  Prod.ext (initialize_answers_zero (fun _ _ => rfl)
    ⟨by decide, by decide, by decide, by decide, by decide, by decide, by decide⟩).1 rfl

/-- The first call is all or nothing, and of two calls for the only unit at most one is accepted. -/
theorem smallActivity_admits :
    AllOrNothing (keysOf voucherOne) 1500 true smallActivity
        ["5", "7", "1", "1", "1000", "2000", "1"] ∧
      (Runs.run (visit (keysOf voucherOne)) ⟨smallActivity, []⟩
        [.call 1500 true ["5", "7", "1", "1", "1000", "2000", "1"],
          .call 1600 true ["6", "8", "1", "1", "1000", "2000", "1"]]).accepted.length ≤ 1 := by
  refine ⟨admission_all_or_nothing_and_stable.1 _ _ _ _ _ ?_,
    (admission_all_or_nothing_and_stable.2 _ _ _ _ _ _ _ _ initialize_smallActivity _).1⟩
  rintro ⟨endText, hargs, -, hover⟩
  have : endText = decimal 2000 := (Option.some.inj hargs).symm
  exact hover (this ▸ deadlineFits_decimal (by decide))

/-- An activity whose end is one day before the last 64-bit millisecond, with one unit of stock. -/
def overflowingActivity : Keyspace Key
  | .stock _ => some ⟨.str "1", none⟩
  | .activity _ => some ⟨.hash (writeFields ∅ [("status", "1"), ("beginAt", "1000"),
      ("endAt", "9223372036768375808"), ("expireAt", "9223372036854775808")]), none⟩
  | _ => none

/-- Without the bound on the deadline a call is not all or nothing: `PEXPIREAT` refuses `2^63` after
the order was appended, the stock reduced and the user recorded. -/
theorem admission_not_all_or_nothing :
    ¬ ∀ (now : ℕ) (appended : Bool) (ks : Keyspace Key) (args : List String),
      AllOrNothing (keysOf voucherOne) now appended ks args := by
  intro h
  have hrun : (Plan.run 2000 (seckill 2000 true overflowingActivity (keysOf voucherOne).list
      ["5", "7", "1", "1", "1000", "9223372036768375808", "1"]) overflowingActivity).1 =
      .raised .notInteger := by decide +kernel
  rcases h 2000 true overflowingActivity ["5", "7", "1", "1", "1000", "9223372036768375808", "1"]
    with ⟨_, _, _, _, _, _, _, _, hout, _⟩ | ⟨r, -, hout⟩
  · rw [hrun] at hout
    cases hout
  · rw [hout] at hrun
    cases hrun

end CampusHub.FlashSale.Admission
