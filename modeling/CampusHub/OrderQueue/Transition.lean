import CampusHub.OrderQueue.Scripts

/-!
# What a transition of the order queue does

* `Transition`, `QueueKeys.transition` — a call of the script as `OrderStreamQueue` makes it.
* `Held` — the consumer owns the pending entry, of which `n` attempts were begun.
* `run_begin`, `run_success`, `run_failure` — the calls of the owner; `transition_stale` — a call of
  anybody else.
* `Acknowledged`, `Archived` — the two kinds of writes, key by key.

`transition_cases` is the inversion of the script: it writes nothing and its answer is not positive; or the
owner of the pending entry begins the next attempt within the budget; or it acknowledges the entry; or, its
budget used up, archives it. Every invariant of the queue is proved from these four cases, and none unfolds
the script again.

**Proof route.** The checks before the owner is looked up are one block (`transition_eq`). A consumer that
does not own the entry gets `-1` (`transition_stale`); for the owner each transition is run once, with the
writes given key by key. An archiving is the long case: it writes the dead letter, records it, indexes its
orders and acknowledges the entry (`run_failure`); where the index is damaged or the letter cannot be
written it raises, and nothing is written (`run_failure_error`).

**Left out.** Cuts between the writes of one call.
-/

namespace CampusHub.OrderQueue

open CampusHub.Redis CampusHub.Foundations.Guards CampusHub.Foundations.Lua
open CampusHub.Foundations.Decimal CampusHub.Foundations.Maps CampusHub.Domain

variable {κ : Type}

/-- The three transitions. Source: `OrderStreamQueue.java` 83–86. -/
inductive Transition where
  | begin
  | success
  | failure (errorClass : String)
  deriving DecidableEq

/-- The first argument of the script. -/
def Transition.action : Transition → String
  | .begin => "BEGIN"
  | .success => "SUCCESS"
  | .failure _ => "FAILURE"

/-- The last argument of the script. -/
def Transition.errorClass : Transition → String
  | .failure errorClass => errorClass
  | _ => ""

/-- A call of the script. Source: `OrderStreamQueue.java` 88–94. -/
def QueueKeys.transition (K : QueueKeys κ) (group : String) (maxAttempts now : ℕ) (ks : Keyspace κ)
    (a : Transition) (consumer : String) (id : StreamId) : Checked ℤ (List (Command κ) × ℤ) :=
  orderStreamTransition now ks [K.source, K.attempts, K.dead, K.failures]
    [a.action, group, consumer, id.render, decimal maxAttempts, a.errorClass]

/-- `n` attempts are counted for the entry. -/
def Counted (K : QueueKeys κ) (ks : Keyspace κ) (id : StreamId) (n : ℕ) : Prop :=
  ks.hget K.attempts id.render = if n = 0 then none else some (decimal n)

/-- The consumer owns the pending entry. -/
def Owns (K : QueueKeys κ) (group consumer : String) (id : StreamId) (ks : Keyspace κ) : Prop :=
  ∃ p, (ks.stream K.source).pendingOf group id = some p ∧ p.consumer = consumer

/-- **The consumer owns the pending entry**, and `n` of its attempts were begun. -/
structure Held (K : QueueKeys κ) (group consumer : String) (id : StreamId) (n : ℕ)
    (ks : Keyspace κ) : Prop where
  owned : Owns K group consumer id ks
  attempts : Typed ks K.attempts .hash
  counted : Counted K ks id n
  le : n ≤ 100

/-- The keys that only an archiving writes are of their types. -/
def DeadTyped (K : QueueKeys κ) (ks : Keyspace κ) : Prop :=
  Typed ks K.dead .stream ∧ Typed ks K.failures .hash

/-- A key whose stream has a group is a stream. -/
theorem typeOf_of_group {ks : Keyspace κ} {k : κ} {group : String} {g : Group}
    (h : (ks.stream k).groups.lookup group = some g) : ks.typeOf k = .stream := by
  unfold Keyspace.stream at h
  split at h
  · rename_i hk
    rw [Keyspace.typeOf, hk]
    rfl
  · simp [EventStream.empty] at h

/-! ## The checks -/

section checks

variable {K : QueueKeys κ} {group consumer : String} {M now n : ℕ} {ks : Keyspace κ} {id : StreamId}
  {g : Group}

/-- The checks before the owner is looked up. -/
theorem transition_eq (hM : 1 ≤ M) (hM' : M ≤ 100)
    (hgroup : (ks.stream K.source).groups.lookup group = some g)
    (hattempts : Typed ks K.attempts .hash) (a : Transition)
    (hdead : a.action = "FAILURE" → DeadTyped K ks) :
    K.transition group M now ks a consumer id =
      ownedAttempts ks K.source K.attempts group consumer id.render >>= fun attempts =>
        perform now ks K.source K.attempts K.dead K.failures a.action group consumer id.render
          (.ofNat M) attempts a.errorClass := by
  have haction : a.action = "BEGIN" ∨ a.action = "SUCCESS" ∨ a.action = "FAILURE" := by
    cases a with
    | begin => exact .inl rfl
    | success => exact .inr (.inl rfl)
    | failure errorClass => exact .inr (.inr rfl)
  have hsource : Typed ks K.source .stream := .inr (typeOf_of_group hgroup)
  have hbudget : tonumber (decimal M) = some (.ofNat M) := tonumber_decimal (by omega)
  unfold QueueKeys.transition orderStreamTransition
  dsimp only
  rw [ensure_of haction, ensure_of hsource, ensure_of hattempts, ensure_of fun h => (hdead h).1,
    ensure_of fun h => (hdead h).2, hbudget, getOr_some_bind,
    ensure_of (by rw [lt_ofNat, decide_eq_false_iff_not]; omega),
    ensure_of (by rw [lt_ofNat, decide_eq_false_iff_not]; omega)]

/-- **A call of anybody but the owner** answers `-1`. -/
theorem transition_stale (hM : 1 ≤ M) (hM' : M ≤ 100)
    (hgroup : (ks.stream K.source).groups.lookup group = some g)
    (hattempts : Typed ks K.attempts .hash) (a : Transition)
    (hdead : a.action = "FAILURE" → DeadTyped K ks)
    (hstale : ∀ p, (ks.stream K.source).pendingOf group id = some p → p.consumer ≠ consumer) :
    K.transition group M now ks a consumer id = .error (.answer (-1)) := by
  have howned : ownedAttempts ks K.source K.attempts group consumer id.render =
      .error (.answer (-1)) := by
    rw [ownedAttempts, EventStream.xpending_render, getOr_some_bind,
      ensure_of (by rw [hgroup]; rfl), Option.head?_toList]
    cases hp : (ks.stream K.source).pendingOf group id with
    | none => rfl
    | some p =>
      rw [Option.map_some, getOr_some_bind]
      exact ensure_of_not (hstale p hp)
  rw [transition_eq hM hM' hgroup hattempts a hdead, howned]
  rfl

/-- A call of the owner comes to its transition. -/
theorem transition_held (hM : 1 ≤ M) (hM' : M ≤ 100) (h : Held K group consumer id n ks)
    (a : Transition) (hdead : a.action = "FAILURE" → DeadTyped K ks) :
    K.transition group M now ks a consumer id =
      perform now ks K.source K.attempts K.dead K.failures a.action group consumer id.render
        (.ofNat M) (.ofNat n) a.errorClass := by
  obtain ⟨p, hp, howner⟩ := h.owned
  obtain ⟨g, hgroup, -⟩ := EventStream.pendingOf_eq_some hp
  have hle := h.le
  have hcount : tonumber ((ks.hget K.attempts id.render).getD "0") = some (.ofNat n) := by
    rw [h.counted]
    split
    · rename_i hn
      rw [hn]
      exact tonumber_decimal (n := 0) (by norm_num)
    · exact tonumber_decimal (by omega)
  have howned : ownedAttempts ks K.source K.attempts group consumer id.render =
      .ok (.ofNat n) := by
    rw [ownedAttempts, EventStream.xpending_render, getOr_some_bind,
      ensure_of (by rw [hgroup]; rfl), Option.head?_toList, hp, Option.map_some, getOr_some_bind,
      ensure_of howner, hcount, getOr_some_bind,
      ensure_of (by rw [lt_ofNat, decide_eq_false_iff_not]; omega),
      ensure_of (by rw [floor_ofNat, eq_ofNat, decide_eq_true_eq]),
      ensure_of (by rw [lt_ofNat, decide_eq_false_iff_not]; omega)]
  rw [transition_eq hM hM' hgroup h.attempts a hdead, howned]
  rfl

/-- An archiving with a dead-letter key of another type is refused before anything is looked up. -/
theorem transition_failure_untyped (h : ¬ DeadTyped K ks) (hgroup : (ks.stream K.source).groups.lookup group = some g)
    (hattempts : Typed ks K.attempts .hash) (errorClass : String) :
    K.transition group M now ks (.failure errorClass) consumer id =
      .error (errorReply "ORDER_STATE_WRONGTYPE") := by
  have hsource : Typed ks K.source .stream := .inr (typeOf_of_group hgroup)
  unfold QueueKeys.transition orderStreamTransition
  dsimp only
  rw [ensure_of (.inr (.inr rfl)), ensure_of hsource, ensure_of hattempts]
  by_cases hdead : Typed ks K.dead .stream
  · rw [ensure_of fun _ => hdead, ensure_of_not fun hf => h ⟨hdead, hf rfl⟩]
  · rw [ensure_of_not fun hd => hdead (hd rfl)]

end checks

/-! ## The writes -/

/-- **The entry is done with.** It is acknowledged, and its count is gone. -/
structure Acknowledged (K : QueueKeys κ) (group : String) (id : StreamId) (ks ks' : Keyspace κ) :
    Prop where
  source : ks' K.source = some ⟨.stream ((ks.stream K.source).ack group id), ks.ttl K.source⟩
  attempts : Typed ks' K.attempts .hash
  counts : ∀ f, ks'.hget K.attempts f = if f = id.render then none else ks.hget K.attempts f
  ttl : ∀ k t, ks'.ttl k = some t → ks.ttl k = some t
  frame : ∀ k, k ≠ K.source → k ≠ K.attempts → ks' k = ks k

/-- The stream after an acknowledgement. -/
theorem Acknowledged.stream {K : QueueKeys κ} {group : String} {id : StreamId} {ks ks' : Keyspace κ}
    (hack : Acknowledged K group id ks ks') :
    ks'.stream K.source = (ks.stream K.source).ack group id := by
  simp [Keyspace.stream, hack.source]

/-- The dead letter of an entry: written now, or earlier and recorded since. -/
def Lettered (K : QueueKeys κ) (now : ℕ) (group consumer : String) (id : StreamId) (n : ℕ)
    (errorClass : String) (payload : Fields) (ks ks' : Keyspace κ) (letter : String) : Prop :=
  (ks.hget K.failures id.render = none ∧ ∃ deadId s, letter = deadId.render ∧
    (ks.stream K.dead).append now
      (deadLetter now id.render group consumer (.ofNat n) errorClass payload) = some (deadId, s) ∧
    ks' K.dead = some ⟨.stream s, ks.ttl K.dead⟩) ∨
  (ks.hget K.failures id.render = some letter ∧ ks' K.dead = ks K.dead ∧
    ∃ e, (ks.stream K.dead).xrange letter = some [e] ∧ ("sourceId", id.render) ∈ e.2)

/-- The index field `f` belongs to an order of the payload. -/
def Indexes (payload : Fields) (f : String) : Prop :=
  ∃ e ∈ payload, e.1 = "id" ∧ isLong e.2 ∧ f = "order:" ++ e.2

instance (payload : Fields) (f : String) : Decidable (Indexes payload f) :=
  inferInstanceAs (Decidable (∃ e ∈ payload, _))

/-- **The entry is archived.** Its dead letter is recorded for the entry and for its order. -/
structure Archived (K : QueueKeys κ) (now : ℕ) (group consumer : String) (id : StreamId) (n : ℕ)
    (errorClass : String) (payload : Fields) (ks ks' : Keyspace κ) (letter : String) : Prop where
  lettered : Lettered K now group consumer id n errorClass payload ks ks' letter
  failures : Typed ks' K.failures .hash
  index : ∀ f, ks'.hget K.failures f =
    if f = id.render ∨ Indexes payload f then some letter else ks.hget K.failures f
  ttl : ∀ k t, ks'.ttl k = some t → ks.ttl k = some t
  frame : ∀ k, k ≠ K.dead → k ≠ K.failures → ks' k = ks k

section writes

variable [DecidableEq κ] {K : QueueKeys κ} {group consumer : String} {now n : ℕ} {ks : Keyspace κ}
  {id : StreamId}

/-- The two commands of an acknowledgement. -/
theorem exec_acknowledge (now : ℕ) (id : StreamId) {g : Group}
    (hgroup : (ks.stream K.source).groups.lookup group = some g)
    (hattempts : Typed ks K.attempts .hash) :
    ∃ ks', exec now (acknowledge K.source K.attempts group id.render) ks = (ks', none) ∧
      Acknowledged K group id ks ks' := by
  obtain ⟨hsa, -⟩ := K.ne
  have hack : apply now ks (.xack K.source group id.render) =
      .ok (ks.put K.source (.stream ((ks.stream K.source).ack group id))) :=
    apply_xack (.inr (typeOf_of_group hgroup)) hgroup
  set ks1 := ks.put K.source (.stream ((ks.stream K.source).ack group id))
  have hslot : ks1 K.attempts = ks K.attempts := Keyspace.put_of_ne _ _ hsa.symm
  obtain ⟨ks2, hdel, htyped, hcounts, hframe⟩ := exists_hdel now
    ((typed_congr hslot).mpr hattempts) id.render
  have hexec : exec now (acknowledge K.source K.attempts group id.render) ks = (ks2, none) := by
    rw [acknowledge, exec_cons hack, exec_cons hdel, exec_nil]
  refine ⟨ks2, hexec, ?_, htyped, ?_, fun k t ht => ?_, ?_⟩
  · rw [hframe _ hsa]
    exact Keyspace.put_self ..
  · intro f
    rw [hcounts, Keyspace.hget_congr hslot]
  · exact ttl_exec (by simp [acknowledge, Command.Plain]) hexec ht
  · intro k hsource hk
    rw [hframe k hk]
    exact Keyspace.put_of_ne _ _ hsource

omit [DecidableEq κ] in
/-- The index of an archived entry does not expire. -/
theorem plain_of_mem_orderIndex {failures : κ} {fs : Fields} {letter : String} {c : Command κ}
    (h : c ∈ orderIndex failures fs letter) : c.Plain := by
  simp only [orderIndex, List.mem_map] at h
  obtain ⟨f, -, rfl⟩ := h
  trivial

/-- The commands that index the orders of an archived entry. -/
theorem exec_orderIndex (K : QueueKeys κ) (now : ℕ) (letter : String) (fs : Fields) :
    ∀ ks : Keyspace κ, Typed ks K.failures .hash →
      ∃ ks', exec now (orderIndex K.failures fs letter) ks = (ks', none) ∧
        Typed ks' K.failures .hash ∧
        (∀ f, ks'.hget K.failures f =
          if Indexes fs f then some letter else ks.hget K.failures f) ∧
        ∀ k, k ≠ K.failures → ks' k = ks k := by
  induction fs with
  | nil =>
    intro ks hks
    exact ⟨ks, rfl, hks, fun f => by simp [Indexes], fun k _ => rfl⟩
  | cons e fs ih =>
    intro ks hks
    by_cases he : e.1 = "id" ∧ isLong e.2
    · have hset : apply now ks (.hset K.failures [("order:" ++ e.2, letter)]) =
          .ok (ks.put K.failures (.hash ((ks.fields K.failures).insert ("order:" ++ e.2) letter))) :=
        apply_hset hks
      set ks1 := ks.put K.failures (.hash ((ks.fields K.failures).insert ("order:" ++ e.2) letter))
      obtain ⟨ks', hexec, htyped, hindex, hframe⟩ := ih ks1 (typed_put rfl)
      refine ⟨ks', ?_, htyped, fun f => ?_, fun k hk => ?_⟩
      · rw [orderIndex, List.filter_cons_of_pos (by simpa using he), List.map_cons, exec_cons hset]
        exact hexec
      · have hf1 : ks1.hget K.failures f =
            if f = "order:" ++ e.2 then some letter else ks.hget K.failures f := by
          rw [hget_put, lookup_insert_eq, Keyspace.hget]
        have hsplit : Indexes (e :: fs) f ↔ f = "order:" ++ e.2 ∨ Indexes fs f := by
          simp [Indexes, he]
        rw [hindex, hf1, if_congr hsplit rfl rfl]
        by_cases hf : Indexes fs f <;> simp [hf]
      · rw [hframe k hk]
        exact Keyspace.put_of_ne _ _ hk
    · obtain ⟨ks', hexec, htyped, hindex, hframe⟩ := ih ks hks
      refine ⟨ks', ?_, htyped, fun f => ?_, hframe⟩
      · rw [orderIndex, List.filter_cons_of_neg (by simpa using he)]
        exact hexec
      · have hsplit : Indexes (e :: fs) f ↔ Indexes fs f := by
          rw [not_and] at he
          simp only [Indexes, List.exists_mem_cons_iff, or_iff_right_iff_imp]
          rintro ⟨hname, hlong, -⟩
          exact absurd hlong (he hname)
        rw [hindex, if_congr hsplit rfl rfl]

end writes

/-! ## The calls of the owner -/

section calls

variable {K : QueueKeys κ} {group consumer errorClass : String} {M now n : ℕ} {ks : Keyspace κ}
  {id : StreamId}

/-- The group of a pending entry is there. -/
theorem Held.exists_group (h : Held K group consumer id n ks) :
    ∃ g, (ks.stream K.source).groups.lookup group = some g := by
  obtain ⟨p, hp, -⟩ := h.owned
  obtain ⟨g, hgroup, -⟩ := EventStream.pendingOf_eq_some hp
  exact ⟨g, hgroup⟩

/-- The entry that a consumer owns is in the stream. -/
theorem Held.entry (h : Held K group consumer id n ks) :
    ∃ payload, (ks.stream K.source).lookup id = some payload := by
  obtain ⟨p, hp, -⟩ := h.owned
  obtain ⟨g, -, -, -, hentry⟩ := EventStream.pendingOf_eq_some hp
  exact Option.isSome_iff_exists.mp hentry

/-- The count of an entry is a number. -/
theorem Held.counter (h : Held K group consumer id n ks) :
    string2ll ((ks.hget K.attempts id.render).getD "0") = some (n : ℤ) := by
  rw [h.counted]
  have hle := h.le
  split
  · rename_i hn
    rw [hn]
    decide
  · exact string2ll_decimal (by unfold llongMax; omega)

/-- The index of the archived entries can take this one: it records no dead letter for it and one
more can be written, or it records one that is there. -/
def IndexIntact (K : QueueKeys κ) (now : ℕ) (id : StreamId) (ks : Keyspace κ) : Prop :=
  (ks.hget K.failures id.render = none ∧
    (StreamId.next now (ks.stream K.dead).lastId).isSome = true) ∨
  ∃ letter e, ks.hget K.failures id.render = some letter ∧
    (ks.stream K.dead).xrange letter = some [e] ∧ ("sourceId", id.render) ∈ e.2

/-- An archiving whose index is damaged, or whose dead letter cannot be written, raises. -/
theorem archive_error (group consumer errorClass : String) (n : ℕ) {payload : Fields}
    (hpayload : (ks.stream K.source).lookup id = some payload)
    (hindex : ¬ IndexIntact K now id ks) :
    ∃ e, archive now ks K.source K.attempts K.dead K.failures group consumer id.render (.ofNat n)
      errorClass = .error (.raised e) := by
  rw [archive, EventStream.xrange_render, getOr_some_bind, Option.head?_toList, hpayload,
    Option.map_some, getOr_some_bind]
  cases hfail : ks.hget K.failures id.render with
  | none =>
    cases hnext : StreamId.next now (ks.stream K.dead).lastId with
    | none => exact ⟨_, rfl⟩
    | some deadId => exact absurd (.inl ⟨hfail, by rw [hnext]; rfl⟩) hindex
  | some letter =>
    dsimp only
    cases hrange : (ks.stream K.dead).xrange letter with
    | none => exact ⟨_, rfl⟩
    | some es =>
      rw [getOr_some_bind]
      rcases es with _ | ⟨e, es⟩
      · exact ⟨_, rfl⟩
      · rw [List.head?_cons, getOr_some_bind]
        by_cases hlen : (e :: es).length = 1
        · rw [ensure_of hlen]
          by_cases hmem : ("sourceId", id.render) ∈ e.2
          · obtain rfl : es = [] := by simpa using hlen
            exact absurd (.inr ⟨letter, e, hfail, hrange, hmem⟩) hindex
          · rw [ensure_of_not hmem]
            exact ⟨_, rfl⟩
        · rw [ensure_of_not hlen]
          exact ⟨_, rfl⟩

variable [DecidableEq κ]

/-- `BEGIN` counts one more attempt while the budget lasts. -/
theorem run_begin (now : ℕ) (hM : 1 ≤ M) (hM' : M ≤ 100) (h : Held K group consumer id n ks) (hn : n < M) :
    Plan.run now (K.transition group M now ks .begin consumer id) ks =
      (.answer ((n + 1 : ℕ) : ℤ),
        ks.put K.attempts (.hash ((ks.fields K.attempts).insert id.render (decimal (n + 1))))) := by
  have hincr : apply now ks (.hincrby K.attempts id.render 1) =
      .ok (ks.put K.attempts (.hash ((ks.fields K.attempts).insert id.render (decimal (n + 1))))) := by
    rw [apply_hincrby h.attempts rfl h.counter (by unfold llongMax; omega)
      (by unfold llongMax; omega), show (n : ℤ) + 1 = (n + 1 : ℕ) by push_cast; rfl,
      counterText_natCast]
  rw [transition_held hM hM' h .begin nofun, perform, Transition.action, if_pos rfl,
    ensure_of (by rw [le_ofNat, decide_eq_false_iff_not]; omega), h.counter]
  simp only [Plan.run, exec_cons hincr, exec_nil, Option.getD_some]
  push_cast
  rfl

/-- `BEGIN` answers `0` once the budget is used up. -/
theorem run_begin_spent (hM : 1 ≤ M) (hM' : M ≤ 100) (h : Held K group consumer id n ks)
    (hn : M ≤ n) :
    Plan.run now (K.transition group M now ks .begin consumer id) ks = (.answer 0, ks) := by
  rw [transition_held hM hM' h .begin nofun, perform, Transition.action, if_pos rfl,
    ensure_of_not (by rw [le_ofNat, decide_eq_false_iff_not]; omega)]
  rfl

/-- `SUCCESS` acknowledges the entry. -/
theorem run_success (now : ℕ) (hM : 1 ≤ M) (hM' : M ≤ 100) (h : Held K group consumer id n ks) :
    ∃ ks', Plan.run now (K.transition group M now ks .success consumer id) ks = (.answer 1, ks') ∧
      Acknowledged K group id ks ks' := by
  obtain ⟨g, hgroup⟩ := h.exists_group
  obtain ⟨ks', hexec, hack⟩ := exec_acknowledge now id hgroup h.attempts
  refine ⟨ks', ?_, hack⟩
  rw [transition_held hM hM' h .success nofun, perform, Transition.action, if_neg (by decide),
    if_pos rfl]
  simp only [Plan.run, hexec]

/-- `FAILURE` answers `0` while the budget lasts. -/
theorem run_failure_early (now : ℕ) (errorClass : String) (hM : 1 ≤ M) (hM' : M ≤ 100)
    (h : Held K group consumer id n ks) (hdead : DeadTyped K ks) (hn : n < M) :
    Plan.run now (K.transition group M now ks (.failure errorClass) consumer id) ks =
      (.answer 0, ks) := by
  rw [transition_held hM hM' h _ fun _ => hdead, perform, Transition.action,
    if_neg (by decide), if_neg (by decide),
    ensure_of_not (by rw [lt_ofNat, decide_eq_false_iff_not]; omega)]
  rfl

/-- The commands of an archiving. -/
theorem exec_archive (group consumer errorClass : String) (n : ℕ) {payload : Fields}
    (hdead : DeadTyped K ks)
    (hpayload : (ks.stream K.source).lookup id = some payload)
    (hindex : IndexIntact K now id ks) :
    ∃ cs ks1 letter,
      archive now ks K.source K.attempts K.dead K.failures group consumer id.render (.ofNat n)
        errorClass = .ok (cs ++ acknowledge K.source K.attempts group id.render, 1) ∧
      (∀ tail, exec now (cs ++ tail) ks = exec now tail ks1) ∧
      Archived K now group consumer id n errorClass payload ks ks1 letter := by
  obtain ⟨-, -, -, -, -, -, -, hdf, -⟩ := K.ne
  rcases hindex with ⟨hnone, hnext⟩ | ⟨letter, e, hletter, hrange, hmem⟩
  · -- The dead letter is written now.
    obtain ⟨⟨deadId, s⟩, happend⟩ : ∃ r, (ks.stream K.dead).append now
        (deadLetter now id.render group consumer (.ofNat n) errorClass payload) = some r :=
      Option.isSome_iff_exists.mp (by rw [EventStream.append_isSome, hnext])
    have hnextId := EventStream.next_of_append happend
    have hadd : apply now ks (.xadd K.dead
        (deadLetter now id.render group consumer (.ofNat n) errorClass payload)) =
        .ok (ks.put K.dead (.stream s)) := apply_xadd hdead.1 happend
    set ks1 := ks.put K.dead (.stream s)
    have hslot : ks1 K.failures = ks K.failures := Keyspace.put_of_ne _ _ hdf.symm
    have hset : apply now ks1 (.hset K.failures [(id.render, deadId.render)]) =
        .ok (ks1.put K.failures (.hash ((ks1.fields K.failures).insert id.render deadId.render))) :=
      apply_hset ((typed_congr hslot).mpr hdead.2)
    set ks2 := ks1.put K.failures (.hash ((ks1.fields K.failures).insert id.render deadId.render))
    obtain ⟨ks3, hexec, htyped, hindex3, hframe⟩ :=
      exec_orderIndex K now deadId.render payload ks2 (typed_put rfl)
    refine ⟨.xadd K.dead
        (deadLetter now id.render group consumer (.ofNat n) errorClass payload) ::
      .hset K.failures [(id.render, deadId.render)] :: orderIndex K.failures payload deadId.render,
      ks3, deadId.render, ?_, ?_, ?_, htyped, fun f => ?_, fun k t ht => ?_, fun k hk hk' => ?_⟩
    · rw [archive, EventStream.xrange_render, getOr_some_bind, Option.head?_toList, hpayload,
        Option.map_some, getOr_some_bind, hnone]
      dsimp only
      rw [hnextId, getOr_some_bind, ← List.cons_append, ← List.cons_append]
    · intro tail
      rw [List.cons_append, List.cons_append, exec_cons hadd, exec_cons hset, exec_append, hexec]
    · refine .inl ⟨hnone, deadId, s, rfl, happend, ?_⟩
      rw [hframe _ hdf, show ks2 K.dead = ks1 K.dead from Keyspace.put_of_ne _ _ hdf]
      exact Keyspace.put_self ..
    · have hf2 : ks2.hget K.failures f =
          if f = id.render then some deadId.render else ks.hget K.failures f := by
        rw [hget_put, lookup_insert_eq, ← Keyspace.hget, Keyspace.hget_congr hslot]
      rw [hindex3, hf2]
      by_cases hf : Indexes payload f <;> simp [hf]
    · have ht2 : ks2.ttl k = some t :=
        ttl_exec (fun c hc => plain_of_mem_orderIndex hc) hexec ht
      rwa [Keyspace.ttl_put, Keyspace.ttl_put] at ht2
    · rw [hframe k hk', show ks2 k = ks1 k from Keyspace.put_of_ne _ _ hk']
      exact Keyspace.put_of_ne _ _ hk
  · -- An earlier dead letter is recorded.
    obtain ⟨ks3, hexec, htyped, hindex3, hframe⟩ :=
      exec_orderIndex K now letter payload ks hdead.2
    refine ⟨orderIndex K.failures payload letter, ks3, letter, ?_, ?_, ?_, htyped, fun f => ?_,
      fun k t ht => ?_, fun k _ hk' => hframe k hk'⟩
    · rw [archive, EventStream.xrange_render, getOr_some_bind, Option.head?_toList, hpayload,
        Option.map_some, getOr_some_bind, hletter]
      dsimp only
      rw [hrange, getOr_some_bind, List.head?_cons, getOr_some_bind,
        ensure_of (List.length_singleton), ensure_of hmem]
    · intro tail
      rw [exec_append, hexec]
    · exact .inr ⟨hletter, hframe _ hdf, e, hrange, hmem⟩
    · rw [hindex3]
      by_cases hf : f = id.render
      · subst hf
        simp [hletter]
      · simp [hf]
    · exact ttl_exec (fun c hc => plain_of_mem_orderIndex hc) hexec ht

/-- **`FAILURE` after the budget is used up** archives the entry and acknowledges it. -/
theorem run_failure (errorClass : String) (hM : 1 ≤ M) (hM' : M ≤ 100) (h : Held K group consumer id n ks)
    (hdead : DeadTyped K ks) (hn : M ≤ n) (hindex : IndexIntact K now id ks) :
    ∃ payload ks1 ks' letter, (ks.stream K.source).lookup id = some payload ∧
      Plan.run now (K.transition group M now ks (.failure errorClass) consumer id) ks =
        (.answer 1, ks') ∧
      Archived K now group consumer id n errorClass payload ks ks1 letter ∧
      Acknowledged K group id ks1 ks' := by
  obtain ⟨hsa, hsd, hsf, -, had, haf, -⟩ := K.ne
  obtain ⟨payload, hpayload⟩ := h.entry
  obtain ⟨g, hgroup⟩ := h.exists_group
  obtain ⟨cs, ks1, letter, harchive, hexec, harchived⟩ :=
    exec_archive group consumer errorClass n hdead hpayload hindex
  have hsource : ks1 K.source = ks K.source := harchived.frame _ hsd hsf
  have hcounts : ks1 K.attempts = ks K.attempts := harchived.frame _ had haf
  have hgroup1 : (ks1.stream K.source).groups.lookup group = some g := by
    rw [Keyspace.stream_congr hsource, hgroup]
  obtain ⟨ks', hexec', hack⟩ := exec_acknowledge now id hgroup1
    ((typed_congr hcounts).mpr h.attempts)
  refine ⟨payload, ks1, ks', letter, hpayload, ?_, harchived, hack⟩
  rw [transition_held hM hM' h _ fun _ => hdead, perform, Transition.action,
    if_neg (by decide), if_neg (by decide),
    ensure_of (by rw [lt_ofNat, decide_eq_false_iff_not]; omega), Transition.errorClass, harchive]
  simp only [Plan.run, hexec, hexec']

/-- Otherwise it raises, and nothing is written. -/
theorem run_failure_error (hM : 1 ≤ M) (hM' : M ≤ 100) (h : Held K group consumer id n ks)
    (hdead : DeadTyped K ks) (hn : M ≤ n) (hindex : ¬ IndexIntact K now id ks) :
    ∃ e, Plan.run now (K.transition group M now ks (.failure errorClass) consumer id) ks =
      (.raised e, ks) := by
  obtain ⟨payload, hpayload⟩ := h.entry
  obtain ⟨e, he⟩ := archive_error group consumer errorClass n hpayload hindex
  refine ⟨e, ?_⟩
  rw [transition_held hM hM' h _ fun _ => hdead, perform, Transition.action,
    if_neg (by decide), if_neg (by decide),
    ensure_of (by rw [lt_ofNat, decide_eq_false_iff_not]; omega), Transition.errorClass, he]
  rfl

/-- **What a call can do.** It writes nothing, and its answer is not positive; or the owner begins an
attempt, ends it with success, or archives the entry. -/
theorem transition_cases (now : ℕ) (id : StreamId) {g : Group} (hM : 1 ≤ M) (hM' : M ≤ 100)
    (hgroup : (ks.stream K.source).groups.lookup group = some g)
    (hattempts : Typed ks K.attempts .hash)
    (hcount : ∀ p, (ks.stream K.source).pendingOf group id = some p →
      Counted K ks id n ∧ n ≤ 100) (a : Transition) (consumer : String) :
    let r := Plan.run now (K.transition group M now ks a consumer id) ks
    (r.2 = ks ∧ ∀ z, r.1 = .answer z → z ≤ 0) ∨ Held K group consumer id n ks ∧
      (a = .begin ∧ n < M ∧ r = (.answer ((n + 1 : ℕ) : ℤ),
          ks.put K.attempts (.hash ((ks.fields K.attempts).insert id.render (decimal (n + 1))))) ∨
        a = .success ∧ r.1 = .answer 1 ∧ Acknowledged K group id ks r.2 ∨
        ∃ errorClass, a = .failure errorClass ∧ M ≤ n ∧ r.1 = .answer 1 ∧
          ∃ payload ks1 letter, (ks.stream K.source).lookup id = some payload ∧
            Archived K now group consumer id n errorClass payload ks ks1 letter ∧
            Acknowledged K group id ks1 r.2) := by
  intro r
  by_cases howned : ∃ p, (ks.stream K.source).pendingOf group id = some p ∧ p.consumer = consumer
  · obtain ⟨p, hp, howner⟩ := howned
    obtain ⟨hcounted, hle⟩ := hcount p hp
    have h : Held K group consumer id n ks := ⟨⟨p, hp, howner⟩, hattempts, hcounted, hle⟩
    cases a with
    | begin =>
      rcases lt_or_ge n M with hn | hn
      · exact .inr ⟨h, .inl ⟨rfl, hn, run_begin now hM hM' h hn⟩⟩
      · have hr : r = (.answer 0, ks) := run_begin_spent hM hM' h hn
        left
        rw [hr]
        exact ⟨rfl, fun z hz => by cases hz; exact le_rfl⟩
    | success =>
      obtain ⟨ks', hr, hack⟩ := run_success now hM hM' h
      refine .inr ⟨h, .inr (.inl ⟨rfl, ?_, ?_⟩)⟩
      · exact congrArg Prod.fst hr
      · exact (congrArg Prod.snd hr).symm ▸ hack
    | failure errorClass =>
      by_cases hdead : DeadTyped K ks
      · rcases lt_or_ge n M with hn | hn
        · have hr : r = (.answer 0, ks) := run_failure_early now errorClass hM hM' h hdead hn
          left
          rw [hr]
          exact ⟨rfl, fun z hz => by cases hz; exact le_rfl⟩
        · by_cases hindex : IndexIntact K now id ks
          · obtain ⟨payload, ks1, ks', letter, hpayload, hr, harchived, hack⟩ :=
              run_failure errorClass hM hM' h hdead hn hindex
            refine .inr ⟨h, .inr (.inr ⟨errorClass, rfl, hn, congrArg Prod.fst hr, payload, ks1,
              letter, hpayload, harchived, ?_⟩)⟩
            exact (congrArg Prod.snd hr).symm ▸ hack
          · obtain ⟨e, hr⟩ : ∃ e, r = (.raised e, ks) :=
              run_failure_error hM hM' h hdead hn hindex
            left
            rw [hr]
            exact ⟨rfl, fun z hz => by cases hz⟩
      · have hr : r = (errorReply "ORDER_STATE_WRONGTYPE", ks) := by
          show Plan.run now _ ks = _
          rw [transition_failure_untyped hdead hgroup hattempts]
          rfl
        left
        rw [hr]
        exact ⟨rfl, fun z hz => by cases hz⟩
  · have hstale : ∀ p, (ks.stream K.source).pendingOf group id = some p → p.consumer ≠ consumer :=
      fun p hp howner => howned ⟨p, hp, howner⟩
    left
    by_cases hdead : a.action = "FAILURE" → DeadTyped K ks
    · have hr : r = (.answer (-1), ks) := by
        show Plan.run now _ ks = _
        rw [transition_stale hM hM' hgroup hattempts a hdead hstale]
        rfl
      rw [hr]
      exact ⟨rfl, fun z hz => by cases hz; decide⟩
    · rw [Classical.not_imp] at hdead
      obtain ⟨errorClass, rfl⟩ : ∃ errorClass, a = .failure errorClass := by
        cases a with
        | begin => exact absurd hdead.1 (by decide)
        | success => exact absurd hdead.1 (by decide)
        | failure errorClass => exact ⟨errorClass, rfl⟩
      have hr : r = (errorReply "ORDER_STATE_WRONGTYPE", ks) := by
        show Plan.run now _ ks = _
        rw [transition_failure_untyped hdead.2 hgroup hattempts]
        rfl
      rw [hr]
      exact ⟨rfl, fun z hz => by cases hz⟩

end calls

end CampusHub.OrderQueue
