import Mathlib.Order.Interval.Finset.Nat
import Mathlib.Data.Int.Interval
import CampusHub.Foundations.Runs
import CampusHub.OrderQueue.Transition

/-!
# The consumers of the order queue

* `Job`, `Act`, `step` — consumers that read new entries, claim idle ones, begin attempts, call the
  handler and end their attempts, each of these being a step, so that they interleave and die
  anywhere.
* `EntryInv`, `QueueInv` — what holds of every entry and of every job.
* `bounded_owner_checked_retry` — the result over all runs.

**Theorem** (`bounded_owner_checked_retry`). Whatever the consumers do and wherever they die, the handler is
called at most `M` times for an entry, at most `M` attempts are begun and at most one dead letter is
written, after `M` attempts; a call of anybody but the owner changes nothing; and once the budget is used up
the owner's next `FAILURE` archives the entry and acknowledges it.

**Proof route.** The count in Redis is the number of attempts begun while the entry is pending, and it is
gone once the entry is acknowledged; `EntryInv` relates it to what the handler was called for. A worker that
awaits its handler holds an attempt that nobody else holds (`JobsInv`). By `transition_cases` a call does
one of four things, and each keeps the invariant; deliveries and claims change the owner of an entry only.

**Left out.** What the handler does with an order: that is `OrderFlow`, where the handler writes the
database.
-/

namespace CampusHub.OrderQueue

open CampusHub.Redis CampusHub.Foundations CampusHub.Foundations.Decimal
open CampusHub.Foundations.Maps CampusHub.Domain

variable {κ : Type}

/-- Where a worker stands in `process`. Source: `OrderStreamConsumer.java` 104–123. -/
inductive Job where
  | received (consumer : String) (id : StreamId)
  /-- `BEGIN` answered `0`. -/
  | spent (consumer : String) (id : StreamId)
  /-- `BEGIN` counted this attempt; the handler comes next. -/
  | begun (consumer : String) (id : StreamId) (attempt : ℤ)
  | returned (consumer : String) (id : StreamId)
  | threw (consumer : String) (id : StreamId) (errorClass : String)
  deriving DecidableEq

/-- The keys, the clock and the workers; for each entry the number of attempts begun and the attempts
under which the handler was called. -/
structure State (κ : Type) where
  keys : Keyspace κ
  now : ℕ
  jobs : ℕ → Option Job
  begun : StreamId → ℕ
  handled : StreamId → List ℤ

/-- The steps of the system. `append` is any new entry, `call` a transition that some other client
makes, `crash` a worker that stops anywhere. -/
inductive Act where
  | tick (d : ℕ)
  | append (fields : Fields)
  | readNew (w : ℕ) (consumer : String)
  | recover (w : ℕ) (consumer : String) (claimIdle : ℕ) (id : StreamId)
  | begin (w : ℕ)
  | handle (w : ℕ) (failure : Option String)
  | finish (w : ℕ)
  | call (a : Transition) (consumer : String) (id : StreamId)
  | crash (w : ℕ)

/-- The attempt that an answer of `BEGIN` reserves. -/
def reserved : Outcome ℤ → Option ℤ
  | .answer z => if 0 < z then some z else none
  | .raised _ => none

section system

variable [DecidableEq κ] (K : QueueKeys κ) (group : String) (maxAttempts : ℕ)

/-- A call of the script in a state: its outcome, and the state after it. -/
def transit (s : State κ) (a : Transition) (consumer : String) (id : StreamId) :
    Outcome ℤ × State κ :=
  let r := Plan.run s.now (K.transition group maxAttempts s.now s.keys a consumer id) s.keys
  (r.1, { s with
    keys := r.2
    begun := if a = .begin ∧ (reserved r.1).isSome = true then
        Function.update s.begun id (s.begun id + 1)
      else s.begun })

/-- The next state; an action whose worker is not where the action wants it changes nothing.
Source: `OrderStreamConsumer.java` 82–134, `OrderStreamQueue.java` 57–81. -/
def step (s : State κ) : Act → State κ
  | .tick d => { s with now := s.now + d }
  | .append fields =>
    match (s.keys.stream K.source).append s.now fields with
    | some (_, t) => { s with keys := s.keys.put K.source (.stream t) }
    | none => s
  | .readNew w consumer =>
    match s.jobs w, (s.keys.stream K.source).deliver s.now group consumer with
    | none, some (e, t) =>
      { s with
        keys := s.keys.put K.source (.stream t)
        jobs := Function.update s.jobs w (some (.received consumer e.1)) }
    | _, _ => s
  | .recover w consumer claimIdle id =>
    match s.jobs w, (s.keys.stream K.source).claim s.now claimIdle group consumer id with
    | none, some (_, t) =>
      { s with
        keys := s.keys.put K.source (.stream t)
        jobs := Function.update s.jobs w (some (.received consumer id)) }
    | _, _ => s
  | .begin w =>
    match s.jobs w with
    | some (.received consumer id) =>
      let (o, s') := transit K group maxAttempts s .begin consumer id
      { s' with
        jobs := Function.update s.jobs w <|
          match reserved o with
          | some attempt => some (.begun consumer id attempt)
          | none => if o = .answer 0 then some (.spent consumer id) else none }
    | _ => s
  | .handle w failure =>
    match s.jobs w with
    | some (.begun consumer id attempt) =>
      { s with
        jobs := Function.update s.jobs w <|
          match failure with
          | none => some (.returned consumer id)
          | some errorClass => some (.threw consumer id errorClass)
        handled := Function.update s.handled id (attempt :: s.handled id) }
    | _ => s
  | .finish w =>
    match s.jobs w with
    | some (.spent consumer id) =>
      { (transit K group maxAttempts s (.failure "RetryBudgetExhausted") consumer id).2 with
        jobs := Function.update s.jobs w none }
    | some (.returned consumer id) =>
      { (transit K group maxAttempts s .success consumer id).2 with
        jobs := Function.update s.jobs w none }
    | some (.threw consumer id errorClass) =>
      { (transit K group maxAttempts s (.failure errorClass) consumer id).2 with
        jobs := Function.update s.jobs w none }
    | _ => s
  | .call a consumer id => (transit K group maxAttempts s a consumer id).2
  | .crash w => { s with jobs := Function.update s.jobs w none }

end system

/-! ## The invariant -/

/-- The dead letters written for an entry. -/
def archives (K : QueueKeys κ) (ks : Keyspace κ) (id : StreamId) : ℕ :=
  (ks.stream K.dead).entries.countP fun e => ("sourceId", id.render) ∈ e.2

/-- **What holds of every entry.** -/
structure EntryInv (K : QueueKeys κ) (group : String) (M : ℕ) (ks : Keyspace κ) (begun : ℕ)
    (handled : List ℤ) (id : StreamId) : Prop where
  budget : begun ≤ M
  counted : (ks.stream K.source).Unacked group id → Counted K ks id begun ∧ archives K ks id = 0
  archived : archives K ks id ≤ 1
  spent : archives K ks id = 1 → begun = M
  nodup : handled.Nodup
  attempts : ∀ a ∈ handled, 1 ≤ a ∧ a ≤ begun

/-- **What holds of the workers.** An attempt that awaits its handler was begun and not handled, and
no two workers hold the same. -/
structure JobsInv (jobs : ℕ → Option Job) (begun : StreamId → ℕ) (handled : StreamId → List ℤ) :
    Prop where
  fresh : ∀ w consumer id a, jobs w = some (.begun consumer id a) →
    1 ≤ a ∧ a ≤ begun id ∧ a ∉ handled id
  unique : ∀ w w' consumer consumer' id a, jobs w = some (.begun consumer id a) →
    jobs w' = some (.begun consumer' id a) → w = w'

/-- **The invariant of the system.** -/
structure QueueInv (K : QueueKeys κ) (group : String) (M : ℕ) (s : State κ) : Prop where
  created : ∃ g, (s.keys.stream K.source).groups.lookup group = some g
  attempts : Typed s.keys K.attempts .hash
  entry : ∀ id, EntryInv K group M s.keys (s.begun id) (s.handled id) id
  jobs : JobsInv s.jobs s.begun s.handled

/-- A queue whose group is created and has been given nothing. -/
structure Fresh (K : QueueKeys κ) (group : String) (ks : Keyspace κ) : Prop where
  created : (ks.stream K.source).groups.lookup group = some ⟨.zero, ∅⟩
  attempts : ks K.attempts = none
  dead : (ks.stream K.dead).entries = []

/-- `initializeQueue` makes such a queue where the group is not there yet, no attempt is counted and
nothing is archived. -/
theorem fresh_initialize [DecidableEq κ] {K : QueueKeys κ} {group : String} {ks : Keyspace κ}
    (hsource : Typed ks K.source .stream)
    (hgroup : (ks.stream K.source).groups.lookup group = none) (hattempts : ks K.attempts = none)
    (hdead : (ks.stream K.dead).entries = []) :
    ∃ ks', K.initializeQueue group ks = .ok ks' ∧ Fresh K group ks' := by
  obtain ⟨hsa, hsd, -⟩ := K.ne
  obtain ⟨t, ht, -, -, hgroups⟩ := EventStream.createGroup_of_new hgroup
  refine ⟨ks.put K.source (.stream t), ?_, ?_, ?_, ?_⟩
  · simp [QueueKeys.initializeQueue, expectKind_ok hsource, ht, bind, Except.bind]
  · rw [stream_put, hgroups, Finmap.lookup_insert]
  · rw [Keyspace.put_of_ne _ _ hsa.symm, hattempts]
  · rw [Keyspace.stream_congr (Keyspace.put_of_ne _ _ hsd.symm), hdead]

/-- Before the first step. -/
def start (ks : Keyspace κ) (now : ℕ) : State κ where
  keys := ks
  now := now
  jobs := fun _ => none
  begun := fun _ => 0
  handled := fun _ => []

/-- A queue whose group was given nothing meets the invariant. -/
theorem queueInv_start {K : QueueKeys κ} {group : String} {ks : Keyspace κ} (h : Fresh K group ks)
    (M now : ℕ) : QueueInv K group M (start ks now) where
  created := ⟨_, h.created⟩
  attempts := .inl (by simp [Keyspace.typeOf, start, h.attempts])
  entry id := by
    have hzero : archives K ks id = 0 := by
      rw [archives, h.dead]
      rfl
    have hcounted : Counted K ks id 0 := by
      simp [Counted, Keyspace.hget, Keyspace.fields, h.attempts]
    refine ⟨Nat.zero_le M, fun _ => ⟨hcounted, hzero⟩, ?_, fun h1 => ?_, List.nodup_nil, fun _ h => by cases h⟩
    · rw [start, hzero]
      exact Nat.zero_le 1
    · rw [start, hzero] at h1
      cases h1
  jobs := ⟨fun _ _ _ _ h => (by cases h), fun _ _ _ _ _ _ h => by cases h⟩

/-! ### Jobs -/

section jobs

variable {jobs : ℕ → Option Job} {begun : StreamId → ℕ} {handled : StreamId → List ℤ}

/-- A worker that awaits no handler after its step. -/
theorem JobsInv.set (h : JobsInv jobs begun handled) (w : ℕ) {job : Option Job}
    (hjob : ∀ consumer id a, job ≠ some (.begun consumer id a)) :
    JobsInv (Function.update jobs w job) begun handled where
  fresh w' consumer id a hw := by
    rcases entry_of_write hw with ⟨-, hnew⟩ | ⟨-, hold⟩
    · exact absurd hnew (hjob consumer id a)
    · exact h.fresh w' consumer id a hold
  unique w₁ w₂ consumer consumer' id a h₁ h₂ := by
    rcases entry_of_write h₁ with ⟨-, hnew⟩ | ⟨-, hold₁⟩
    · exact absurd hnew (hjob consumer id a)
    · rcases entry_of_write h₂ with ⟨-, hnew⟩ | ⟨-, hold₂⟩
      · exact absurd hnew (hjob consumer' id a)
      · exact h.unique w₁ w₂ consumer consumer' id a hold₁ hold₂

/-- One more attempt of an entry. -/
theorem JobsInv.more (h : JobsInv jobs begun handled) (id : StreamId) :
    JobsInv jobs (Function.update begun id (begun id + 1)) handled := by
  refine ⟨fun w consumer id' a hw => ?_, h.unique⟩
  obtain ⟨hpos, hle, hnew⟩ := h.fresh w consumer id' a hw
  refine ⟨hpos, ?_, hnew⟩
  by_cases hid : id' = id
  · subst hid
    rw [Function.update_self]
    push_cast
    omega
  · rwa [Function.update_of_ne hid]

/-- A worker that begins the next attempt of an entry. -/
theorem JobsInv.begin (h : JobsInv jobs begun handled)
    (hhandled : ∀ id, ∀ a ∈ handled id, a ≤ begun id) (w : ℕ) (consumer : String) (id : StreamId) :
    JobsInv (Function.update jobs w (some (.begun consumer id ((begun id + 1 : ℕ) : ℤ))))
      (Function.update begun id (begun id + 1)) handled := by
  have hmore := h.more id
  refine ⟨fun w' consumer' id' a hw => ?_, fun w₁ w₂ consumer₁ consumer₂ id' a h₁ h₂ => ?_⟩
  · rcases entry_of_update hw with ⟨-, hnew⟩ | ⟨-, hold⟩
    · obtain ⟨rfl, rfl, rfl⟩ := Job.begun.inj hnew
      rw [Function.update_self]
      refine ⟨by push_cast; omega, le_rfl, fun hmem => ?_⟩
      have := hhandled id' _ hmem
      push_cast at this
      omega
    · exact hmore.fresh w' consumer' id' a hold
  · -- An attempt held before is an earlier one.
    have hold : ∀ w' consumer', jobs w' = some (.begun consumer' id ((begun id + 1 : ℕ) : ℤ)) →
        False := by
      intro w' consumer' hw'
      have := (h.fresh w' consumer' id _ hw').2.1
      push_cast at this
      omega
    rcases entry_of_update h₁ with ⟨rfl, hnew₁⟩ | ⟨-, hold₁⟩
    · rcases entry_of_update h₂ with ⟨rfl, -⟩ | ⟨-, hold₂⟩
      · rfl
      · obtain ⟨-, rfl, rfl⟩ := Job.begun.inj hnew₁
        exact (hold w₂ consumer₂ hold₂).elim
    · rcases entry_of_update h₂ with ⟨-, hnew₂⟩ | ⟨-, hold₂⟩
      · obtain ⟨-, rfl, rfl⟩ := Job.begun.inj hnew₂
        exact (hold w₁ consumer₁ hold₁).elim
      · exact h.unique w₁ w₂ consumer₁ consumer₂ id' a hold₁ hold₂

/-- A worker whose handler was called under its attempt. -/
theorem JobsInv.handle (h : JobsInv jobs begun handled) {w : ℕ} {consumer : String} {id : StreamId}
    {a : ℤ} (hw : jobs w = some (.begun consumer id a)) {job : Option Job}
    (hjob : ∀ consumer id a, job ≠ some (.begun consumer id a)) :
    JobsInv (Function.update jobs w job) begun
      (Function.update handled id (a :: handled id)) := by
  have hset := h.set w hjob
  refine ⟨fun w' consumer' id' a' hw' => ?_, hset.unique⟩
  obtain ⟨hpos, hle, hnew⟩ := hset.fresh w' consumer' id' a' hw'
  refine ⟨hpos, hle, ?_⟩
  by_cases hid : id' = id
  · subst hid
    rw [Function.update_self, List.mem_cons, not_or]
    refine ⟨?_, hnew⟩
    rintro rfl
    rcases entry_of_write hw' with ⟨-, hnew⟩ | ⟨hww, hold⟩
    · exact hjob _ _ _ hnew
    · exact hww (h.unique w' w consumer' consumer id' a' hold hw)
  · rwa [Function.update_of_ne hid]

end jobs

/-! ### Entries -/

section entries

variable [DecidableEq κ] {K : QueueKeys κ} {group : String} {M : ℕ} {ks ks' : Keyspace κ}
  {id : StreamId} {begun : ℕ} {handled : List ℤ}

omit [DecidableEq κ] in
/-- What an entry's invariant reads of the keys. -/
theorem EntryInv.of_eq (h : EntryInv K group M ks begun handled id)
    (hopen : (ks'.stream K.source).Unacked group id → (ks.stream K.source).Unacked group id)
    (hcount : ks'.hget K.attempts id.render = ks.hget K.attempts id.render)
    (harchives : archives K ks' id = archives K ks id) :
    EntryInv K group M ks' begun handled id where
  budget := h.budget
  counted hid := by
    obtain ⟨hcounted, hzero⟩ := h.counted (hopen hid)
    exact ⟨hcount.trans hcounted, harchives.trans hzero⟩
  archived := harchives ▸ h.archived
  spent hone := h.spent (harchives ▸ hone)
  nodup := h.nodup
  attempts := h.attempts

/-- Another stream under the source key. -/
theorem EntryInv.put_source (h : EntryInv K group M ks begun handled id) {t : EventStream}
    (hopen : t.Unacked group id → (ks.stream K.source).Unacked group id) :
    EntryInv K group M (ks.put K.source (.stream t)) begun handled id := by
  obtain ⟨hsa, hsd, -⟩ := K.ne
  refine h.of_eq (fun hid => hopen (by rwa [stream_put] at hid)) ?_ ?_
  · rw [Keyspace.hget_congr (Keyspace.put_of_ne _ _ hsa.symm)]
  · rw [archives, Keyspace.stream_congr (Keyspace.put_of_ne _ _ hsd.symm), archives]

/-- The next attempt of an entry. -/
theorem EntryInv.begin {n : ℕ} {id' : StreamId} (h : EntryInv K group M ks begun handled id')
    (hn : n < M) (hid : id' = id → begun = n) :
    EntryInv K group M
      (ks.put K.attempts (.hash ((ks.fields K.attempts).insert id.render (decimal (n + 1)))))
      (if id' = id then n + 1 else begun) handled id' := by
  obtain ⟨hsa, -, -, -, had, -⟩ := K.ne
  set ks1 := ks.put K.attempts (.hash ((ks.fields K.attempts).insert id.render (decimal (n + 1))))
  have hsource : ks1 K.source = ks K.source := Keyspace.put_of_ne _ _ hsa
  have hdead : ks1 K.dead = ks K.dead := Keyspace.put_of_ne _ _ had.symm
  have hcount : ks1.hget K.attempts id'.render =
      if id' = id then some (decimal (n + 1)) else ks.hget K.attempts id'.render := by
    rw [hget_put, lookup_insert_eq, Keyspace.hget]
    simp only [StreamId.render_inj]
  have harchives : archives K ks1 id' = archives K ks id' := by
    rw [archives, Keyspace.stream_congr hdead, archives]
  by_cases heq : id' = id
  · obtain rfl := hid heq
    simp only [heq, if_true] at hcount ⊢
    subst heq
    refine ⟨hn, fun hopen => ⟨?_, ?_⟩, harchives ▸ h.archived, fun hone => ?_, h.nodup,
      fun a ha => ?_⟩
    · rw [Counted, hcount, if_neg (Nat.succ_ne_zero _)]
    · rw [Keyspace.stream_congr hsource] at hopen
      exact harchives.trans (h.counted hopen).2
    · have := h.spent (harchives ▸ hone)
      omega
    · obtain ⟨hpos, hle⟩ := h.attempts a ha
      refine ⟨hpos, ?_⟩
      push_cast
      omega
  · simp only [heq, if_false] at hcount ⊢
    exact h.of_eq (fun hopen => by rwa [Keyspace.stream_congr hsource] at hopen) hcount harchives

omit [DecidableEq κ] in
/-- An acknowledgement of a pending entry. -/
theorem EntryInv.acknowledged {id' : StreamId} {p : Pending}
    (h : EntryInv K group M ks begun handled id') (hack : Acknowledged K group id ks ks')
    (hp : (ks.stream K.source).pendingOf group id = some p) :
    EntryInv K group M ks' begun handled id' := by
  obtain ⟨-, hsd, -, -, had, -⟩ := K.ne
  have harchives : archives K ks' id' = archives K ks id' := by
    rw [archives, Keyspace.stream_congr (hack.frame _ hsd.symm had.symm), archives]
  refine { h with counted := fun hid => ?_, archived := ?_, spent := fun hone => ?_ }
  · rw [hack.stream] at hid
    obtain ⟨hopen, hne⟩ := EventStream.unacked_of_ack hp hid
    obtain ⟨hcounted, hzero⟩ := h.counted hopen
    refine ⟨?_, harchives.trans hzero⟩
    rw [Counted, hack.counts, if_neg (by simpa using hne)]
    exact hcounted
  · exact harchives ▸ h.archived
  · exact h.spent (harchives ▸ hone)

omit [DecidableEq κ] in
/-- A dead letter names the entry it was written for. -/
theorem sourceId_mem_deadLetter {now : ℕ} {consumer x errorClass : String} {n : Foundations.Lua.Number}
    {payload : Fields} :
    ("sourceId", x) ∈ deadLetter now id.render group consumer n errorClass payload ↔
      x = id.render := by
  simp [deadLetter]

omit [DecidableEq κ] in
/-- An archiving writes one dead letter, for its own entry. -/
theorem archives_of_lettered {now n : ℕ} {consumer errorClass letter : String} {payload : Fields}
    (h : Lettered K now group consumer id n errorClass payload ks ks' letter)
    (hzero : archives K ks id = 0) (id' : StreamId) :
    archives K ks' id' = archives K ks id' + if id' = id then 1 else 0 := by
  rcases h with ⟨-, deadId, t, -, happend, hdead⟩ | ⟨-, -, e, hrange, hmem⟩
  · have hstream : ks'.stream K.dead = t := by simp [Keyspace.stream, hdead]
    rw [archives, hstream, (EventStream.append_eq_some happend).2.1, List.countP_append, archives,
      List.countP_singleton]
    simp only [decide_eq_true_eq, sourceId_mem_deadLetter, StreamId.render_inj]
  · -- A dead letter recorded earlier would be counted.
    have hentry : e ∈ (ks.stream K.dead).entries := by
      obtain ⟨b, -, hb⟩ := Option.map_eq_some_iff.mp hrange
      exact (EventStream.mem_range.mp (hb ▸ List.mem_singleton_self e)).1
    rw [archives, List.countP_eq_zero] at hzero
    exact absurd (by simpa using hmem) (hzero e hentry)

omit [DecidableEq κ] in
/-- An archiving of a pending entry whose budget is used up. -/
theorem EntryInv.archive {id' : StreamId} {p : Pending} {ks1 : Keyspace κ} {now n : ℕ}
    {consumer errorClass letter : String} {payload : Fields}
    (h : EntryInv K group M ks begun handled id')
    (harchived : Archived K now group consumer id n errorClass payload ks ks1 letter)
    (hack : Acknowledged K group id ks1 ks')
    (hp : (ks.stream K.source).pendingOf group id = some p)
    (hzero : archives K ks id = 0) (hspent : id' = id → M ≤ begun) :
    EntryInv K group M ks' begun handled id' := by
  obtain ⟨-, hsd, hsf, -, had, haf, -⟩ := K.ne
  have hsource : ks1 K.source = ks K.source := harchived.frame _ hsd hsf
  have hattempts : ks1 K.attempts = ks K.attempts := harchived.frame _ had haf
  have harchives : archives K ks' id' = archives K ks id' + if id' = id then 1 else 0 := by
    rw [← archives_of_lettered harchived.lettered hzero id', archives,
      Keyspace.stream_congr (hack.frame _ hsd.symm had.symm), archives]
  have hp1 : (ks1.stream K.source).pendingOf group id = some p := by
    rw [Keyspace.stream_congr hsource, hp]
  by_cases heq : id' = id
  · subst heq
    rw [hzero, if_pos rfl, zero_add] at harchives
    refine { h with counted := fun hid => ?_, archived := harchives.le, spent := fun _ => ?_ }
    · rw [hack.stream] at hid
      exact absurd rfl (EventStream.unacked_of_ack hp1 hid).2
    · exact le_antisymm h.budget (hspent rfl)
  · rw [if_neg heq, add_zero] at harchives
    refine h.of_eq (fun hid => ?_) ?_ harchives
    · rw [hack.stream] at hid
      have hopen := (EventStream.unacked_of_ack hp1 hid).1
      rwa [Keyspace.stream_congr hsource] at hopen
    · rw [hack.counts, if_neg (by simpa using heq), Keyspace.hget_congr hattempts]

end entries

/-! ### Steps -/

section steps

variable [DecidableEq κ] {K : QueueKeys κ} {group : String} {M : ℕ} {s : State κ}

omit [DecidableEq κ] in
/-- An entry that is pending has its count, within the budget. -/
theorem QueueInv.counted (h : QueueInv K group M s) (hM' : M ≤ 100) {id : StreamId} {p : Pending}
    (hp : (s.keys.stream K.source).pendingOf group id = some p) :
    Counted K s.keys id (s.begun id) ∧ s.begun id ≤ 100 :=
  ⟨((h.entry id).counted (EventStream.unacked_of_pendingOf hp)).1, (h.entry id).budget.trans hM'⟩

/-- **A call keeps the invariant.** It begins the next attempt of its entry, or it reserves none. -/
theorem QueueInv.transit (h : QueueInv K group M s) (hM : 1 ≤ M) (hM' : M ≤ 100) (a : Transition)
    (consumer : String) (id : StreamId) :
    let r := transit K group M s a consumer id
    QueueInv K group M r.2 ∧ r.2.jobs = s.jobs ∧ r.2.handled = s.handled ∧
      (a = .begin ∧ reserved r.1 = some ((s.begun id + 1 : ℕ) : ℤ) ∧
          r.2.begun = Function.update s.begun id (s.begun id + 1) ∨
        (a = .begin → reserved r.1 = none) ∧ r.2.begun = s.begun) := by
  intro r
  obtain ⟨g, hgroup⟩ := h.created
  have hcases := transition_cases s.now id hM hM' hgroup h.attempts
    (fun p hp => h.counted hM' hp) a consumer
  set q := Plan.run s.now (K.transition group M s.now s.keys a consumer id) s.keys
  have hq : r.1 = q.1 := rfl
  have hkeys : r.2.keys = q.2 := rfl
  have hbegun : r.2.begun = if a = .begin ∧ (reserved q.1).isSome = true then
      Function.update s.begun id (s.begun id + 1) else s.begun := rfl
  have hjobs : r.2.jobs = s.jobs := rfl
  have hhandled : r.2.handled = s.handled := rfl
  rcases hcases with ⟨hsame, hanswer⟩ | ⟨hheld, hcases⟩
  · have hnone : reserved q.1 = none := by
      cases ho : q.1 with
      | answer z => simp [reserved, not_lt.mpr (hanswer z ho)]
      | raised e => rfl
    rw [if_neg (by simp [hnone])] at hbegun
    refine ⟨⟨⟨g, ?_⟩, ?_, fun id' => ?_, ?_⟩, hjobs, hhandled, .inr ⟨fun _ => hnone, hbegun⟩⟩
    · rw [hkeys, hsame, hgroup]
    · rw [hkeys, hsame]
      exact h.attempts
    · rw [hkeys, hsame, hbegun, hhandled]
      exact h.entry id'
    · rw [hjobs, hbegun, hhandled]
      exact h.jobs
  obtain ⟨p, hp, howner⟩ := hheld.owned
  obtain ⟨hsa, hsd, hsf, -, had, haf, -⟩ := K.ne
  rcases hcases with ⟨rfl, hlt, hrun⟩ | ⟨rfl, -, hack⟩ |
    ⟨errorClass, rfl, hle, -, payload, ks1, letter, -, harchived, hack⟩
  · -- The next attempt is begun.
    have hsome : reserved q.1 = some ((s.begun id + 1 : ℕ) : ℤ) := by
      rw [hrun, reserved, if_pos (by push_cast; omega)]
    rw [if_pos ⟨rfl, by rw [hsome]; rfl⟩] at hbegun
    rw [hrun] at hkeys
    have hsource : r.2.keys K.source = s.keys K.source := by
      rw [hkeys]
      exact Keyspace.put_of_ne _ _ hsa
    refine ⟨⟨⟨g, ?_⟩, ?_, fun id' => ?_, ?_⟩, hjobs, hhandled, .inl ⟨rfl, hsome, hbegun⟩⟩
    · rw [Keyspace.stream_congr hsource, hgroup]
    · rw [hkeys]
      exact typed_put rfl
    · have := (h.entry id').begin hlt fun hid => by rw [hid]
      rw [hkeys, hbegun, hhandled, Function.update_apply]
      exact this
    · rw [hjobs, hbegun, hhandled]
      exact h.jobs.more id
  · -- The entry is acknowledged.
    rw [if_neg (by simp)] at hbegun
    refine ⟨⟨?_, ?_, fun id' => ?_, ?_⟩, hjobs, hhandled, .inr ⟨nofun, hbegun⟩⟩
    · rw [hkeys, hack.stream, EventStream.ack_groups hgroup]
      exact ⟨_, Finmap.lookup_insert _⟩
    · exact hack.attempts
    · rw [hkeys, hbegun, hhandled]
      exact (h.entry id').acknowledged hack hp
    · rw [hjobs, hbegun, hhandled]
      exact h.jobs
  · -- The entry is archived and acknowledged.
    rw [if_neg (by simp)] at hbegun
    have hzero := ((h.entry id).counted (EventStream.unacked_of_pendingOf hp)).2
    have hsource : ks1 K.source = s.keys K.source := harchived.frame _ hsd hsf
    refine ⟨⟨?_, ?_, fun id' => ?_, ?_⟩, hjobs, hhandled, .inr ⟨nofun, hbegun⟩⟩
    · rw [hkeys, hack.stream, Keyspace.stream_congr hsource, EventStream.ack_groups hgroup]
      exact ⟨_, Finmap.lookup_insert _⟩
    · exact hack.attempts
    · rw [hkeys, hbegun, hhandled]
      exact (h.entry id').archive harchived hack hp hzero fun hid => hid ▸ hle
    · rw [hjobs, hbegun, hhandled]
      exact h.jobs

/-- Another stream under the source key, with the group and no id back. -/
theorem QueueInv.put_source (h : QueueInv K group M s) {t : EventStream}
    (hgroup : ∃ g, t.groups.lookup group = some g)
    (hopen : ∀ id, t.Unacked group id → (s.keys.stream K.source).Unacked group id) :
    QueueInv K group M { s with keys := s.keys.put K.source (.stream t) } := by
  obtain ⟨hsa, -⟩ := K.ne
  refine { h with
    created := ?_, attempts := ?_, entry := fun id => (h.entry id).put_source (hopen id) }
  · simpa only [stream_put] using hgroup
  · exact (typed_congr (Keyspace.put_of_ne _ _ hsa.symm)).mpr h.attempts

/-- **Every step keeps the invariant.** -/
theorem QueueInv.step (h : QueueInv K group M s) (hM : 1 ≤ M) (hM' : M ≤ 100) (a : Act) :
    QueueInv K group M (step K group M s a) := by
  obtain ⟨g, hgroup⟩ := h.created
  have hdrop : ∀ (s : State κ) (w : ℕ) (job : Option Job),
      QueueInv K group M s → (∀ consumer id a, job ≠ some (.begun consumer id a)) →
      QueueInv K group M { s with jobs := Function.update s.jobs w job } :=
    fun s w job hs hjob => { hs with jobs := hs.jobs.set w hjob }
  cases a with
  | tick d => exact { h with }
  | append fields =>
    simp only [OrderQueue.step]
    split
    · rename_i id t happend
      have hgroups := (EventStream.append_eq_some happend).2.2.2
      exact h.put_source ⟨g, by rw [hgroups, hgroup]⟩ fun id' hid =>
        (EventStream.unacked_congr hgroups).mp hid
    · exact h
  | readNew w consumer =>
    simp only [OrderQueue.step]
    split
    · rename_i e t hw hdeliver
      obtain ⟨_, -, -, -, -, hgroups⟩ := EventStream.deliver_eq_some hdeliver
      refine hdrop _ w _ (h.put_source ⟨_, by rw [hgroups, Finmap.lookup_insert]⟩ fun id hid =>
        EventStream.unacked_of_deliver hdeliver hid) ?_
      rintro consumer' id a ⟨⟩
    · exact h
  | recover w consumer claimIdle id =>
    simp only [OrderQueue.step]
    split
    · rename_i fs t hw hclaim
      obtain ⟨_, _, -, -, -, -, -, hgroups⟩ := EventStream.claim_eq_some hclaim
      refine hdrop _ w _ (h.put_source ⟨_, by rw [hgroups, Finmap.lookup_insert]⟩ fun id hid =>
        EventStream.unacked_of_claim hclaim hid) ?_
      rintro consumer' id a ⟨⟩
    · exact h
  | begin w =>
    simp only [OrderQueue.step]
    split
    · rename_i consumer id hw
      obtain ⟨hinv, hjobs, hhandled, hcases⟩ := h.transit hM hM' .begin consumer id
      rcases hcases with ⟨-, hsome, hbegun⟩ | ⟨hnone, hbegun⟩
      · refine { hinv with jobs := ?_ }
        simp only [hsome, hbegun, hhandled]
        exact h.jobs.begin (fun id a ha => ((h.entry id).attempts a ha).2) w consumer id
      · have hset := hdrop _ w (if (OrderQueue.transit K group M s .begin consumer id).1 = .answer 0
          then some (.spent consumer id) else none) hinv (by split <;> rintro consumer' id a ⟨⟩)
        simpa only [hnone rfl, hjobs] using hset
    · exact h
  | handle w failure =>
    simp only [OrderQueue.step]
    split
    · rename_i consumer id attempt hw
      obtain ⟨hpos, hle, hnew⟩ := h.jobs.fresh w consumer id attempt hw
      refine { h with entry := fun id' => ?_, jobs := h.jobs.handle hw ?_ }
      · by_cases hid : id' = id
        · subst hid
          have he := h.entry id'
          refine { he with nodup := ?_, attempts := ?_ }
          · simp only [Function.update_self]
            exact List.nodup_cons.mpr ⟨hnew, he.nodup⟩
          · simp only [Function.update_self]
            exact List.forall_mem_cons.mpr ⟨⟨hpos, hle⟩, he.attempts⟩
        · simp only [Function.update_of_ne hid]
          exact h.entry id'
      · rintro consumer' id' a
        cases failure <;> rintro ⟨⟩
    · exact h
  | finish w =>
    simp only [OrderQueue.step]
    split
    · exact hdrop _ w _ (h.transit hM hM' _ _ _).1 fun _ _ _ h => by cases h
    · exact hdrop _ w _ (h.transit hM hM' _ _ _).1 fun _ _ _ h => by cases h
    · exact hdrop _ w _ (h.transit hM hM' _ _ _).1 fun _ _ _ h => by cases h
    · exact h
  | call a consumer id => exact (h.transit hM hM' a consumer id).1
  | crash w => exact hdrop s w none h fun _ _ _ h => by cases h

/-- What no step takes back: attempts once begun, and the types of the dead-letter keys. -/
def Kept (K : QueueKeys κ) (s t : State κ) : Prop :=
  (∀ id, s.begun id ≤ t.begun id) ∧ (DeadTyped K s.keys → DeadTyped K t.keys)

omit [DecidableEq κ] in
/-- A step that leaves the counts and the dead-letter keys alone takes nothing back. -/
theorem Kept.of_eq {t : State κ} (hbegun : t.begun = s.begun) (hdead : t.keys K.dead = s.keys K.dead)
    (hfailures : t.keys K.failures = s.keys K.failures) : Kept K s t :=
  ⟨fun id => by rw [hbegun],
    fun h => ⟨(typed_congr hdead).mpr h.1, (typed_congr hfailures).mpr h.2⟩⟩

/-- A call takes neither back. -/
theorem QueueInv.kept_transit (h : QueueInv K group M s) (hM : 1 ≤ M) (hM' : M ≤ 100)
    (a : Transition) (consumer : String) (id : StreamId) :
    Kept K s (OrderQueue.transit K group M s a consumer id).2 := by
  obtain ⟨g, hgroup⟩ := h.created
  obtain ⟨-, -, -, hbegun⟩ := h.transit hM hM' a consumer id
  obtain ⟨-, hsd, hsf, -, had, haf, -⟩ := K.ne
  refine ⟨fun id' => ?_, fun hdead => ?_⟩
  · rcases hbegun with ⟨-, -, hbegun⟩ | ⟨-, hbegun⟩
    · rw [hbegun, Function.update_apply]
      split
      · rename_i hid
        rw [hid]
        exact Nat.le_succ _
      · exact le_rfl
    · rw [hbegun]
  · show DeadTyped K (Plan.run s.now (K.transition group M s.now s.keys a consumer id) s.keys).2
    rcases transition_cases s.now id hM hM' hgroup h.attempts (fun p hp => h.counted hM' hp) a
      consumer with ⟨hsame, -⟩ | ⟨-, ⟨-, -, hrun⟩ | ⟨-, -, hack⟩ |
      ⟨errorClass, -, -, -, payload, ks1, letter, -, harchived, hack⟩⟩
    · rwa [hsame]
    · rw [hrun]
      exact ⟨(typed_congr (Keyspace.put_of_ne _ _ had.symm)).mpr hdead.1,
        (typed_congr (Keyspace.put_of_ne _ _ haf.symm)).mpr hdead.2⟩
    · exact ⟨(typed_congr (hack.frame _ hsd.symm had.symm)).mpr hdead.1,
        (typed_congr (hack.frame _ hsf.symm haf.symm)).mpr hdead.2⟩
    · refine ⟨(typed_congr (hack.frame _ hsd.symm had.symm)).mpr ?_,
        (typed_congr (hack.frame _ hsf.symm haf.symm)).mpr harchived.failures⟩
      rcases harchived.lettered with ⟨-, deadId, t, -, -, hput⟩ | ⟨-, hsame, -⟩
      · exact .inr (by rw [Keyspace.typeOf, hput]; rfl)
      · exact (typed_congr hsame).mpr hdead.1

/-- A step takes neither back. -/
theorem QueueInv.kept_step (h : QueueInv K group M s) (hM : 1 ≤ M) (hM' : M ≤ 100) (a : Act) :
    Kept K s (OrderQueue.step K group M s a) := by
  obtain ⟨-, hsd, hsf, -⟩ := K.ne
  have hput : ∀ (t : EventStream) (jobs : ℕ → Option Job),
      Kept K s { s with keys := s.keys.put K.source (.stream t), jobs := jobs } := fun t jobs =>
    .of_eq rfl (Keyspace.put_of_ne _ _ hsd.symm) (Keyspace.put_of_ne _ _ hsf.symm)
  cases a with
  | tick d => exact .of_eq rfl rfl rfl
  | append fields =>
    simp only [OrderQueue.step]
    split
    · exact hput _ s.jobs
    · exact .of_eq rfl rfl rfl
  | readNew w consumer =>
    simp only [OrderQueue.step]
    split
    · exact hput _ _
    · exact .of_eq rfl rfl rfl
  | recover w consumer claimIdle id =>
    simp only [OrderQueue.step]
    split
    · exact hput _ _
    · exact .of_eq rfl rfl rfl
  | begin w =>
    simp only [OrderQueue.step]
    split
    · exact h.kept_transit hM hM' _ _ _
    · exact .of_eq rfl rfl rfl
  | handle w failure =>
    simp only [OrderQueue.step]
    split <;> exact .of_eq rfl rfl rfl
  | finish w =>
    simp only [OrderQueue.step]
    split
    · rename_i consumer id hw
      exact h.kept_transit hM hM' (.failure "RetryBudgetExhausted") consumer id
    · rename_i consumer id hw
      exact h.kept_transit hM hM' .success consumer id
    · rename_i consumer id errorClass hw
      exact h.kept_transit hM hM' (.failure errorClass) consumer id
    · exact .of_eq rfl rfl rfl
  | call a consumer id => exact h.kept_transit hM hM' a consumer id
  | crash w => exact .of_eq rfl rfl rfl

/-- A run takes neither back. -/
theorem QueueInv.kept_run (h : QueueInv K group M s) (hM : 1 ≤ M) (hM' : M ≤ 100) (as : List Act) :
    Kept K s (Runs.run (OrderQueue.step K group M) s as) :=
  Runs.run_rel (OrderQueue.step K group M) (R := Kept K) (I := QueueInv K group M)
    (fun _ => ⟨fun _ => le_rfl, id⟩)
    (fun _ _ _ h₁ h₂ => ⟨fun id => (h₁.1 id).trans (h₂.1 id), h₂.2 ∘ h₁.2⟩)
    (fun _ a hs => hs.step hM hM' a) (fun _ a hs => hs.kept_step hM hM' a) as h

/-- The invariant holds after every run. -/
theorem QueueInv.run (h : QueueInv K group M s) (hM : 1 ≤ M) (hM' : M ≤ 100) (as : List Act) :
    QueueInv K group M (Runs.run (OrderQueue.step K group M) s as) :=
  Runs.run_invariant _ (fun _ a hs => hs.step hM hM' a) as h

omit [DecidableEq κ] in
/-- The handler was called once for each attempt at most. -/
theorem EntryInv.handled_le {ks : Keyspace κ} {id : StreamId} {begun : ℕ} {handled : List ℤ}
    (h : EntryInv K group M ks begun handled id) : handled.length ≤ M := by
  have hsub : handled.toFinset ⊆ Finset.Icc 1 (begun : ℤ) := by
    intro a ha
    rw [Finset.mem_Icc]
    exact h.attempts a (List.mem_toFinset.mp ha)
  calc handled.length = handled.toFinset.card := (List.toFinset_card_of_nodup h.nodup).symm
    _ ≤ (Finset.Icc 1 (begun : ℤ)).card := Finset.card_le_card hsub
    _ = begun := by rw [Int.card_Icc]; omega
    _ ≤ M := h.budget

/-- A call of anybody but the owner changes nothing. -/
theorem QueueInv.transit_stale (h : QueueInv K group M s) (hM : 1 ≤ M) (hM' : M ≤ 100)
    {a : Transition} {consumer : String} {id : StreamId}
    (hstale : ¬ Owns K group consumer id s.keys) :
    (OrderQueue.transit K group M s a consumer id).2 = s ∧
      ((a.action = "FAILURE" → DeadTyped K s.keys) →
        (OrderQueue.transit K group M s a consumer id).1 = .answer (-1)) := by
  obtain ⟨g, hgroup⟩ := h.created
  have hstale' : ∀ p, (s.keys.stream K.source).pendingOf group id = some p →
      p.consumer ≠ consumer := fun p hp howner => hstale ⟨p, hp, howner⟩
  refine ⟨?_, fun hdead => ?_⟩
  · rcases transition_cases s.now id hM hM' hgroup h.attempts (fun p hp => h.counted hM' hp) a
      consumer with ⟨hsame, hanswer⟩ | ⟨hheld, -⟩
    · have hnone : reserved (Plan.run s.now (K.transition group M s.now s.keys a consumer id)
          s.keys).1 = none := by
        cases ho : (Plan.run s.now (K.transition group M s.now s.keys a consumer id) s.keys).1 with
        | answer z => simp [reserved, not_lt.mpr (hanswer z ho)]
        | raised e => rfl
      simp [OrderQueue.transit, hnone, hsame]
    · exact absurd hheld.owned hstale
  · show (Plan.run s.now (K.transition group M s.now s.keys a consumer id) s.keys).1 = _
    rw [transition_stale hM hM' hgroup h.attempts a hdead hstale']
    rfl

omit [DecidableEq κ] in
/-- The owner of a pending entry, with the attempts begun. -/
theorem QueueInv.held (h : QueueInv K group M s) (hM' : M ≤ 100) {consumer : String}
    {id : StreamId} (howns : Owns K group consumer id s.keys) :
    Held K group consumer id (s.begun id) s.keys := by
  obtain ⟨p, hp, howner⟩ := howns
  obtain ⟨hcounted, hle⟩ := h.counted hM' hp
  exact ⟨⟨p, hp, howner⟩, h.attempts, hcounted, hle⟩

end steps

/-! ## The result -/

/-- **Bounded, owner-checked retry.** From a queue whose group was given nothing, whatever consumers
with one budget `M` do, read, claim, begin, handle, end and die in whatever order, for every entry

* the handler is called at most `M` times, at most `M` attempts are begun, at most one dead letter is
  written, and only after exactly `M` attempts;
* a call of anybody but the owner changes nothing and answers `-1`, a `FAILURE` provided that the
  dead-letter keys were of their types;
* a `FAILURE` of the owner before the budget is used up answers `0` and changes nothing;
* once `BEGIN` answered `0` to the owner, a later `FAILURE` of the owner archives and acknowledges the
  entry, the dead-letter keys and their index being intact then. -/
theorem bounded_owner_checked_retry [DecidableEq κ] (K : QueueKeys κ) (group : String) (M : ℕ)
    (hM : 1 ≤ M) (hM' : M ≤ 100) (keys₀ : Keyspace κ) (now₀ : ℕ) (hfresh : Fresh K group keys₀)
    (as : List Act) (id : StreamId) :
    let s := Runs.run (step K group M) (start keys₀ now₀) as
    ((s.handled id).length ≤ M ∧ s.begun id ≤ M ∧ archives K s.keys id ≤ 1 ∧
      (archives K s.keys id = 1 → s.begun id = M)) ∧
    (∀ a consumer, ¬ Owns K group consumer id s.keys →
      (transit K group M s a consumer id).2 = s ∧
        ((a.action = "FAILURE" → DeadTyped K keys₀) →
          (transit K group M s a consumer id).1 = .answer (-1))) ∧
    (∀ consumer errorClass, Owns K group consumer id s.keys → DeadTyped K keys₀ → s.begun id < M →
      transit K group M s (.failure errorClass) consumer id = (.answer 0, s)) ∧
    (∀ consumer, Owns K group consumer id s.keys →
      (transit K group M s .begin consumer id).1 = .answer 0 → ∀ bs,
        let t := Runs.run (step K group M) s bs
        Owns K group consumer id t.keys → DeadTyped K t.keys → IndexIntact K t.now id t.keys →
        ∀ errorClass,
          let r := transit K group M t (.failure errorClass) consumer id
          r.1 = .answer 1 ∧ archives K r.2.keys id = 1 ∧
            (r.2.keys.stream K.source).pendingOf group id = none) := by
  intro s
  have h : QueueInv K group M s := (queueInv_start hfresh M now₀).run hM hM' as
  have hkept : Kept K (start keys₀ now₀) s := (queueInv_start hfresh M now₀).kept_run hM hM' as
  have he := h.entry id
  refine ⟨⟨he.handled_le, he.budget, he.archived, he.spent⟩, ?_, ?_, ?_⟩
  · intro a consumer hstale
    obtain ⟨hsame, hanswer⟩ := h.transit_stale hM hM' (a := a) hstale
    exact ⟨hsame, fun hdead => hanswer fun ha => hkept.2 (hdead ha)⟩
  · intro consumer errorClass howns hdead hlt
    have hrun := run_failure_early s.now errorClass hM hM'
      (h.held hM' howns) (hkept.2 hdead) hlt
    simp [transit, hrun]
  · intro consumer howns hzero bs t howns' hdead hindex errorClass r
    have hspent : M ≤ s.begun id := by
      by_contra hlt
      have hrun := run_begin s.now hM hM' (h.held hM' howns) (not_le.mp hlt)
      have : (Outcome.answer ((s.begun id + 1 : ℕ) : ℤ)) = .answer 0 := by
        rw [← hzero]
        exact (congrArg Prod.fst hrun).symm
      rw [Outcome.answer.injEq] at this
      omega
    have ht : QueueInv K group M t := h.run hM hM' bs
    have hspent' : M ≤ t.begun id := hspent.trans ((h.kept_run hM hM' bs).1 id)
    obtain ⟨payload, ks1, ks', letter, -, hrun, harchived, hack⟩ :=
      run_failure errorClass hM hM' (ht.held hM' howns') hdead hspent' hindex
    obtain ⟨p, hp, -⟩ := howns'
    obtain ⟨-, hsd, hsf, -, had, -⟩ := K.ne
    have hkeys : r.2.keys = ks' := congrArg Prod.snd hrun
    refine ⟨congrArg Prod.fst hrun, ?_, ?_⟩
    · have hclean := ((ht.entry id).counted (EventStream.unacked_of_pendingOf hp)).2
      rw [hkeys, archives, Keyspace.stream_congr (hack.frame _ hsd.symm had.symm), ← archives,
        archives_of_lettered harchived.lettered hclean, hclean, if_pos rfl]
    · rw [hkeys, hack.stream, EventStream.pendingOf_ack, if_pos rfl]

/-- The queue that the first consumer makes has been given nothing. -/
theorem fresh_emptyQueue : Fresh orderKeys "g1" emptyQueue := by
  obtain ⟨ks, hks, hfresh⟩ : ∃ ks, orderKeys.initializeQueue "g1" (fun _ => none) = .ok ks ∧
      Fresh orderKeys "g1" ks := fresh_initialize (.inl rfl) rfl rfl rfl
  rw [initialize_emptyQueue, Except.ok.injEq] at hks
  exact hks ▸ hfresh

/-- In the queue that `initializeQueue` makes, an entry whose handler fails is handled once when the budget is
one attempt, and then it is archived at most once. -/
theorem poison_entry_handled_once :
    let s := Runs.run (step orderKeys "g1" 1) (start emptyQueue 1000)
      [.append [("id", "7")], .readNew 0 "a", .begin 0, .handle 0 (some "LOCK_BUSY"), .finish 0]
    (s.handled ⟨1000, 0⟩).length ≤ 1 ∧ archives orderKeys s.keys ⟨1000, 0⟩ ≤ 1 := by
  obtain ⟨⟨hhandled, -, harchives, -⟩, -⟩ :=
    bounded_owner_checked_retry orderKeys "g1" 1 le_rfl (by decide) emptyQueue 1000
      fresh_emptyQueue [.append [("id", "7")], .readNew 0 "a", .begin 0,
        .handle 0 (some "LOCK_BUSY"), .finish 0] ⟨1000, 0⟩
  exact ⟨hhandled, harchives⟩

end CampusHub.OrderQueue
