import CampusHub.Foundations.Runs
import CampusHub.Foundations.Tables
import CampusHub.FlashSale.Release

/-!
# The cancellation outbox

* `OrderCancellation`, `due`, `claim`, `complete`, `retry`, `review`, `exhaust` — the rows of
  `tb_order_cancellation` and the statements on them.
* `Job`, `step` — the reconcilers: each of their steps is a step of the system, so that they may
  interleave and die between any two.
* `RowInv`, `OutboxInv` — what holds of every row and of every worker.
* `outbox_protocol` — the result over all runs.

Times are whole seconds here because the columns are. A reconciler works from rows that it has read earlier,
so each of its statements repeats in its `WHERE` what it relies on, and the model keeps the two apart: the
row in the worker's hands and the row in the table.

**Theorem** (`outbox_protocol`). At most one worker can record an outcome for a row at a time, a row counts
its claims and is put aside when they are used up, a closed row never changes again, a worker whose lease
was taken over changes nothing, and a row whose worker has died can be claimed again when its lease has run
out.

**Proof route.** Tokens are drawn fresh, and a row that is leased has the token of its last claim
(`RowInv`), so an update under a token is one of the worker that holds it (`JobsInv`); `change_cases` says
what can change a row at all.

**Left out.** What the release script does: see `FlashSale.Release`, and `OrderFlow` for both together.
-/

namespace CampusHub.Cancellation.Outbox

open CampusHub.Redis CampusHub.Foundations CampusHub.Foundations.Maps
open CampusHub.Foundations.Tables CampusHub.Foundations.Decimal CampusHub.Domain

/-! ## The rows -/

/-- Source: `V003__add_order_cancellation_outbox.sql` 11. -/
inductive Status where
  | pending | completed | requiresReview
  deriving DecidableEq

/-- The text of the column. -/
def Status.name : Status → String
  | .pending => "PENDING"
  | .completed => "COMPLETED"
  | .requiresReview => "REQUIRES_REVIEW"

/-- What a completed row records. Source: `OrderCancellationReconciler.java` 93–97. -/
inductive ReleaseResult where
  | released | alreadyReleased | expired
  deriving DecidableEq

/-- A row of `tb_order_cancellation`; the times are whole seconds.
Source: `V003__add_order_cancellation_outbox.sql` 6–20. -/
structure OrderCancellation where
  orderId : LongId
  userId : LongId
  voucherId : LongId
  expiresAtMs : ℕ
  status : Status
  attempts : ℕ
  nextAttemptAt : ℕ
  leaseToken : Option String
  leaseUntil : Option ℕ
  lastError : Option String
  redisResult : Option ReleaseResult
  completedAt : Option ℕ
  deriving DecidableEq

/-- `tb_order_cancellation` by its primary key. -/
abbrev Table := FiniteMap LongId OrderCancellation

/-- `lease_until IS NULL OR lease_until <= UTC_TIMESTAMP()` -/
def OrderCancellation.Free (row : OrderCancellation) (now : ℕ) : Prop :=
  ∀ u ∈ row.leaseUntil, u ≤ now

instance (row : OrderCancellation) (now : ℕ) : Decidable (row.Free now) :=
  inferInstanceAs (Decidable (∀ u ∈ row.leaseUntil, u ≤ now))

/-- The condition of the polling query. Source: `OrderCancellationMapper.java` 15–18. -/
def OrderCancellation.Due (row : OrderCancellation) (now : ℕ) : Prop :=
  row.status = .pending ∧ row.nextAttemptAt ≤ now ∧ row.Free now

instance (row : OrderCancellation) (now : ℕ) : Decidable (row.Due now) :=
  inferInstanceAs (Decidable (_ ∧ _ ∧ _))

/-- `status='PENDING' AND lease_token=#{token}` -/
def OrderCancellation.HeldBy (row : OrderCancellation) (token : String) : Prop :=
  row.status = .pending ∧ row.leaseToken = some token

instance (row : OrderCancellation) (token : String) : Decidable (row.HeldBy token) :=
  inferInstanceAs (Decidable (_ ∧ _))

/-! ## The statements -/

/-- The row of a cancellation. Source: `OrderCancellationMapper.java` 8–10. -/
def newRow (now : ℕ) (orderId userId voucherId : LongId) (expiresAtMs : ℕ) : OrderCancellation where
  orderId := orderId
  userId := userId
  voucherId := voucherId
  expiresAtMs := expiresAtMs
  status := .pending
  attempts := 0
  nextAttemptAt := now
  leaseToken := none
  leaseUntil := none
  lastError := none
  redisResult := none
  completedAt := none

section statements

variable (t : Table) (now : ℕ) (id : LongId) (token : String)

/-- Source: `OrderCancellationMapper.java` 15–18, the row of one order. The order of the query and
its `LIMIT 32` decide which rows a worker sees first, never what it does with one. -/
def due : Option OrderCancellation := (t.lookup id).filter fun row => row.Due now

/-- Source: `OrderCancellationMapper.java` 20–23. -/
def claim : Table × ℕ :=
  updateWhere t id (fun row => row.Due now ∧ row.attempts < 10) fun row =>
    { row with
      leaseToken := some token
      leaseUntil := some (now + 30)
      attempts := row.attempts + 1 }

/-- Source: `OrderCancellationMapper.java` 25–28. -/
def complete (result : ReleaseResult) : Table × ℕ :=
  updateWhere t id (fun row => row.HeldBy token) fun row =>
    { row with
      status := .completed
      redisResult := some result
      lastError := none
      completedAt := some now
      leaseToken := none
      leaseUntil := none }

/-- Source: `OrderCancellationMapper.java` 30–33. -/
def retry (reason : String) : Table × ℕ :=
  updateWhere t id (fun row => row.HeldBy token) fun row =>
    { row with
      status := if 10 ≤ row.attempts then .requiresReview else .pending
      lastError := some reason
      nextAttemptAt := now + 5
      leaseToken := none
      leaseUntil := none }

/-- Source: `OrderCancellationMapper.java` 35–37. -/
def review (reason : String) : Table × ℕ :=
  updateWhere t id (fun row => row.HeldBy token) fun row =>
    { row with
      status := .requiresReview
      lastError := some reason
      leaseToken := none
      leaseUntil := none }

/-- Source: `OrderCancellationMapper.java` 39–42. -/
def exhaust : Table × ℕ :=
  updateWhere t id (fun row => row.status = .pending ∧ 10 ≤ row.attempts ∧ row.Free now) fun row =>
    { row with
      status := .requiresReview
      lastError := some "RetryBudgetExhausted"
      leaseToken := none
      leaseUntil := none }

end statements

/-! ## A reconciler -/

/-- What the call of the release script gives a worker: an exception, or the answer of the script,
which may be missing. -/
inductive Outcome where
  | failed (errorClass : String)
  | answered (result : Option ℤ)
  deriving DecidableEq

/-- The call of the release script for a row. Source: `OrderCancellationReconciler.java` 75–78. -/
def release (entry : OrderCancellation) (now : ℕ) (ks : Keyspace Key) : Plan Key ℕ :=
  (FlashSale.Release.releaseKeysOf entry.voucherId).script (decimal entry.expiresAtMs) now ks
    entry.userId.text entry.orderId.text

/-- The statement that records an outcome. Source: `OrderCancellationReconciler.java` 79–102. -/
def record (t : Table) (now : ℕ) (id : LongId) (token : String) : Outcome → Table × ℕ
  | .failed errorClass => retry t now id token errorClass
  | .answered none => retry t now id token "UnconfirmedRedisResult"
  | .answered (some result) =>
    if result = 0 then complete t now id token .released
    else if result = 1 then complete t now id token .alreadyReleased
    else if result = 2 then complete t now id token .expired
    else review t id token (if result = 4 then "UnmatchedReservation" else "InvalidRedisState")

/-- Where a worker stands in `reconcile`: it has read a row that was due; it has claimed the row with
a token; it has the outcome of the call. -/
inductive Job where
  | polled (entry : OrderCancellation)
  | claimed (entry : OrderCancellation) (token : String)
  | called (entry : OrderCancellation) (token : String) (outcome : Outcome)
  deriving DecidableEq

/-- The token under which a worker works. -/
def Job.token? : Job → Option String
  | .polled _ => none
  | .claimed _ token => some token
  | .called _ token _ => some token

/-! ## The system -/

/-- The table, the clock of the database and the workers, with a record of the tokens drawn so far
and, for each order, of the claims that succeeded and of the calls of the release script, each under
its token. -/
structure State where
  table : Table
  now : ℕ
  jobs : ℕ → Option Job
  used : Finset String
  claims : LongId → List String
  calls : LongId → List String

/-- The steps of the system. `crash` is a worker that stops anywhere, also on a failed statement. -/
inductive Act where
  | tick (d : ℕ)
  | cancel (orderId userId voucherId : LongId) (expiresAtMs : ℕ)
  | poll (w : ℕ) (id : LongId)
  | start (w : ℕ) (token : String)
  | call (w : ℕ) (outcome : Outcome)
  | record (w : ℕ)
  | crash (w : ℕ)

/-- The start of `reconcile`: a row at its last attempt is put aside, any other is claimed under a
fresh token. Source: `OrderCancellationReconciler.java` 62–73. -/
def reconcile (s : State) (w : ℕ) (entry : OrderCancellation) (token : String) : State :=
  if 10 ≤ entry.attempts then
    { s with
      table := (exhaust s.table s.now entry.orderId).1
      jobs := Function.update s.jobs w none }
  else if token ∈ s.used then s
  else
    let (table, claimed) := claim s.table s.now entry.orderId token
    if claimed = 1 then
      { s with
        table := table
        jobs := Function.update s.jobs w (some (.claimed entry token))
        used := insert token s.used
        claims := Function.update s.claims entry.orderId (token :: s.claims entry.orderId) }
    else
      { s with
        jobs := Function.update s.jobs w none
        used := insert token s.used }

/-- The next state; an action whose worker is not where the action wants it changes nothing. -/
def step (s : State) : Act → State
  | .tick d => { s with now := s.now + d }
  | .cancel orderId userId voucherId expiresAtMs =>
    { s with
      table := (insertNew s.table orderId
        (newRow s.now orderId userId voucherId expiresAtMs)).getD s.table }
  | .poll w id =>
    match s.jobs w, due s.table s.now id with
    | none, some entry => { s with jobs := Function.update s.jobs w (some (.polled entry)) }
    | _, _ => s
  | .start w token =>
    match s.jobs w with
    | some (.polled entry) => reconcile s w entry token
    | _ => s
  | .call w outcome =>
    match s.jobs w with
    | some (.claimed entry token) =>
      { s with
        jobs := Function.update s.jobs w (some (.called entry token outcome))
        calls := Function.update s.calls entry.orderId (token :: s.calls entry.orderId) }
    | _ => s
  | .record w =>
    match s.jobs w with
    | some (.called entry token outcome) =>
      { s with
        table := (record s.table s.now entry.orderId token outcome).1
        jobs := Function.update s.jobs w none }
    | _ => s
  | .crash w => { s with jobs := Function.update s.jobs w none }

/-- Before the first cancellation. -/
def initial (now : ℕ) : State where
  table := ∅
  now := now
  jobs := fun _ => none
  used := ∅
  claims := fun _ => []
  calls := fun _ => []

/-! ## The invariant -/

/-- **What holds of every row.** `claims` are the successful claims of its order. -/
structure RowInv (id : LongId) (claims : List String) (row : OrderCancellation) : Prop where
  key : row.orderId = id
  attempts_le : row.attempts ≤ 10
  attempts_eq : row.attempts = claims.length
  lease : row.leaseToken = none ↔ row.leaseUntil = none
  closed : row.status ≠ .pending → row.leaseToken = none

/-- The token that a worker holds. -/
def holds (jobs : ℕ → Option Job) (w : ℕ) : Option String := (jobs w).bind Job.token?

/-- **What holds of the workers.** Their tokens were drawn, no two hold the same one, and one that is
about to call the release script has claimed its row and not called yet. -/
structure JobsInv (jobs : ℕ → Option Job) (used : Finset String) (claims calls : LongId → List String) :
    Prop where
  used : ∀ w token, holds jobs w = some token → token ∈ used
  unique : ∀ w w' token, holds jobs w = some token → holds jobs w' = some token → w = w'
  claimed : ∀ w entry token, jobs w = some (.claimed entry token) →
    token ∈ claims entry.orderId ∧ token ∉ calls entry.orderId

/-- **The invariant of the system.** -/
structure OutboxInv (s : State) : Prop where
  row : ∀ id row, s.table.lookup id = some row → RowInv id (s.claims id) row
  absent : ∀ id, s.table.lookup id = none → s.claims id = []
  calls : ∀ id, (s.calls id).Nodup ∧ s.calls id ⊆ s.claims id
  used : ∀ id, ∀ token ∈ s.claims id, token ∈ s.used
  jobs : JobsInv s.jobs s.used s.claims s.calls

/-- The invariant holds of the empty table. -/
theorem outboxInv_initial (now : ℕ) : OutboxInv (initial now) where
  row id row h := by cases h
  absent _ _ := rfl
  calls _ := ⟨List.nodup_nil, List.nil_subset _⟩
  used _ _ h := by cases h
  jobs :=
    { used := fun _ _ h => by cases h
      unique := fun _ _ _ h => by cases h
      claimed := fun _ _ _ h => by cases h }

/-! ### Rows -/

section rows

variable {t : Table} {now : ℕ} {id : LongId} {token : String} {claims : List String}
  {row row' : OrderCancellation}

/-- A row that loses its lease keeps the invariant. -/
theorem RowInv.unlease (h : RowInv id claims row) (hkey : row'.orderId = row.orderId)
    (hattempts : row'.attempts = row.attempts) (htoken : row'.leaseToken = none)
    (huntil : row'.leaseUntil = none) : RowInv id claims row' where
  key := hkey.trans h.key
  attempts_le := hattempts.trans_le h.attempts_le
  attempts_eq := hattempts.trans h.attempts_eq
  lease := by simp [htoken, huntil]
  closed _ := htoken

/-- A claim keeps the invariant, with one claim more. -/
theorem RowInv.claim (h : RowInv id claims row) (hpending : row.status = .pending)
    (hlt : row.attempts < 10) (token : String) (until_ : ℕ) :
    RowInv id (token :: claims)
      { row with leaseToken := some token, leaseUntil := some until_, attempts := row.attempts + 1 } where
  key := h.key
  attempts_le := hlt
  attempts_eq := by
    show row.attempts + 1 = _
    rw [h.attempts_eq, List.length_cons]
  lease := by simp
  closed hstatus := absurd hpending hstatus

/-- **Recording an outcome** is one update under the worker's token that ends the lease. -/
theorem record_eq (t : Table) (now : ℕ) (id : LongId) (token : String) (outcome : Outcome) :
    ∃ f : OrderCancellation → OrderCancellation,
      record t now id token outcome = updateWhere t id (fun row => row.HeldBy token) f ∧
      ∀ row, (f row).orderId = row.orderId ∧ (f row).attempts = row.attempts ∧
        (f row).leaseToken = none ∧ (f row).leaseUntil = none := by
  have close : ∀ result : ReleaseResult, ∃ f : OrderCancellation → OrderCancellation,
      complete t now id token result = updateWhere t id (fun row => row.HeldBy token) f ∧
      ∀ row, (f row).orderId = row.orderId ∧ (f row).attempts = row.attempts ∧
        (f row).leaseToken = none ∧ (f row).leaseUntil = none :=
    fun result => ⟨_, rfl, fun row => ⟨rfl, rfl, rfl, rfl⟩⟩
  cases outcome with
  | failed errorClass => exact ⟨_, rfl, fun row => ⟨rfl, rfl, rfl, rfl⟩⟩
  | answered result =>
    cases result with
    | none => exact ⟨_, rfl, fun row => ⟨rfl, rfl, rfl, rfl⟩⟩
    | some result =>
      simp only [record]
      split_ifs
      · exact close .released
      · exact close .alreadyReleased
      · exact close .expired
      all_goals exact ⟨_, rfl, fun row => ⟨rfl, rfl, rfl, rfl⟩⟩

end rows

/-! ### Workers -/

/-- The token of a worker whose job changes. -/
theorem holds_update (jobs : ℕ → Option Job) (w w' : ℕ) (job : Option Job) :
    holds (Function.update jobs w job) w' =
      if w' = w then job.bind Job.token? else holds jobs w' := by
  unfold holds
  by_cases h : w' = w
  · subst h
    rw [Function.update_self, if_pos rfl]
  · rw [Function.update_of_ne h, if_neg h]

section workers

variable {jobs : ℕ → Option Job} {used : Finset String} {claims calls : LongId → List String}

/-- A worker that holds no token after its step. -/
theorem JobsInv.drop (h : JobsInv jobs used claims calls) (w : ℕ) {job : Option Job}
    (hjob : job.bind Job.token? = none) :
    JobsInv (Function.update jobs w job) used claims calls where
  used w' token hw := by
    rw [holds_update] at hw
    split at hw
    · rw [hjob] at hw
      cases hw
    · exact h.used w' token hw
  unique w₁ w₂ token h₁ h₂ := by
    rw [holds_update] at h₁ h₂
    split at h₁
    · rw [hjob] at h₁
      cases h₁
    split at h₂
    · rw [hjob] at h₂
      cases h₂
    exact h.unique w₁ w₂ token h₁ h₂
  claimed w' entry token hw := by
    rcases entry_of_write hw with ⟨-, hnew⟩ | ⟨-, hold⟩
    · rw [hnew] at hjob
      cases hjob
    · exact h.claimed w' entry token hold

/-- A token that is drawn leaves the jobs as they are. -/
theorem JobsInv.draw (h : JobsInv jobs used claims calls) (token : String) :
    JobsInv jobs (insert token used) claims calls where
  used w token' hw := Finset.mem_insert_of_mem (h.used w token' hw)
  unique := h.unique
  claimed := h.claimed

/-- A worker that claims a row under a fresh token. -/
theorem JobsInv.claim (h : JobsInv jobs used claims calls) {token : String} (hfresh : token ∉ used)
    (hcalls : ∀ id, token ∉ calls id) (w : ℕ) (entry : OrderCancellation) :
    JobsInv (Function.update jobs w (some (.claimed entry token))) (insert token used)
      (Function.update claims entry.orderId (token :: claims entry.orderId)) calls where
  used w' token' hw := by
    rw [holds_update] at hw
    split at hw
    · obtain rfl : token = token' := Option.some.inj hw
      exact Finset.mem_insert_self token used
    · exact Finset.mem_insert_of_mem (h.used w' token' hw)
  unique w₁ w₂ token' h₁ h₂ := by
    rw [holds_update] at h₁ h₂
    split at h₁ <;> split at h₂
    · simp_all
    · obtain rfl : token = token' := Option.some.inj h₁
      exact absurd (h.used w₂ token h₂) hfresh
    · obtain rfl : token = token' := Option.some.inj h₂
      exact absurd (h.used w₁ token h₁) hfresh
    · exact h.unique w₁ w₂ token' h₁ h₂
  claimed w' entry' token' hw := by
    rcases entry_of_update hw with ⟨-, hnew⟩ | ⟨-, hold⟩
    · obtain ⟨rfl, rfl⟩ := Job.claimed.inj hnew
      rw [Function.update_self]
      exact ⟨List.mem_cons_self, hcalls entry'.orderId⟩
    · obtain ⟨hclaims, hcalls'⟩ := h.claimed w' entry' token' hold
      refine ⟨?_, hcalls'⟩
      by_cases hid : entry'.orderId = entry.orderId
      · rw [hid, Function.update_self]
        rw [hid] at hclaims
        exact List.mem_cons_of_mem _ hclaims
      · rwa [Function.update_of_ne hid]

/-- A worker that has claimed a row makes its call. -/
theorem JobsInv.call (h : JobsInv jobs used claims calls) {w : ℕ} {entry : OrderCancellation}
    {token : String} (hw : jobs w = some (.claimed entry token)) (outcome : Outcome) :
    JobsInv (Function.update jobs w (some (.called entry token outcome))) used claims
      (Function.update calls entry.orderId (token :: calls entry.orderId)) := by
  have hholds : ∀ w', holds (Function.update jobs w (some (.called entry token outcome))) w' =
      holds jobs w' := by
    intro w'
    rw [holds_update]
    split
    · rename_i hww
      rw [hww, holds, hw]
      rfl
    · rfl
  refine ⟨fun w' token' hw' => h.used w' token' (by rwa [hholds] at hw'),
    fun w₁ w₂ token' h₁ h₂ => h.unique w₁ w₂ token' (by rwa [hholds] at h₁) (by rwa [hholds] at h₂),
    fun w' entry' token' hw' => ?_⟩
  obtain ⟨hww, hold⟩ := (entry_of_update hw').resolve_left fun hnew => nomatch hnew.2
  obtain ⟨hclaims, hcalls⟩ := h.claimed w' entry' token' hold
  refine ⟨hclaims, ?_⟩
  by_cases hid : entry'.orderId = entry.orderId
  · rw [hid, Function.update_self, List.mem_cons, not_or]
    rw [hid] at hcalls
    refine ⟨?_, hcalls⟩
    -- Two workers with one token would be one worker.
    rintro rfl
    exact hww (h.unique w' w token' (by rw [holds, hold]; rfl) (by rw [holds, hw]; rfl))
  · rwa [Function.update_of_ne hid]

end workers

/-! ### The steps -/

section steps

variable {s : State}

/-- An update that ends leases keeps the invariant of the rows. -/
theorem OutboxInv.unlease (h : OutboxInv s) {id : LongId} {p : OrderCancellation → Prop}
    [DecidablePred p] {f : OrderCancellation → OrderCancellation}
    (hf : ∀ row, (f row).orderId = row.orderId ∧ (f row).attempts = row.attempts ∧
      (f row).leaseToken = none ∧ (f row).leaseUntil = none) {w : ℕ} {job : Option Job}
    (hjob : job.bind Job.token? = none) :
    OutboxInv
      { s with
        table := (updateWhere s.table id p f).1
        jobs := Function.update s.jobs w job } where
  row id' row hrow := by
    rcases lookup_updateWhere hrow with hold | ⟨rfl, old, hold, -, rfl⟩
    · exact h.row id' row hold
    · obtain ⟨hkey, hattempts, htoken, huntil⟩ := hf old
      exact (h.row _ old hold).unlease hkey hattempts htoken huntil
  absent id' hnone := h.absent id' (lookup_updateWhere_eq_none.mp hnone)
  calls := h.calls
  used := h.used
  jobs := h.jobs.drop w hjob

/-- A worker that lets its job go, or polls a row, keeps the invariant. -/
theorem OutboxInv.drop (h : OutboxInv s) (w : ℕ) {job : Option Job}
    (hjob : job.bind Job.token? = none) :
    OutboxInv { s with jobs := Function.update s.jobs w job } :=
  { h with jobs := h.jobs.drop w hjob }

/-- A cancellation keeps the invariant. -/
theorem OutboxInv.cancel (h : OutboxInv s) (orderId userId voucherId : LongId) (expiresAtMs : ℕ) :
    OutboxInv (step s (.cancel orderId userId voucherId expiresAtMs)) := by
  simp only [step]
  cases hinsert : insertNew s.table orderId (newRow s.now orderId userId voucherId expiresAtMs) with
  | none => exact h
  | some table =>
    obtain ⟨hnone, rfl⟩ := insertNew_eq_some.mp hinsert
    refine { h with row := fun id row hrow => ?_, absent := fun id hid => ?_ }
    · simp only [Option.getD_some, lookup_insert_eq] at hrow
      split at hrow
      · rename_i hid
        subst hid
        obtain rfl := Option.some.inj hrow
        have hclaims := h.absent id hnone
        exact ⟨rfl, Nat.zero_le _, by simp [newRow, hclaims], by simp [newRow], fun _ => rfl⟩
      · exact h.row id row hrow
    · simp only [Option.getD_some, lookup_insert_eq] at hid
      split at hid
      · cases hid
      · exact h.absent id hid

/-- The start of `reconcile` keeps the invariant. -/
theorem OutboxInv.reconcile (h : OutboxInv s) (w : ℕ) (entry : OrderCancellation) (token : String) :
    OutboxInv (reconcile s w entry token) := by
  unfold Outbox.reconcile
  split_ifs with hlast hused
  · apply h.unlease _ (Option.bind_none _)
    intro row
    exact ⟨rfl, rfl, rfl, rfl⟩
  · exact h
  have hfresh : ∀ id, token ∉ s.claims id := fun id hmem => hused (h.used id token hmem)
  have hcalls : ∀ id, token ∉ s.calls id := fun id hmem => hfresh id ((h.calls id).2 hmem)
  rcases updateWhere_cases s.table entry.orderId
    (fun row => row.Due s.now ∧ row.attempts < 10)
    (fun row => { row with
      leaseToken := some token
      leaseUntil := some (s.now + 30)
      attempts := row.attempts + 1 }) with ⟨row, hrow, ⟨hdue, hlt⟩, hclaim⟩ | ⟨-, hclaim⟩
  · simp only [claim, hclaim, if_true]
    refine ⟨fun id row' hrow' => ?_, fun id hnone => ?_, fun id => ⟨(h.calls id).1, ?_⟩,
      fun id token' htoken' => ?_, h.jobs.claim hused hcalls w entry⟩
    · simp only [lookup_insert_eq] at hrow'
      split at hrow'
      · rename_i hid
        subst hid
        obtain rfl := Option.some.inj hrow'
        simp only [Function.update_self]
        exact (h.row _ row hrow).claim hdue.1 hlt token (s.now + 30)
      · rename_i hid
        simp only [Function.update_of_ne hid]
        exact h.row id row' hrow'
    · simp only [lookup_insert_eq] at hnone
      split at hnone
      · cases hnone
      · rename_i hid
        simp only [Function.update_of_ne hid]
        exact h.absent id hnone
    · intro token' htoken'
      by_cases hid : id = entry.orderId
      · subst hid
        simp only [Function.update_self]
        exact List.mem_cons_of_mem _ ((h.calls _).2 htoken')
      · simp only [Function.update_of_ne hid]
        exact (h.calls id).2 htoken'
    · by_cases hid : id = entry.orderId
      · subst hid
        simp only [Function.update_self, List.mem_cons] at htoken'
        rcases htoken' with rfl | htoken'
        · exact Finset.mem_insert_self _ _
        · exact Finset.mem_insert_of_mem (h.used _ token' htoken')
      · simp only [Function.update_of_ne hid] at htoken'
        exact Finset.mem_insert_of_mem (h.used id token' htoken')
  · simp only [claim, hclaim, zero_ne_one, if_false]
    exact
      { h with
        used := fun id token' htoken' => Finset.mem_insert_of_mem (h.used id token' htoken')
        jobs := (h.jobs.drop w rfl).draw token }

/-- A call of the release script keeps the invariant. -/
theorem OutboxInv.call (h : OutboxInv s) (w : ℕ) (outcome : Outcome) :
    OutboxInv (step s (.call w outcome)) := by
  simp only [step]
  split
  · rename_i entry token hw
    obtain ⟨hclaimed, hnew⟩ := h.jobs.claimed w entry token hw
    refine { h with calls := fun id => ?_, jobs := h.jobs.call hw outcome }
    by_cases hid : id = entry.orderId
    · subst hid
      simp only [Function.update_self]
      exact ⟨List.nodup_cons.mpr ⟨hnew, (h.calls _).1⟩,
        List.cons_subset.mpr ⟨hclaimed, (h.calls _).2⟩⟩
    · simp only [Function.update_of_ne hid]
      exact h.calls id
  · exact h

/-- **Every step keeps the invariant.** -/
theorem OutboxInv.step (h : OutboxInv s) (a : Act) : OutboxInv (step s a) := by
  cases a with
  | tick d => exact { h with }
  | cancel orderId userId voucherId expiresAtMs => exact h.cancel orderId userId voucherId expiresAtMs
  | poll w id =>
    simp only [Outbox.step]
    split
    · exact h.drop w rfl
    · exact h
  | start w token =>
    simp only [Outbox.step]
    split
    · exact h.reconcile w _ token
    · exact h
  | call w outcome => exact h.call w outcome
  | record w =>
    simp only [Outbox.step]
    split
    · rename_i entry token outcome hw
      obtain ⟨f, hrecord, hf⟩ :=
        record_eq s.table s.now entry.orderId token outcome
      rw [hrecord]
      exact h.unlease hf (Option.bind_none _)
    · exact h
  | crash w => exact h.drop w rfl

end steps

/-- The invariant holds after every run. -/
theorem outboxInv_run (now : ℕ) (as : List Act) : OutboxInv (Runs.run step (initial now) as) :=
  Runs.run_invariant step (fun _ a h => h.step a) as (outboxInv_initial now)

/-! ## What a step changes -/

section change

variable {s : State} {id : LongId} {row : OrderCancellation}

/-- **What changes a row.** It is pending, and it is claimed or put aside while no lease runs, or the
worker that holds its token records an outcome. -/
theorem change_cases (hrow : s.table.lookup id = some row) (a : Act)
    (h : (step s a).table.lookup id ≠ some row) :
    row.status = .pending ∧
      ((∃ w token, a = .start w token ∧ row.Free s.now) ∨
        ∃ w entry token outcome, a = .record w ∧ s.jobs w = some (.called entry token outcome) ∧
          entry.orderId = id ∧ row.leaseToken = some token) := by
  have hkeep : ∀ {id' : LongId} {p : OrderCancellation → Prop} [DecidablePred p]
      {f : OrderCancellation → OrderCancellation},
      (updateWhere s.table id' p f).1.lookup id ≠ some row → id' = id ∧ p row := by
    intro id' p _ f hne
    refine ⟨?_, by_contra fun hp => hne (lookup_updateWhere_of_not hrow hp)⟩
    by_contra hid
    apply hne
    rcases updateWhere_cases s.table id' p f with ⟨old, -, -, hu⟩ | ⟨-, hu⟩
    · rw [hu, lookup_insert_eq, if_neg (Ne.symm hid), hrow]
    · rw [hu, hrow]
  cases a with
  | tick d => exact absurd hrow h
  | cancel orderId userId voucherId expiresAtMs =>
    simp only [step] at h
    cases hinsert : insertNew s.table orderId
        (newRow s.now orderId userId voucherId expiresAtMs) with
    | none => exact absurd hrow (by simpa [hinsert] using h)
    | some table =>
      obtain ⟨hnone, rfl⟩ := insertNew_eq_some.mp hinsert
      rw [hinsert, Option.getD_some, lookup_insert_eq] at h
      split at h
      · rename_i hid
        rw [← hid, hrow] at hnone
        cases hnone
      · exact absurd hrow h
  | poll w id' =>
    simp only [step] at h
    split at h <;> exact absurd hrow h
  | start w token =>
    simp only [step] at h
    split at h
    · rename_i entry hw
      unfold reconcile at h
      split_ifs at h with hlast hused
      · obtain ⟨-, hp, -, hfree⟩ := hkeep h
        exact ⟨hp, .inl ⟨w, token, rfl, hfree⟩⟩
      · exact absurd hrow h
      · dsimp only at h
        split at h
        · obtain ⟨-, ⟨hp, -, hfree⟩, -⟩ := hkeep h
          exact ⟨hp, .inl ⟨w, token, rfl, hfree⟩⟩
        · exact absurd hrow h
    · exact absurd hrow h
  | call w outcome =>
    simp only [step] at h
    split at h <;> exact absurd hrow h
  | record w =>
    simp only [step] at h
    split at h
    · rename_i entry token outcome hw
      obtain ⟨f, hrecord, -⟩ :=
        record_eq s.table s.now entry.orderId token outcome
      rw [hrecord] at h
      obtain ⟨hid, hp, htoken⟩ := hkeep h
      exact ⟨hp, .inr ⟨w, entry, token, outcome, rfl, hw, hid, htoken⟩⟩
    · exact absurd hrow h
  | crash w => exact absurd hrow h

/-- A closed row never changes again. -/
theorem closed_stays (hrow : s.table.lookup id = some row) (hclosed : row.status ≠ .pending)
    (as : List Act) : (Runs.run step s as).table.lookup id = some row := by
  refine Runs.run_invariant step (I := fun s => s.table.lookup id = some row) (fun s a hs => ?_) as
    hrow
  by_contra hne
  exact hclosed (change_cases hs a hne).1

/-- A worker whose token is not the row's changes nothing. -/
theorem stale_record {w : ℕ} {entry : OrderCancellation} {token : String} {outcome : Outcome}
    (hw : s.jobs w = some (.called entry token outcome))
    (hstale : ∀ row, s.table.lookup entry.orderId = some row → row.leaseToken ≠ some token) :
    (step s (.record w)).table = s.table := by
  obtain ⟨f, hrecord, -⟩ :=
    record_eq s.table s.now entry.orderId token outcome
  simp only [step, hw, hrecord]
  rw [updateWhere_of_not fun row hrow hheld => hstale row hrow hheld.2]

/-- **No row is stuck.** A worker that polls a row and starts on it claims it, or puts it aside when
its attempts are used up. -/
theorem reconcile_fresh (h : OutboxInv s) (hrow : s.table.lookup id = some row)
    (hdue : row.Due s.now) {w : ℕ} (hfree : s.jobs w = none) {token : String}
    (hfresh : token ∉ s.used) :
    let s' := step (step s (.poll w id)) (.start w token)
    row.attempts < 10 ∧ s'.jobs w = some (.claimed row token) ∧
        s'.table.lookup id = some { row with
          leaseToken := some token
          leaseUntil := some (s.now + 30)
          attempts := row.attempts + 1 } ∨
      row.attempts = 10 ∧
        s'.table.lookup id = some { row with
          status := .requiresReview
          lastError := some "RetryBudgetExhausted"
          leaseToken := none
          leaseUntil := none } := by
  intro s'
  have hinv := h.row id row hrow
  have hpoll : step s (.poll w id) =
      { s with jobs := Function.update s.jobs w (some (.polled row)) } := by
    have hread : due s.table s.now id = some row := by
      rw [due, hrow, Option.filter_some, if_pos (decide_eq_true hdue)]
    simp only [step, hfree, hread]
  have hstart : s' = reconcile { s with jobs := Function.update s.jobs w (some (.polled row)) } w row
      token := by
    show step (step s (.poll w id)) (.start w token) = _
    rw [hpoll]
    simp only [step, Function.update_self]
  rw [hstart, reconcile]
  have hkey := hinv.key
  rcases lt_or_eq_of_le hinv.attempts_le with hlt | hlast
  · refine .inl ⟨hlt, ?_⟩
    rw [if_neg (not_le.mpr hlt), if_neg hfresh]
    have hclaim := updateWhere_of (p := fun row => row.Due s.now ∧ row.attempts < 10) hrow
      ⟨hdue, hlt⟩ fun row => { row with
        leaseToken := some token
        leaseUntil := some (s.now + 30)
        attempts := row.attempts + 1 }
    simp only [claim, hkey, hclaim, if_true, Function.update_self, lookup_insert_eq, and_self]
  · refine .inr ⟨hlast, ?_⟩
    rw [if_pos hlast.ge]
    have hexhaust := updateWhere_of
      (p := fun row => row.status = .pending ∧ 10 ≤ row.attempts ∧ row.Free s.now) hrow
      ⟨hdue.1, hlast.ge, hdue.2.2⟩ fun row => { row with
        status := .requiresReview
        lastError := some "RetryBudgetExhausted"
        leaseToken := none
        leaseUntil := none }
    simp only [exhaust, hkey, hexhaust, lookup_insert_eq, if_true]

end change

/-! ## The protocol -/

/-- **The outbox protocol.** Whatever reconcilers run, from whatever snapshots, with whatever
outcomes of their calls, and die wherever, every row of every state reached

* has at most ten attempts, one for each successful claim, so that at most ten calls were made for
  its order;
* has a lease token if and only if its lease has an end;
* is changed while it is pending only, by a worker that starts on it while no lease runs or by the
  one worker that holds its token;
* holds no lease once it is closed, and never changes again;
* is claimed or put aside by a worker that reads it afresh, once it is due. -/
theorem outbox_protocol (now : ℕ) (as : List Act) (id : LongId) (row : OrderCancellation)
    (hrow : (Runs.run step (initial now) as).table.lookup id = some row) :
    let s := Runs.run step (initial now) as
    (row.attempts ≤ 10 ∧ row.attempts = (s.claims id).length ∧ (s.calls id).length ≤ 10) ∧
    (row.leaseToken = none ↔ row.leaseUntil = none) ∧
    (∀ a, (step s a).table.lookup id ≠ some row →
      row.status = .pending ∧
        ((∃ w token, a = .start w token ∧ row.Free s.now) ∨
          ∃ w entry token outcome, a = .record w ∧ s.jobs w = some (.called entry token outcome) ∧
            row.leaseToken = some token ∧ ∀ w', holds s.jobs w' = some token → w' = w)) ∧
    (∀ w entry token outcome, s.jobs w = some (.called entry token outcome) →
      entry.orderId = id → row.leaseToken ≠ some token → (step s (.record w)).table = s.table) ∧
    (row.status ≠ .pending → row.leaseToken = none ∧
      ∀ bs, (Runs.run step s bs).table.lookup id = some row) ∧
    (∀ d w token, row.status = .pending → row.nextAttemptAt ≤ s.now + d → row.Free (s.now + d) →
      s.jobs w = none → token ∉ s.used →
      let s' := Runs.run step s [.tick d, .poll w id, .start w token]
      row.attempts < 10 ∧ s'.jobs w = some (.claimed row token) ∧
          s'.table.lookup id = some { row with
            leaseToken := some token
            leaseUntil := some (s.now + d + 30)
            attempts := row.attempts + 1 } ∨
        row.attempts = 10 ∧
          s'.table.lookup id = some { row with
            status := .requiresReview
            lastError := some "RetryBudgetExhausted"
            leaseToken := none
            leaseUntil := none }) := by
  intro s
  have h : OutboxInv s := outboxInv_run now as
  have hinv := h.row id row hrow
  refine ⟨⟨hinv.attempts_le, hinv.attempts_eq, ?_⟩, hinv.lease, ?_, ?_, ?_, ?_⟩
  · obtain ⟨hnodup, hsubset⟩ := h.calls id
    calc (s.calls id).length ≤ (s.claims id).length := (hnodup.subperm hsubset).length_le
      _ = row.attempts := hinv.attempts_eq.symm
      _ ≤ 10 := hinv.attempts_le
  · intro a hne
    obtain ⟨hpending, hstart | ⟨w, entry, token, outcome, ha, hw, -, htoken⟩⟩ :=
      change_cases hrow a hne
    · exact ⟨hpending, .inl hstart⟩
    · refine ⟨hpending, .inr ⟨w, entry, token, outcome, ha, hw, htoken, fun w' hw' => ?_⟩⟩
      exact h.jobs.unique w' w token hw' (by rw [holds, hw]; rfl)
  · intro w entry token outcome hw hid hstale
    refine stale_record hw fun row' hrow' => ?_
    rw [hid] at hrow'
    obtain rfl := Option.some.inj (hrow.symm.trans hrow')
    exact hstale
  · intro hclosed
    exact ⟨hinv.closed hclosed, closed_stays hrow hclosed⟩
  · intro d w token hpending hnext hfree hw hfresh
    exact reconcile_fresh (h.step (.tick d)) hrow ⟨hpending, hnext, hfree⟩ hw hfresh

/-- The row of order `7` after its first claim. -/
def claimedRow : OrderCancellation :=
  { newRow 0 ⟨7, by decide, by decide⟩ ⟨5, by decide, by decide⟩ ⟨1, Nat.one_pos, one_le_longMax⟩ 86402000 with
    leaseToken := some "a"
    leaseUntil := some 30
    attempts := 1 }

/-- A worker that dies with its claim leaves a row that the next one can claim. -/
theorem claimedRow_protocol :
    let s := Runs.run step (initial 0) [.cancel claimedRow.orderId claimedRow.userId
      claimedRow.voucherId claimedRow.expiresAtMs, .poll 0 claimedRow.orderId, .start 0 "a", .crash 0]
    (s.claims claimedRow.orderId).length = 1 ∧
      (Runs.run step s [.tick 30, .poll 1 claimedRow.orderId, .start 1 "b"]).jobs 1 =
        some (.claimed claimedRow "b") := by
  intro s
  obtain ⟨⟨-, hclaims, -⟩, -, -, -, -, hnext⟩ := outbox_protocol 0
    [.cancel claimedRow.orderId claimedRow.userId claimedRow.voucherId claimedRow.expiresAtMs,
      .poll 0 claimedRow.orderId, .start 0 "a", .crash 0] claimedRow.orderId claimedRow rfl
  refine ⟨hclaims.symm, ?_⟩
  have hfree : claimedRow.Free 30 := by decide
  rcases hnext 30 1 "b" rfl (by decide) hfree rfl (by decide) with ⟨-, hw, -⟩ | ⟨hlast, -⟩
  · exact hw
  · exact absurd hlast (by decide)

end CampusHub.Cancellation.Outbox
