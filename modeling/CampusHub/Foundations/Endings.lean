import CampusHub.Foundations.Serializability

/-!
# How transactions end

* `World.Orderly` — a call that runs has not returned, and there is nothing of a call that has not begun.
* `World.Ended` — a transaction whose program is over and that has written nothing: it returns its result,
  or fails to commit, and no step of it changes the tables or the store.
* `World.store_step` — the store outside changes by the commands of running transactions only.
* `Txn.Silent` — a program without commands.

These are the statements about single transactions that need no discipline of the others. `Ended` is for a
call whose first locked read has told it to stop: nothing that anybody does later changes its result, and
none of its own further steps touches the tables or the store (`Ended.idle_run`, `Ended.idle_fail`).
`store_step` is for the commands: a change of the store outside has a running transaction that sent it.

**Proof route.** `runTask_cases` and `failTask_cases` say once what a step or a failure can do to the
transaction that makes it; every lemma is a case analysis over them and over whose step it is.

**Not here.** That a transaction comes to its end: one that waits for a row may wait for as long as its
holder runs.
-/

namespace CampusHub.Foundations.Transactions

section silent

variable {σ ρ ν ε α β : Type}

/-- The program sends no command. -/
def Txn.Silent : Txn σ ρ ν ε α → Prop
  | .done _ => True
  | .select _ next => ∀ v, (next v).Silent
  | .exec _ _ next => ∀ v, (next v).Silent
  | .send _ _ => False

/-- Two silent programs in a row are silent. -/
theorem Txn.Silent.bind {p : Txn σ ρ ν ε α} {f : α → Txn σ ρ ν ε β} (hp : p.Silent)
    (hf : ∀ a, (f a).Silent) : (p >>= f).Silent := by
  induction p with
  | done r =>
    cases r with
    | ok a => exact hf a
    | error e => trivial
  | select query next ih => exact fun v => ih v (hp v)
  | exec row statement next ih => exact fun v => ih v (hp v)
  | send command next ih => exact hp.elim

end silent

end CampusHub.Foundations.Transactions

namespace CampusHub.Foundations.Transactions.World

open CampusHub.Foundations.Maps

variable {κ σ ρ ν ε α : Type} [DecidableEq ρ] {S : System κ σ ρ ν ε α} {w : World κ σ ρ ν ε α}
  {i : ℕ} {r : Except ε α}

/-- What a step of a running transaction can do to it and to the store, unless it commits. -/
theorem runTask_cases (t : Task σ ρ ν ε α) (hi : w.tasks i = some t) :
    (∃ r, t.program = .done r ∧ (w.runTask i t).tasks = Function.update w.tasks i none ∧
      (w.runTask i t).results = Function.update w.results i (some r) ∧
      (w.runTask i t).store = w.store) ∨
    ((∀ r, t.program ≠ .done r) ∧ (w.runTask i t).results = w.results ∧
      ∃ t', (w.runTask i t).tasks = Function.update w.tasks i (some t')) := by
  unfold runTask
  cases hp : t.program with
  | done r =>
    cases r with
    | ok a => exact .inl ⟨_, rfl, rfl, rfl, rfl⟩
    | error e => exact .inl ⟨_, rfl, rfl, rfl, rfl⟩
  | select query next => exact .inr ⟨fun _ h => (by cases h), rfl, _, rfl⟩
  | exec row statement next =>
    dsimp only
    split
    · exact .inr ⟨fun _ h => (by cases h), rfl, t, (Function.update_eq_self_iff.mpr hi.symm).symm⟩
    · exact .inr ⟨fun _ h => (by cases h), rfl, _, rfl⟩
  | send command next => exact .inr ⟨fun _ h => (by cases h), rfl, _, rfl⟩

/-- A statement that answers `a`. -/
theorem runTask_exec {t : Task σ ρ ν ε α} {β : Type} {row : ρ} {statement : σ → Answer σ β}
    {next : β → Txn σ ρ ν ε α} {a : Answer σ β} (hp : t.program = .exec row statement next)
    (ha : statement (t.write w.tables) = a) :
    w.runTask i t = if w.blocked i row then w else w.setTask i
      { t with
        program := next a.value
        write := a.write ∘ t.write
        held := if a.held then row :: t.held else t.held } := by
  subst ha
  unfold runTask
  rw [hp]

/-- A step of a transaction begins no call. -/
theorem calls_runTask (t : Task σ ρ ν ε α) : (w.runTask i t).calls = w.calls := by
  unfold runTask
  split <;> try rfl
  split <;> rfl

omit [DecidableEq ρ] in
/-- What a failure can do to a running transaction. -/
theorem failTask_cases (c : κ) (t : Task σ ρ ν ε α) (sent : Bool) (hi : w.tasks i = some t) :
    (w.failTask S i c t sent).calls = w.calls ∧ (w.failTask S i c t sent).results = w.results ∧
      ∃ t', (w.failTask S i c t sent).tasks = Function.update w.tasks i (some t') := by
  unfold failTask
  cases hp : t.program with
  | done r =>
    cases r with
    | ok a => exact ⟨rfl, rfl, _, rfl⟩
    | error e => exact ⟨rfl, rfl, t, (Function.update_eq_self_iff.mpr hi.symm).symm⟩
  | select query next => exact ⟨rfl, rfl, _, rfl⟩
  | exec row statement next => exact ⟨rfl, rfl, _, rfl⟩
  | send command next => exact ⟨rfl, rfl, _, rfl⟩

/-! ## Calls that run, and calls that returned -/

/-- A call that runs has not returned, and there is nothing of a call that has not begun. -/
structure Orderly (w : World κ σ ρ ν ε α) : Prop where
  running : ∀ i t, w.tasks i = some t → w.results i = none
  begun : ∀ i, w.calls.length ≤ i → w.tasks i = none ∧ w.results i = none

omit [DecidableEq ρ] in
/-- Before anybody has called. -/
theorem orderly_initial (s : σ) (v : ν) : Orderly (initial s v : World κ σ ρ ν ε α) :=
  ⟨fun _ _ _ => rfl, fun _ _ => ⟨rfl, rfl⟩⟩

omit [DecidableEq ρ] in
/-- A call that runs has begun. -/
theorem Orderly.lt_length (h : Orderly w) {t : Task σ ρ ν ε α} (hi : w.tasks i = some t) :
    i < w.calls.length := by
  by_contra hge
  rw [(h.begun i (Nat.le_of_not_lt hge)).1] at hi
  cases hi

omit [DecidableEq ρ] in
/-- A transaction goes on. -/
theorem Orderly.put {w' : World κ σ ρ ν ε α} (h : Orderly w) {t t' : Task σ ρ ν ε α}
    (hi : w.tasks i = some t) (hcalls : w'.calls = w.calls) (hresults : w'.results = w.results)
    (htasks : w'.tasks = Function.update w.tasks i (some t')) : Orderly w' := by
  refine ⟨fun j u hj => ?_, fun j hj => ?_⟩
  · rw [htasks] at hj
    rw [hresults]
    rcases entry_of_update hj with ⟨rfl, -⟩ | ⟨-, hj⟩
    · exact h.running j t hi
    · exact h.running j u hj
  · rw [hcalls] at hj
    rw [htasks, hresults, Function.update_of_ne]
    · exact h.begun j hj
    · exact Nat.ne_of_gt (Nat.lt_of_lt_of_le (h.lt_length hi) hj)

/-- Every step keeps the calls in order. -/
theorem Orderly.step (h : Orderly w) (a : Act κ) : Orderly (w.step S a) := by
  cases a with
  | start c =>
    simp only [World.step]
    split
    · refine ⟨fun j u hj => ?_, fun j hj => ?_⟩
      · rcases entry_of_update hj with ⟨rfl, -⟩ | ⟨-, hj⟩
        · exact (h.begun _ (Nat.le_refl _)).2
        · exact h.running j u hj
      · simp only [List.length_append, List.length_singleton] at hj
        dsimp only
        rw [Function.update_of_ne (Nat.ne_of_gt hj)]
        exact h.begun j (Nat.le_of_succ_le hj)
    · exact h
  | run i =>
    simp only [World.step]
    split
    · rename_i t hi
      rcases runTask_cases t hi with ⟨r, -, htasks, hresults, -⟩ | ⟨-, hresults, t', htasks⟩
      · refine ⟨fun j u hj => ?_, fun j hj => ?_⟩
        · rw [htasks] at hj
          obtain ⟨hji, hj⟩ := entry_of_erase hj
          rw [hresults, Function.update_of_ne hji]
          exact h.running j u hj
        · rw [calls_runTask] at hj
          have hji : j ≠ i := Nat.ne_of_gt (Nat.lt_of_lt_of_le (h.lt_length hi) hj)
          rw [htasks, hresults, Function.update_of_ne hji, Function.update_of_ne hji]
          exact h.begun j hj
      · exact h.put hi (calls_runTask t) hresults htasks
    · exact h
  | fail i sent =>
    simp only [World.step]
    split
    · rename_i t c hi hc
      obtain ⟨hcalls, hresults, t', htasks⟩ := failTask_cases (S := S) c t sent hi
      exact h.put hi hcalls hresults htasks
    · exact h
  | crash i =>
    refine ⟨fun j u hj => h.running j u (entry_of_erase hj).2, fun j hj => ⟨?_, (h.begun j hj).2⟩⟩
    show Function.update w.tasks i none j = none
    by_cases hji : j = i
    · rw [hji, Function.update_self]
    · rw [Function.update_of_ne hji]
      exact (h.begun j hj).1

/-- What a call has returned stays. -/
theorem Orderly.results_step (h : Orderly w) (a : Act κ) {r : Except ε α} (hr : w.results i = some r) :
    (w.step S a).results i = some r := by
  cases a with
  | start c =>
    simp only [World.step]
    split <;> exact hr
  | run j =>
    simp only [World.step]
    split
    · rename_i t hj
      rcases runTask_cases t hj with ⟨r', -, -, hresults, -⟩ | ⟨-, hresults, -⟩
      · rw [hresults, Function.update_of_ne, hr]
        rintro rfl
        rw [h.running i t hj] at hr
        cases hr
      · rw [hresults, hr]
    · exact hr
  | fail j sent =>
    simp only [World.step]
    split
    · rename_i t c hj hc
      rw [(failTask_cases (S := S) c t sent hj).2.1, hr]
    · exact hr
  | crash j => exact hr

/-! ## Transactions at their end -/

/-- The program of a transaction is over with `r`, and it has written nothing; or it has returned so, or
died. A success may still fail to commit. -/
structure Ended (S : System κ σ ρ ν ε α) (w : World κ σ ρ ν ε α) (i : ℕ) (r : Except ε α) : Prop where
  known : i < w.calls.length
  task : ∀ t, w.tasks i = some t → t.write = id ∧
    (t.program = .done r ∨ (∃ a, r = .ok a) ∧ t.program = .done (.error S.lost))
  result : ∀ r', w.results i = some r' → r' = r ∨ (∃ a, r = .ok a) ∧ r' = .error S.lost

omit [DecidableEq ρ] in
/-- The steps of other calls. -/
theorem Ended.frame {w' : World κ σ ρ ν ε α} (h : Ended S w i r)
    (hcalls : w.calls.length ≤ w'.calls.length) (htasks : w'.tasks i = w.tasks i)
    (hresults : w'.results i = w.results i) : Ended S w' i r :=
  ⟨Nat.lt_of_lt_of_le h.known hcalls, htasks ▸ h.task, hresults ▸ h.result⟩

/-- **What has ended stays so.** -/
theorem Ended.step (h : Ended S w i r) (a : Act κ) : Ended S (w.step S a) i r := by
  cases a with
  | start c =>
    simp only [World.step]
    split
    · refine h.frame (by simp) ?_ rfl
      exact Function.update_of_ne (Nat.ne_of_lt h.known) ..
    · exact h
  | run j =>
    simp only [World.step]
    split
    · rename_i t hj
      rcases runTask_cases t hj with ⟨r', hp, htasks, hresults, -⟩ | ⟨hruns, hresults, t', htasks⟩
      · by_cases hij : i = j
        · subst hij
          refine ⟨(calls_runTask t).symm ▸ h.known, fun u hu => ?_, fun r'' hr => ?_⟩
          · rw [htasks] at hu
            exact absurd rfl (entry_of_erase hu).1
          · rw [hresults, Function.update_self] at hr
            obtain rfl := Option.some.inj hr
            obtain ⟨-, hdone | ⟨hok, hdone⟩⟩ := h.task t hj
            · exact .inl (Txn.done.inj (hp.symm.trans hdone))
            · exact .inr ⟨hok, Txn.done.inj (hp.symm.trans hdone)⟩
        · refine h.frame (Nat.le_of_eq (congrArg _ (calls_runTask t).symm)) ?_ ?_
          · rw [htasks, Function.update_of_ne hij]
          · rw [hresults, Function.update_of_ne hij]
      · by_cases hij : i = j
        · subst hij
          obtain ⟨-, hdone | ⟨-, hdone⟩⟩ := h.task t hj <;> exact absurd hdone (hruns _)
        · refine h.frame (Nat.le_of_eq (congrArg _ (calls_runTask t).symm)) ?_ (congrFun hresults i)
          rw [htasks, Function.update_of_ne hij]
    · exact h
  | fail j sent =>
    simp only [World.step]
    split
    · rename_i t c hj hc
      obtain ⟨hcalls, hresults, t', htasks⟩ := failTask_cases (S := S) c t sent hj
      by_cases hij : i = j
      · subst hij
        refine ⟨hcalls.symm ▸ h.known, fun u hu => ?_, hresults.symm ▸ h.result⟩
        obtain ⟨hwrite, hdone⟩ := h.task t hj
        unfold failTask at hu
        rcases hdone with hdone | ⟨hok, hdone⟩
        · rw [hdone] at hu
          cases r with
          | ok a =>
            rcases entry_of_update hu with ⟨-, rfl⟩ | ⟨hne, -⟩
            · exact ⟨hwrite, .inr ⟨⟨a, rfl⟩, rfl⟩⟩
            · exact absurd rfl hne
          | error e => exact h.task u hu
        · rw [hdone] at hu
          exact h.task u hu
      · refine h.frame (Nat.le_of_eq (congrArg _ hcalls.symm)) ?_ (congrFun hresults i)
        rw [htasks, Function.update_of_ne hij]
    · exact h
  | crash j =>
    by_cases hij : i = j
    · subst hij
      refine ⟨h.known, fun u hu => ?_, h.result⟩
      exact absurd rfl (entry_of_erase hu).1
    · exact h.frame (Nat.le_refl _) (Function.update_of_ne hij ..) rfl

/-- What has ended stays so in every run. -/
theorem Ended.run (h : Ended S w i r) (as : List (Act κ)) : Ended S (Runs.run (World.step S) w as) i r :=
  Runs.run_invariant (I := fun w => Ended S w i r) _ (fun _ a h => h.step a) as h

/-- The next step of a transaction that has ended changes neither the tables nor the store. -/
theorem Ended.idle_run (h : Ended S w i r) :
    (w.step S (.run i)).tables = w.tables ∧ (w.step S (.run i)).store = w.store := by
  simp only [World.step]
  split
  · rename_i t hi
    obtain ⟨hwrite, hdone⟩ := h.task t hi
    obtain ⟨r', hp⟩ : ∃ r', t.program = .done r' := hdone.elim (fun h => ⟨_, h⟩) fun h => ⟨_, h.2⟩
    unfold runTask
    rw [hp]
    cases r' with
    | ok a =>
      dsimp only
      rw [hwrite]
      exact ⟨rfl, rfl⟩
    | error e => exact ⟨rfl, rfl⟩
  · exact ⟨rfl, rfl⟩

/-- A failure of a transaction that has ended changes neither the tables nor the store. -/
theorem Ended.idle_fail (h : Ended S w i r) (sent : Bool) :
    (w.step S (.fail i sent)).tables = w.tables ∧ (w.step S (.fail i sent)).store = w.store := by
  simp only [World.step]
  split
  · rename_i t c hi hc
    obtain ⟨-, hdone⟩ := h.task t hi
    obtain ⟨r', hp⟩ : ∃ r', t.program = .done r' := hdone.elim (fun h => ⟨_, h⟩) fun h => ⟨_, h.2⟩
    unfold failTask
    rw [hp]
    cases r' with
    | ok a => exact ⟨rfl, rfl⟩
    | error e => exact ⟨rfl, rfl⟩
  · exact ⟨rfl, rfl⟩

/-- A statement that ends its transaction. -/
theorem ended_of_exec (h : Orderly w) {t : Task σ ρ ν ε α} {β : Type} {row : ρ}
    {statement : σ → Answer σ β} {next : β → Txn σ ρ ν ε α} (hi : w.tasks i = some t)
    (hp : t.program = .exec row statement next) (hfree : w.blocked i row = false)
    (hdone : next (statement (t.write w.tables)).value = .done r)
    (hwrite : (statement (t.write w.tables)).write ∘ t.write = id) :
    Ended S (w.step S (.run i)) i r ∧ (w.step S (.run i)).tables = w.tables ∧
      (w.step S (.run i)).store = w.store := by
  simp only [World.step, hi, runTask, hp, hfree, Bool.false_eq_true, if_false]
  refine ⟨⟨h.lt_length hi, fun u hu => ?_, fun r' hr' => ?_⟩, rfl, rfl⟩
  · rcases entry_of_update hu with ⟨-, rfl⟩ | ⟨hne, -⟩
    · exact ⟨hwrite, .inl hdone⟩
    · exact absurd rfl hne
  · have hnone : w.results i = some r' := hr'
    rw [h.running i t hi] at hnone
    cases hnone

/-! ## The store -/

/-- The store changes by the commands of running transactions, and by nothing else. -/
theorem store_step (a : Act κ) : (w.step S a).store = w.store ∨
    ∃ (i : ℕ) (t : Task σ ρ ν ε α) (β : Type) (command : ν → β × ν) (next : β → Txn σ ρ ν ε α),
      w.tasks i = some t ∧ t.program = .send command next ∧
        (w.step S a).store = (command w.store).2 := by
  cases a with
  | start c =>
    simp only [World.step]
    split <;> exact .inl rfl
  | run i =>
    simp only [World.step]
    split
    · rename_i t hi
      unfold runTask
      cases hp : t.program with
      | done r => cases r <;> exact .inl rfl
      | select query next => exact .inl rfl
      | exec row statement next =>
        dsimp only
        split <;> exact .inl rfl
      | send command next => exact .inr ⟨i, t, _, command, next, hi, hp, rfl⟩
    · exact .inl rfl
  | fail i sent =>
    simp only [World.step]
    split
    · rename_i t c hi hc
      unfold failTask
      cases hp : t.program with
      | done r => cases r <;> exact .inl rfl
      | select query next => exact .inl rfl
      | exec row statement next => exact .inl rfl
      | send command next =>
        cases sent with
        | true => exact .inr ⟨i, t, _, command, next, hi, hp, rfl⟩
        | false => exact .inl rfl
    · exact .inl rfl
  | crash i => exact .inl rfl

end CampusHub.Foundations.Transactions.World
