import Mathlib.Data.List.Basic

/-!
# Runs of a transition function

* `run step s as` — the state after the actions `as`, taken in order from `s`. `step` is total: an
  action whose guard fails in a state is a step that changes nothing, so every list of actions is a
  run and a statement about all lists is a statement about every interleaving.
* `Along ok step s as` — every action of the run meets `ok` in the state it is taken from.
* `run_invariant`, `run_invariant_of_along` — the induction over runs, stated once.
* `run_rel` — a reflexive and transitive relation kept by every step relates the two ends.
* `exists_step` — what holds at the end and not at the start has a step that brings it about.
* `exists_prefix` — what is kept until something comes about is lost only after it did.
* `Once P as` — `P` held after some prefix of the run.
* `trace step out s as` — the outputs of the run, one for each action.

**How it is used.** A system gives its `step` and proves a step lemma for its invariant; `run_invariant`
makes it an invariant of every reachable state, and `run_invariant_of_along` does so under a condition on
the actions, which may look at the state they are taken from. `run_rel` is the rule for what a run can only
increase, and `exists_step` and `exists_prefix` the rules for why something is so at the end of a run.

**Not here.** Runs are finite, and nothing is said about fairness: that a call returns is stated, where it
is claimed, as a bound on its own steps.
-/

namespace CampusHub.Foundations.Runs

variable {σ : Type*} {α β : Type}

/-- The state after the actions `as` from `s`. -/
def run (step : σ → α → σ) (s : σ) (as : List α) : σ := as.foldl step s

variable (step : σ → α → σ)

/-- No action leaves the state. -/
@[simp] theorem run_nil (s : σ) : run step s [] = s := rfl

/-- A run takes its first action and goes on. -/
@[simp] theorem run_cons (s : σ) (a : α) (as : List α) :
    run step s (a :: as) = run step (step s a) as := rfl

/-- A run of two lists is the run of the second after the first. -/
@[simp] theorem run_append (s : σ) (as bs : List α) :
    run step s (as ++ bs) = run step (run step s as) bs :=
  List.foldl_append

/-- Every action of the run meets `ok` in the state it is taken from. -/
def Along (ok : σ → α → Prop) (step : σ → α → σ) : σ → List α → Prop
  | _, [] => True
  | s, a :: as => ok s a ∧ Along ok step (step s a) as

/-- Along a run a decidable condition is tested step by step. -/
instance decidableAlong {ok : σ → α → Prop} [∀ s a, Decidable (ok s a)] (step : σ → α → σ) :
    ∀ (s : σ) (as : List α), Decidable (Along ok step s as)
  | _, [] => inferInstanceAs (Decidable True)
  | s, a :: as =>
    have : Decidable (Along ok step (step s a) as) := decidableAlong step (step s a) as
    inferInstanceAs (Decidable (ok s a ∧ Along ok step (step s a) as))

/-- A condition holds along two lists exactly when it holds along each from where it starts. -/
theorem along_append {ok : σ → α → Prop} : ∀ (as bs : List α) (s : σ),
    Along ok step s (as ++ bs) ↔ Along ok step s as ∧ Along ok step (run step s as) bs
  | [], _, _ => by simp only [List.nil_append, Along, run_nil, true_and]
  | a :: as, bs, s => by
      simp only [List.cons_append, Along, run_cons, along_append as bs (step s a), and_assoc]

/-- Two conditions that hold along a run hold together. -/
theorem along_and {ok good : σ → α → Prop} : ∀ (as : List α) (s : σ),
    Along ok step s as → Along good step s as → Along (fun s a => ok s a ∧ good s a) step s as
  | [], _, _, _ => trivial
  | _ :: as, _, h, h' => ⟨⟨h.1, h'.1⟩, along_and as _ h.2 h'.2⟩

/-- What holds of every step of the run, by the actions before it and after it, holds along the run. -/
theorem along_of_splits {ok : σ → α → Prop} : ∀ (as : List α) (s : σ),
    (∀ bs b cs, as = bs ++ b :: cs → ok (run step s bs) b) → Along ok step s as
  | [], _, _ => trivial
  | a :: as, s, h =>
      ⟨h [] a as rfl, along_of_splits as (step s a) fun bs b cs has => h (a :: bs) b cs (by rw [has]; rfl)⟩

/-- **Invariant rule**, with a side condition on the steps taken. -/
theorem run_invariant_of_along {ok : σ → α → Prop} {I : σ → Prop}
    (hstep : ∀ s a, I s → ok s a → I (step s a)) :
    ∀ (as : List α) (s : σ), I s → Along ok step s as → I (run step s as)
  | [], _, h, _ => h
  | a :: as, s, h, hok =>
      run_invariant_of_along hstep as (step s a) (hstep s a h hok.1) hok.2

/-- What an invariant promises of each step holds along the run. -/
theorem along_of_along {ok good : σ → α → Prop} {I : σ → Prop}
    (hstep : ∀ s a, I s → ok s a → I (step s a) ∧ good s a) :
    ∀ (as : List α) (s : σ), I s → Along ok step s as → Along good step s as
  | [], _, _, _ => trivial
  | a :: as, s, h, hok =>
      ⟨(hstep s a h hok.1).2, along_of_along hstep as (step s a) (hstep s a h hok.1).1 hok.2⟩

/-- **Invariant rule**: what every step keeps, every run keeps. -/
theorem run_invariant {I : σ → Prop} (hstep : ∀ s a, I s → I (step s a)) (as : List α) {s : σ}
    (h : I s) : I (run step s as) := by
  induction as generalizing s with
  | nil => exact h
  | cons a as ih => exact ih (hstep s a h)

/-- A side condition that does not look at the state holds along a run when it holds of every
action. -/
theorem along_of_forall {ok : α → Prop} :
    ∀ (as : List α) (s : σ), (∀ a ∈ as, ok a) → Along (fun _ a => ok a) step s as
  | [], _, _ => trivial
  | a :: as, s, h =>
      ⟨h a List.mem_cons_self, along_of_forall as (step s a)
        fun b hb => h b (List.mem_cons_of_mem a hb)⟩

/-- A reflexive, transitive relation that every step from an invariant state satisfies relates the
two ends of a run. -/
theorem run_rel {I : σ → Prop} {R : σ → σ → Prop} (hrefl : ∀ s, R s s)
    (htrans : ∀ s t u, R s t → R t u → R s u) (hI : ∀ s a, I s → I (step s a))
    (hR : ∀ s a, I s → R s (step s a)) (as : List α) {s : σ} (h : I s) : R s (run step s as) := by
  induction as generalizing s with
  | nil => exact hrefl s
  | cons a as ih => exact htrans _ _ _ (hR s a h) (ih (hI s a h))

/-- What holds at the end of a run and not at its start has a step that brings it about. -/
theorem exists_step {P : σ → Prop} (as : List α) {s : σ} (hstart : ¬ P s) (hend : P (run step s as)) :
    ∃ as₁ a as₂, as = as₁ ++ a :: as₂ ∧ ¬ P (run step s as₁) ∧ P (run step s (as₁ ++ [a])) := by
  induction as generalizing s with
  | nil => exact absurd hend hstart
  | cons a as ih =>
    by_cases hnow : P (step s a)
    · exact ⟨[], a, as, rfl, hstart, hnow⟩
    · obtain ⟨as₁, b, as₂, rfl, hbefore, hafter⟩ := ih hnow hend
      exact ⟨a :: as₁, b, as₂, rfl, hbefore, hafter⟩

/-- **Provenance rule**: what is kept as long as `Q` does not come about is lost only in a run in which `Q`
came about. -/
theorem exists_prefix {I Q : σ → Prop} (hstep : ∀ s a, I s → ¬ Q s → ¬ Q (step s a) → I (step s a))
    (as : List α) {s : σ} (hstart : I s) (hend : ¬ I (run step s as)) :
    ∃ as₁ as₂, as = as₁ ++ as₂ ∧ Q (run step s as₁) := by
  induction as generalizing s with
  | nil => exact absurd hstart hend
  | cons a as ih =>
    by_cases hbefore : Q s
    · exact ⟨[], a :: as, rfl, hbefore⟩
    by_cases hafter : Q (step s a)
    · exact ⟨[a], as, rfl, hafter⟩
    · obtain ⟨as₁, as₂, rfl, hQ⟩ := ih (hstep s a hstart hbefore hafter) hend
      exact ⟨a :: as₁, as₂, rfl, hQ⟩

/-- After some of the actions `P` held. -/
def Once (P : List α → Prop) (as : List α) : Prop := ∃ bs, bs <+: as ∧ P bs

/-- What holds at the end held after some prefix. -/
theorem once_now {P : List α → Prop} {as : List α} (h : P as) : Once P as := ⟨as, List.prefix_rfl, h⟩

/-- What held once still did once after more actions. -/
theorem Once.later {P : List α → Prop} {as : List α} (h : Once P as) (bs : List α) : Once P (as ++ bs) :=
  h.imp fun _ hP => ⟨hP.1.trans (List.prefix_append as bs), hP.2⟩

/-- The outputs of a run, one for each action. -/
def trace (step : σ → α → σ) (out : σ → α → β) : σ → List α → List β
  | _, [] => []
  | s, a :: as => out s a :: trace step out (step s a) as

end CampusHub.Foundations.Runs
