import CampusHub.Foundations.Maps
import CampusHub.Foundations.Runs

/-!
# Calls over a shared store

* `System` — how a call starts and moves over a store, and how the surroundings change the store.
* `Pool`, `PoolAct`, `System.step` — the store and the calls under way, each move being one step, so that
  the calls interleave anywhere.
* `Fate` — what becomes of a call of the store.
* `Asserts`, `Asserts.step` — what a move keeps for its own call and does not take from the others is
  kept.
* `Pairs`, `Pairs.step` — what holds of any two calls.
* `Section`, `Section.step` — a resource that is in order while nobody is in the critical section, and of
  which the one inside knows how far it is out of order.

Unlike `Foundations.Programs`, where a call is a program text, a call here is a state of its own type that
the system moves; a service whose calls have a handful of stages is easier to follow in this form. The three
kinds of assertion are the three ways in which such services are argued about: each call knows something
about the store that the others keep (`Asserts`), any two calls stand in a relation (`Pairs`), or a resource
is out of order only while one call is inside (`Section`).

**Proof route.** `System.step_cases` says that a step is nothing, a start, a move or a change of the
surroundings, and every rule is proved by these cases.

**Not here.** A pool has no queue and no scheduler: any call may move at any time, and a call that is never
moved stays where it is.
-/

namespace CampusHub.Foundations.Pools

open CampusHub.Foundations.Maps

/-- What becomes of a call of the store: it is answered; it is done, and the answer is lost; or it is not
done, and the caller is told so. -/
inductive Fate where
  | answered | lost | failed
  deriving DecidableEq

/-- The call is done. -/
def Fate.happens : Fate → Bool
  | .failed => false
  | _ => true

/-- The store after a call of it. -/
def Fate.perform {σ : Type} (fate : Fate) (f : σ → σ) (s : σ) : σ := if fate.happens then f s else s

/-- A call that is answered is done. -/
@[simp] theorem Fate.perform_answered {σ : Type} (f : σ → σ) (s : σ) : Fate.perform .answered f s = f s :=
  rfl

/-- What the call does and what leaves the store alone hold both ways. -/
theorem Fate.perform_cases {σ : Type} (fate : Fate) (f : σ → σ) (s : σ) :
    fate.perform f s = f s ∨ fate.perform f s = s := by
  unfold Fate.perform
  split
  · exact .inl rfl
  · exact .inr rfl

/-- Calls `τ` for requests `ρ` over a store `σ`. How a call moves also depends on a choice `δ`, and the
surroundings change the store in the ways `ε`. -/
structure System (σ ρ τ δ ε : Type) where
  enter : σ → ρ → τ
  move : δ → σ → τ → σ × τ
  drift : ε → σ → σ

/-- The store and the calls. -/
structure Pool (σ τ : Type) where
  store : σ
  calls : ℕ → Option τ

/-- The steps: a call starts, a call moves, the surroundings change the store. -/
inductive PoolAct (ρ δ ε : Type) where
  | enter (i : ℕ) (r : ρ)
  | move (i : ℕ) (d : δ)
  | drift (e : ε)

variable {σ ρ τ δ ε : Type}

/-- The number of the call that starts or moves. -/
def PoolAct.call : PoolAct ρ δ ε → Option ℕ
  | .enter i _ | .move i _ => some i
  | .drift _ => none

/-- The next state; a call starts under a number that is free. -/
def System.step (S : System σ ρ τ δ ε) (p : Pool σ τ) : PoolAct ρ δ ε → Pool σ τ
  | .enter i r =>
    match p.calls i with
    | none => { p with calls := Function.update p.calls i (some (S.enter p.store r)) }
    | some _ => p
  | .move i d =>
    match p.calls i with
    | some t =>
      { store := (S.move d p.store t).1
        calls := Function.update p.calls i (some (S.move d p.store t).2) }
    | none => p
  | .drift e => { p with store := S.drift e p.store }

/-- No call is under way. -/
def Pool.idle (s : σ) : Pool σ τ := ⟨s, fun _ => none⟩

section steps

variable (S : System σ ρ τ δ ε) {p : Pool σ τ} {i : ℕ} {r : ρ} {d : δ} {t : τ}

/-- A call starts under a number that is free. -/
theorem System.step_enter (h : p.calls i = none) :
    S.step p (.enter i r) =
      { p with calls := Function.update p.calls i (some (S.enter p.store r)) } := by
  simp only [System.step, h]

/-- A call that is under way moves, and the store with it. -/
theorem System.step_move (h : p.calls i = some t) :
    S.step p (.move i d) =
      { store := (S.move d p.store t).1
        calls := Function.update p.calls i (some (S.move d p.store t).2) } := by
  simp only [System.step, h]

/-- **What a step does**: nothing, or one of the three. -/
theorem System.step_cases (p : Pool σ τ) (a : PoolAct ρ δ ε) :
    S.step p a = p ∨
      (∃ i r, a = .enter i r ∧ p.calls i = none ∧ S.step p a =
        { p with calls := Function.update p.calls i (some (S.enter p.store r)) }) ∨
      (∃ i d t, a = .move i d ∧ p.calls i = some t ∧ S.step p a =
        { store := (S.move d p.store t).1
          calls := Function.update p.calls i (some (S.move d p.store t).2) }) ∨
      ∃ e, a = .drift e ∧ S.step p a = { p with store := S.drift e p.store } := by
  cases a with
  | enter i r =>
    cases h : p.calls i with
    | none => exact .inr (.inl ⟨i, r, rfl, h, S.step_enter h⟩)
    | some t => exact .inl (by simp only [System.step, h])
  | move i d =>
    cases h : p.calls i with
    | none => exact .inl (by simp only [System.step, h])
    | some t => exact .inr (.inr (.inl ⟨i, d, t, rfl, h, S.step_move h⟩))
  | drift e => exact .inr (.inr (.inr ⟨e, rfl, rfl⟩))

/-- A step leaves the other calls alone. -/
theorem System.calls_step {a : PoolAct ρ δ ε} (h : a.call ≠ some i) : (S.step p a).calls i = p.calls i := by
  rcases S.step_cases p a with hstep | ⟨j, r, rfl, -, hstep⟩ | ⟨j, d, t, rfl, -, hstep⟩ | ⟨e, -, hstep⟩
  · rw [hstep]
  · rw [hstep]
    exact Function.update_of_ne (fun heq => h (by rw [heq]; rfl)) ..
  · rw [hstep]
    exact Function.update_of_ne (fun heq => h (by rw [heq]; rfl)) ..
  · rw [hstep]

/-- A run leaves a call alone that it does not move. -/
theorem System.calls_run {as : List (PoolAct ρ δ ε)} (h : ∀ a ∈ as, a.call ≠ some i) :
    (Runs.run S.step p as).calls i = p.calls i := by
  induction as generalizing p with
  | nil => rfl
  | cons a as ih =>
    rw [Runs.run_cons, ih fun b hb => h b (List.mem_cons_of_mem a hb), S.calls_step (h a List.mem_cons_self)]

end steps

/-! ## Assertions about the store and the calls -/

/-- The store is in order, and every call is where it may be. -/
structure Asserts (I : σ → Prop) (J : σ → τ → Prop) (p : Pool σ τ) : Prop where
  store : I p.store
  calls : ∀ i t, p.calls i = some t → J p.store t

section asserts

variable {S : System σ ρ τ δ ε} {I : σ → Prop} {J : σ → τ → Prop}

/-- Before the first call the store has to be in order, and nothing else. -/
theorem asserts_idle {s : σ} (h : I s) : Asserts I J (Pool.idle s) := ⟨h, fun _ _ ht => by cases ht⟩

/-- **A move keeps what it asserts of its own call and what it does not take from the others.** -/
theorem Asserts.step {p : Pool σ τ} (h : Asserts I J p) {a : PoolAct ρ δ ε}
    (henter : ∀ i r, a = .enter i r → J p.store (S.enter p.store r))
    (hmove : ∀ i d t, a = .move i d → p.calls i = some t →
      I (S.move d p.store t).1 ∧ J (S.move d p.store t).1 (S.move d p.store t).2 ∧
        ∀ j u, j ≠ i → p.calls j = some u → J (S.move d p.store t).1 u)
    (hdrift : ∀ e, a = .drift e →
      I (S.drift e p.store) ∧ ∀ i t, p.calls i = some t → J (S.drift e p.store) t) :
    Asserts I J (S.step p a) := by
  rcases S.step_cases p a with hstep | ⟨i, r, ha, -, hstep⟩ | ⟨i, d, t, ha, ht, hstep⟩ | ⟨e, ha, hstep⟩
  · rwa [hstep]
  · rw [hstep]
    refine ⟨h.store, fun j u hu => ?_⟩
    rcases entry_of_update hu with ⟨rfl, rfl⟩ | ⟨-, hold⟩
    · exact henter j r ha
    · exact h.calls j u hold
  · rw [hstep]
    obtain ⟨hI, hown, hothers⟩ := hmove i d t ha ht
    refine ⟨hI, fun j u hu => ?_⟩
    rcases entry_of_update hu with ⟨rfl, rfl⟩ | ⟨hj, hold⟩
    · exact hown
    · exact hothers j u hj hold
  · rw [hstep]
    obtain ⟨hI, hcalls⟩ := hdrift e ha
    exact ⟨hI, hcalls⟩

/-- The same for calls whose assertions nobody can take from them: assertions that every move and every
change of the surroundings keeps. -/
theorem Asserts.run_stable (henter : ∀ s r, I s → J s (S.enter s r))
    (hmove : ∀ d s t, I s → J s t →
      I (S.move d s t).1 ∧ J (S.move d s t).1 (S.move d s t).2 ∧
        ∀ u, J s u → J (S.move d s t).1 u)
    (hdrift : ∀ e s, I s → I (S.drift e s) ∧ ∀ t, J s t → J (S.drift e s) t)
    (as : List (PoolAct ρ δ ε)) {p : Pool σ τ} (h : Asserts I J p) :
    Asserts I J (Runs.run S.step p as) := by
  refine Runs.run_invariant S.step (fun p a hp => ?_) as h
  refine hp.step (fun i r _ => henter p.store r hp.store) (fun i d t _ ht => ?_) fun e _ => ?_
  · obtain ⟨hI, hown, hothers⟩ := hmove d p.store t hp.store (hp.calls i t ht)
    exact ⟨hI, hown, fun j u _ hu => hothers u (hp.calls j u hu)⟩
  · obtain ⟨hI, hcalls⟩ := hdrift e p.store hp.store
    exact ⟨hI, fun i t ht => hcalls t (hp.calls i t ht)⟩

end asserts

/-! ## Assertions about two calls -/

/-- Any two calls are related. -/
def Pairs (K : τ → τ → Prop) (p : Pool σ τ) : Prop :=
  ∀ i j t u, i ≠ j → p.calls i = some t → p.calls j = some u → K t u

section pairs

variable {S : System σ ρ τ δ ε} {K : τ → τ → Prop}

/-- Before the first call there are no two calls. -/
theorem pairs_idle {s : σ} : Pairs K (Pool.idle s : Pool σ τ) := fun _ _ _ _ _ ht => by cases ht

/-- One call at another place: its relation to the others has to be proved, and no other. -/
theorem Pairs.replace {p : Pool σ τ} (h : Pairs K p) (hsymm : ∀ t u, K t u → K u t) {i : ℕ} {t : τ}
    (s : σ) (hnew : ∀ j u, j ≠ i → p.calls j = some u → K t u) :
    Pairs K ⟨s, Function.update p.calls i (some t)⟩ := by
  intro j k u v hjk hu hv
  rcases entry_of_update hu with ⟨rfl, rfl⟩ | ⟨hj, hold⟩
  · rcases entry_of_update hv with ⟨rfl, -⟩ | ⟨hk, hold⟩
    · exact absurd rfl hjk
    · exact hnew k v hk hold
  · rcases entry_of_update hv with ⟨rfl, rfl⟩ | ⟨-, hold'⟩
    · exact hsymm _ _ (hnew j u hj hold)
    · exact h j k u v hjk hold hold'

/-- A step keeps what is asserted of two calls if the call that starts or moves is related to the others. -/
theorem Pairs.step {p : Pool σ τ} (h : Pairs K p) (hsymm : ∀ t u, K t u → K u t) {a : PoolAct ρ δ ε}
    (henter : ∀ i r, a = .enter i r → ∀ j u, j ≠ i → p.calls j = some u → K (S.enter p.store r) u)
    (hmove : ∀ i d t, a = .move i d → p.calls i = some t →
      ∀ j u, j ≠ i → p.calls j = some u → K (S.move d p.store t).2 u) :
    Pairs K (S.step p a) := by
  rcases S.step_cases p a with hstep | ⟨i, r, ha, -, hstep⟩ | ⟨i, d, t, ha, ht, hstep⟩ | ⟨e, -, hstep⟩
  · rwa [hstep]
  · rw [hstep]
    exact h.replace hsymm _ (henter i r ha)
  · rw [hstep]
    exact h.replace hsymm _ (hmove i d t ha ht)
  · rwa [hstep]

end pairs

/-! ## Critical sections -/

/-- **A critical section.** At most one call is inside; the resource meets `R` while nobody is, and a call
knows `J` of it. -/
structure Section (inside : τ → Prop) (R : σ → Prop) (J : σ → τ → Prop) (p : Pool σ τ) : Prop where
  single : ∀ i j t u, p.calls i = some t → p.calls j = some u → inside t → inside u → i = j
  calls : ∀ i t, p.calls i = some t → J p.store t
  rest : (∀ i t, p.calls i = some t → ¬ inside t) → R p.store

section sections

variable {S : System σ ρ τ δ ε} {inside : τ → Prop} {R : σ → Prop} {J : σ → τ → Prop} {p : Pool σ τ}

/-- Nobody else is inside. -/
def Alone (inside : τ → Prop) (p : Pool σ τ) (i : ℕ) : Prop :=
  ∀ j u, j ≠ i → p.calls j = some u → ¬ inside u

/-- One call at another place, over another store. -/
theorem Section.replace (h : Section inside R J p) {i : ℕ} {s : σ} {t : τ}
    (halone : inside t → Alone inside p i) (hown : J s t)
    (hothers : ∀ j u, j ≠ i → p.calls j = some u → J s u)
    (hrest : ¬ inside t → Alone inside p i → R s) :
    Section inside R J ⟨s, Function.update p.calls i (some t)⟩ := by
  refine ⟨fun j k u v hu hv hinu hinv => ?_, fun j u hu => ?_, fun hnobody => ?_⟩
  · rcases entry_of_update hu with ⟨rfl, rfl⟩ | ⟨hj, hold⟩
    · rcases entry_of_update hv with ⟨rfl, rfl⟩ | ⟨hk, hold⟩
      · rfl
      · exact absurd hinv (halone hinu k v hk hold)
    · rcases entry_of_update hv with ⟨rfl, rfl⟩ | ⟨-, hold'⟩
      · exact absurd hinu (halone hinv j u hj hold)
      · exact h.single j k u v hold hold' hinu hinv
  · rcases entry_of_update hu with ⟨rfl, rfl⟩ | ⟨hj, hu⟩
    · exact hown
    · exact hothers j u hj hu
  · refine hrest (hnobody i t (Function.update_self ..)) fun j u hj hu => hnobody j u ?_
    exact (Function.update_of_ne hj ..).trans hu

/-- **A step keeps the section** if a call goes in only when nobody is there, leaves the resource in order
when it goes out, and does not touch it outside. -/
theorem Section.step (h : Section inside R J p) {a : PoolAct ρ δ ε}
    (henter : ∀ i r, a = .enter i r → (inside (S.enter p.store r) → Alone inside p i) ∧
      J p.store (S.enter p.store r))
    (hmove : ∀ i d t, a = .move i d → p.calls i = some t →
      let s' := (S.move d p.store t).1
      let t' := (S.move d p.store t).2
      (inside t' → ¬ inside t → Alone inside p i) ∧ J s' t' ∧
        (∀ j u, j ≠ i → p.calls j = some u → J s' u) ∧
        (¬ inside t' → inside t ∨ R p.store → Alone inside p i → R s'))
    (hdrift : ∀ e, a = .drift e → (R p.store → R (S.drift e p.store)) ∧
      ∀ i t, p.calls i = some t → J (S.drift e p.store) t) :
    Section inside R J (S.step p a) := by
  rcases S.step_cases p a with hstep | ⟨i, r, ha, hnone, hstep⟩ | ⟨i, d, t, ha, ht, hstep⟩ | ⟨e, ha, hstep⟩
  · rwa [hstep]
  · rw [hstep]
    obtain ⟨halone, hown⟩ := henter i r ha
    refine h.replace halone hown (fun j u _ hu => h.calls j u hu) fun _ hothers => h.rest ?_
    intro j u hu
    refine hothers j u ?_ hu
    rintro rfl
    rw [hnone] at hu
    cases hu
  · rw [hstep]
    obtain ⟨halone, hown, hothers, hout⟩ := hmove i d t ha ht
    refine h.replace (fun hin => ?_) hown hothers fun hnot hclear => hout hnot ?_ hclear
    · by_cases hbefore : inside t
      · intro j u hj hu hinu
        exact hj (h.single j i u t hu ht hinu hbefore)
      · exact halone hin hbefore
    · by_cases hbefore : inside t
      · exact .inl hbefore
      · refine .inr (h.rest fun j u hu => ?_)
        by_cases hj : j = i
        · subst hj
          rw [ht, Option.some.injEq] at hu
          exact hu ▸ hbefore
        · exact hclear j u hj hu
  · rw [hstep]
    obtain ⟨hR, hcalls⟩ := hdrift e ha
    exact ⟨h.single, hcalls, fun hnobody => hR (h.rest hnobody)⟩

end sections

end CampusHub.Foundations.Pools
