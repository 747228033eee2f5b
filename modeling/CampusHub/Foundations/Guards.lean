import Mathlib.Init

/-!
# Early returns as guards

A routine that checks its input and returns as soon as a check fails is a `do` block in
`Except ρ`, where `ρ` is the type of what it returns early: `ensure c r` is "if not `c` then return
`r`", `getOr o r` reads an optional value or returns `r`, `absentOr o f` returns `f a` when a value
`a` is there. The inversion lemmas turn a block that ran to its end into the conjunction of its
checks, and a block that returned early into the check that failed; `Raises P x` bounds the values
that `x` can return early.

**What is proved.** For each of the three guards, when a block that starts with it ends well
(`ensure_bind_eq_ok`, `getOr_bind_eq_ok`, `absentOr_bind_eq_ok`) and when it returns early
(`ensure_bind_eq_error` and its siblings). All of these are `simp` lemmas, so `simp at h` on a block that
ended turns it into the list of its checks.

**How it is used.** A spec lemma of a script or a service unfolds the routine once, rewrites with these
rules and names the checks; no caller unfolds the routine again. `Raises` is for the opposite question,
which refusals a routine can answer at all, and its rules follow the same three shapes.

**Not here.** Loops and state are not part of a block: the scripts return a plan of commands, and the
services pass their state explicitly.
-/

namespace CampusHub.Foundations.Guards

variable {ρ α β : Type}

/-- `if not c then return r end`. -/
def ensure (c : Prop) [Decidable c] (r : ρ) : Except ρ Unit := if c then .ok () else .error r

/-- The value of `o`, or an early return of `r` when there is none. -/
def getOr (o : Option α) (r : ρ) : Except ρ α :=
  match o with
  | some a => .ok a
  | none => .error r

/-- `if o then return f(o) end`. -/
def absentOr (o : Option α) (f : α → ρ) : Except ρ Unit :=
  match o with
  | some a => .error (f a)
  | none => .ok ()

section ok

variable {c : Prop} [Decidable c] {r : ρ} {o : Option α} {b : β}

/-- A check passes exactly when its condition holds. -/
@[simp] theorem ensure_eq_ok {u : Unit} : (ensure c r = Except.ok u) ↔ c := by
  unfold ensure; split <;> simp_all

/-- A block that starts with a check ran to its end: the check passed. -/
@[simp] theorem ensure_bind_eq_ok {f : Unit → Except ρ β} :
    (ensure c r >>= f) = .ok b ↔ c ∧ f () = .ok b := by
  unfold ensure; split <;> simp_all [bind, Except.bind]

/-- A block that starts with a read ran to its end: there was a value. -/
@[simp] theorem getOr_bind_eq_ok {f : α → Except ρ β} :
    (getOr o r >>= f) = .ok b ↔ ∃ a, o = some a ∧ f a = .ok b := by
  cases o <;> simp [getOr, bind, Except.bind]

/-- A block that starts with an early answer ran to its end: there was nothing to answer. -/
@[simp] theorem absentOr_bind_eq_ok {g : α → ρ} {f : Unit → Except ρ β} :
    (absentOr o g >>= f) = .ok b ↔ o = none ∧ f () = .ok b := by
  cases o <;> simp [absentOr, bind, Except.bind]

end ok

/-- A block that ran to its end ran its first part to the end. -/
theorem exists_of_bind_eq_ok {x : Except ρ α} {f : α → Except ρ β} {b : β} (h : x >>= f = .ok b) :
    ∃ a, x = .ok a ∧ f a = .ok b := by
  cases x with
  | error e => cases h
  | ok a => exact ⟨a, rfl, h⟩

section error

variable {c : Prop} [Decidable c] {r e : ρ} {o : Option α}

/-- A check fails exactly when its condition does, with its own answer. -/
@[simp] theorem ensure_eq_error : (ensure c r = Except.error e) ↔ ¬ c ∧ r = e := by
  unfold ensure; split <;> simp_all

/-- A block returned early: its check failed, or what follows returned early. -/
@[simp] theorem ensure_bind_eq_error {f : Unit → Except ρ β} :
    (ensure c r >>= f) = .error e ↔ (¬ c ∧ r = e) ∨ (c ∧ f () = .error e) := by
  unfold ensure; split <;> simp_all [bind, Except.bind]

/-- A block returned early: the value was missing, or what follows returned early. -/
@[simp] theorem getOr_bind_eq_error {f : α → Except ρ β} :
    (getOr o r >>= f) = .error e ↔ (o = none ∧ r = e) ∨ ∃ a, o = some a ∧ f a = .error e := by
  cases o <;> simp [getOr, bind, Except.bind]

/-- A block returned early: there was an answer, or what follows returned early. -/
@[simp] theorem absentOr_bind_eq_error {g : α → ρ} {f : Unit → Except ρ β} :
    (absentOr o g >>= f) = .error e ↔
      (∃ a, o = some a ∧ g a = e) ∨ (o = none ∧ f () = .error e) := by
  cases o <;> simp [absentOr, bind, Except.bind]

end error

section known

variable {c : Prop} [Decidable c] {r : ρ}

/-- A check that holds is passed. -/
theorem ensure_of {f : Unit → Except ρ β} (h : c) : (ensure c r >>= f) = f () := by
  simp [ensure, h, bind, Except.bind]

/-- A check that fails is answered. -/
theorem ensure_of_not {f : Unit → Except ρ β} (h : ¬ c) : (ensure c r >>= f) = .error r := by
  simp [ensure, h, bind, Except.bind]

/-- A value that is there is read. -/
@[simp] theorem getOr_some_bind {a : α} {f : α → Except ρ β} : (getOr (some a) r >>= f) = f a := rfl

/-- Without an early answer the block goes on. -/
@[simp] theorem absentOr_none_bind {g : α → ρ} {f : Unit → Except ρ β} :
    (absentOr none g >>= f) = f () := rfl

/-- With one it returns. -/
@[simp] theorem absentOr_some_bind {a : α} {g : α → ρ} {f : Unit → Except ρ β} :
    (absentOr (some a) g >>= f) = .error (g a) := rfl

end known

/-! ## What a block can return early -/

/-- Every early return of the block satisfies `P`. -/
def Raises (P : ρ → Prop) (x : Except ρ α) : Prop := ∀ e, x = .error e → P e

section raises

variable {P : ρ → Prop} {r : ρ}

/-- A result is no early return. -/
@[simp] theorem raises_ok {a : α} : Raises P (.ok a : Except ρ α) := fun _ h => by cases h

/-- An early return meets a bound exactly when its value does. -/
@[simp] theorem raises_error : Raises P (.error r : Except ρ α) ↔ P r :=
  ⟨fun h => h r rfl, fun h e he => by cases he; exact h⟩

/-- A bound on both parts of a block bounds the block. -/
theorem raises_bind {x : Except ρ α} {f : α → Except ρ β} (hx : Raises P x) (hf : ∀ a, Raises P (f a)) :
    Raises P (x >>= f) := by
  cases x with
  | error e => exact raises_error.mpr (hx e rfl)
  | ok a => exact hf a

/-- The early returns of a block that starts with a check. -/
@[simp] theorem raises_ensure_bind {c : Prop} [Decidable c] {f : Unit → Except ρ β} :
    Raises P (ensure c r >>= f) ↔ (¬ c → P r) ∧ (c → Raises P (f ())) := by
  by_cases h : c
  · rw [ensure_of h]; simp only [h, not_true, false_imp_iff, true_imp_iff, true_and]
  · rw [ensure_of_not h]; simp only [h, raises_error, not_false_iff, true_imp_iff, false_imp_iff,
      and_true]

/-- The early returns of a block that starts with a read. -/
@[simp] theorem raises_getOr_bind {o : Option α} {f : α → Except ρ β} :
    Raises P (getOr o r >>= f) ↔ (o = none → P r) ∧ ∀ a, o = some a → Raises P (f a) := by
  cases o with
  | none => exact ⟨fun h => ⟨fun _ => raises_error.mp h, fun _ h => by cases h⟩,
      fun h => raises_error.mpr (h.1 rfl)⟩
  | some a => simp

/-- The early returns of a block that starts with an early answer. -/
@[simp] theorem raises_absentOr_bind {o : Option α} {g : α → ρ} {f : Unit → Except ρ β} :
    Raises P (absentOr o g >>= f) ↔ (∀ a, o = some a → P (g a)) ∧ (o = none → Raises P (f ())) := by
  cases o <;> simp

end raises

end CampusHub.Foundations.Guards
