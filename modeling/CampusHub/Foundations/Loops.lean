import Mathlib.Logic.Function.Iterate
import Mathlib.Order.Nat

/-!
# While loops

* `loop test body fuel s` — `while (test s) s = body s`; none when it takes more than `fuel` tests.
* `Exits test body s n` — the test fails for the first time after `n` rounds.
* `loop_eq_some_iff` — the loop ends, and where, exactly when it exits.
* `exists_exits` — a state that fails the test is passed no later than it is reached.

A `while` of the source is translated with fuel, and a claim about it is then two claims: that enough fuel
gives a result, and what the result is. `loop_eq_some_iff` answers both at once: with fuel for `n` tests the
loop answers `t` exactly when it exits at `t` after fewer than `n` rounds, and the exit is unique because it
is the first failure of the test. `exists_exits` is the termination argument in the form that callers have
it, a round by which the test is known to fail.

**Proof route.** Induction on the fuel, with `exits_zero` and `exits_succ` as the two cases of one round.

**Not here.** A well-founded measure: the loops of this development have a bound that is known in advance.
-/

namespace CampusHub.Foundations.Loops

variable {σ : Type*} (test : σ → Bool) (body : σ → σ)

/-- `while (test s) s = body s` -/
def loop : ℕ → σ → Option σ
  | 0, _ => none
  | fuel + 1, s => if test s then loop fuel (body s) else some s

/-- The loop leaves `s` after `n` rounds. -/
structure Exits (s : σ) (n : ℕ) : Prop where
  goes_on : ∀ i < n, test (body^[i] s) = true
  stops : test (body^[n] s) = false

variable {test body}

/-- The loop leaves a state at once exactly when the test fails there. -/
theorem exits_zero {s : σ} : Exits test body s 0 ↔ test s = false := by
  constructor
  · intro h
    exact h.stops
  · intro h
    exact ⟨fun i hi => absurd hi (Nat.not_lt_zero i), h⟩

/-- It leaves after one round more exactly when the test holds, and it leaves the next state so. -/
theorem exits_succ {s : σ} {n : ℕ} :
    Exits test body s (n + 1) ↔ test s = true ∧ Exits test body (body s) n := by
  constructor
  · intro h
    exact ⟨h.goes_on 0 n.succ_pos, fun i hi => h.goes_on (i + 1) (Nat.succ_lt_succ hi), h.stops⟩
  · rintro ⟨hs, h⟩
    refine ⟨?_, h.stops⟩
    intro i hi
    cases i with
    | zero => exact hs
    | succ i => exact h.goes_on i (Nat.lt_of_succ_lt_succ hi)

/-- **The rule of the loop**: what it answers is the state that it exits from. -/
theorem loop_eq_some_iff {fuel : ℕ} {s s' : σ} :
    loop test body fuel s = some s' ↔ ∃ n < fuel, Exits test body s n ∧ body^[n] s = s' := by
  induction fuel generalizing s with
  | zero => simp [loop]
  | succ fuel ih =>
    unfold loop
    cases hs : test s with
    | false =>
      rw [if_neg Bool.false_ne_true, Option.some.injEq]
      constructor
      · rintro rfl
        exact ⟨0, fuel.succ_pos, exits_zero.mpr hs, rfl⟩
      · rintro ⟨n, -, hn, rfl⟩
        cases n with
        | zero => rfl
        | succ n => rw [(exits_succ.mp hn).1] at hs; cases hs
    | true =>
      rw [if_pos rfl, ih]
      constructor
      · rintro ⟨n, hn, hexits, rfl⟩
        exact ⟨n + 1, Nat.succ_lt_succ hn, exits_succ.mpr ⟨hs, hexits⟩, rfl⟩
      · rintro ⟨n, hn, hexits, rfl⟩
        cases n with
        | zero => rw [exits_zero.mp hexits] at hs; cases hs
        | succ n => exact ⟨n, Nat.lt_of_succ_lt_succ hn, (exits_succ.mp hexits).2, rfl⟩

/-- The loop exits by the first round at which the test is known to fail. -/
theorem exists_exits {s : σ} {k : ℕ} (h : test (body^[k] s) = false) :
    ∃ n ≤ k, Exits test body s n := by
  have hex : ∃ n, test (body^[n] s) = false := ⟨k, h⟩
  refine ⟨Nat.find hex, Nat.find_min' hex h, ?_, Nat.find_spec hex⟩
  intro i hi
  exact eq_true_of_ne_false (Nat.find_min hex hi)

end CampusHub.Foundations.Loops
