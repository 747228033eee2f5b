import Mathlib.Data.Set.Insert

/-!
# Copies behind an epoch

Copies of a value that changes are kept together with the epoch that their maker saw before it read the
value. A copy counts only while its epoch is the current one, so a turn to an epoch that nobody has seen
makes every copy void, also those that are still being made.

* `Fence` — the current epoch, and the copies with the epochs of their makers.
* `Current P` — what counts meets `P`.
* `current_turn`, `Current.copy`, `Current.mono` — the three rules.

This is the argument behind a cache whose entries are never deleted on a write: the writer turns the epoch,
and every copy made from a value read before the turn is void, including the copies of readers that have not
written theirs yet. Nothing has to be found or counted.

**Proof route.** The epoch of a copy is the one its maker saw, so after a turn to a new epoch no copy
carries it (`current_turn`); a maker that reads the value under the current epoch makes a copy of the
current value (`Current.copy`).

**Not here.** Where epochs come from. That the next one was never seen before is a hypothesis, which the
users discharge for their source of epochs.
-/

namespace CampusHub.Foundations

/-- The current epoch and the copies, in the store or in the hands of their makers. -/
structure Fence (ε α : Type) where
  epoch : ε
  held : Set (ε × α)

namespace Fence

variable {ε α : Type} {s t : Fence ε α} {P Q : α → Prop}

/-- The copies of the current epoch meet `P`. -/
def Current (P : α → Prop) (s : Fence ε α) : Prop := ∀ a, (s.epoch, a) ∈ s.held → P a

/-- After a turn to an epoch that nobody has seen, nothing counts. -/
theorem current_turn (seen : Set ε) (hheld : ∀ e a, (e, a) ∈ t.held → e ∈ seen)
    (hnew : t.epoch ∉ seen) : t.Current P :=
  fun a ha => absurd (hheld _ a ha) hnew

/-- Copies that are made meet `P` if the value they are made of does. -/
theorem Current.copy (h : s.Current P) (hepoch : t.epoch = s.epoch)
    (hheld : ∀ e a, (e, a) ∈ t.held → (e, a) ∈ s.held ∨ P a) : t.Current P := by
  intro a ha
  rw [hepoch] at ha
  exact (hheld _ a ha).elim (h a) id

/-- What counts meets whatever follows from `P`. -/
theorem Current.mono (h : s.Current P) (hPQ : ∀ a, P a → Q a) : s.Current Q :=
  fun a ha => hPQ a (h a ha)

end Fence

end CampusHub.Foundations
