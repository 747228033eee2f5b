import CampusHub.Foundations.Maps

/-!
# Tables with a primary key

A table is a finite map from its primary key to its rows. A statement on one key reports how many
rows it touched, `0` or `1`.

* `insertNew` — `INSERT`, refused when the key is taken.
* `updateWhere` — `UPDATE … WHERE key AND condition`.
* `deleteWhere` — `DELETE … WHERE key AND condition`.
* `updateWhere_cases`, `deleteWhere_cases` — what each can do, guards included.

Each statement has a definition that computes its answer and one lemma `…_cases` that says all it can do:
the condition that it found, the rows that it left, and the number that it reports. A service whose
statement reports `1` is then known to have found its row in the state that the condition asks for, and
nothing else about the table has to be looked at again.

**Proof route.** The cases follow from the lookup of the key and the decision of the condition.

**Not here.** Statements over ranges of rows, secondary keys, and the isolation of statements from each
other, which is the business of `Foundations.Transactions`.
-/

namespace CampusHub.Foundations.Tables

open CampusHub.Foundations.Maps

variable {κ ρ : Type} [DecidableEq κ]

/-- `INSERT` of a row under a new key; `none` is a duplicate key. -/
def insertNew (t : FiniteMap κ ρ) (k : κ) (row : ρ) : Option (FiniteMap κ ρ) :=
  if (t.lookup k).isSome then none else some (t.insert k row)

/-- An `INSERT` that is not refused had a free key, and has written its row. -/
theorem insertNew_eq_some {t t' : FiniteMap κ ρ} {k : κ} {row : ρ} :
    insertNew t k row = some t' ↔ t.lookup k = none ∧ t' = t.insert k row := by
  unfold insertNew
  split
  · rename_i h
    constructor
    · intro h'
      cases h'
    · rintro ⟨h', -⟩
      rw [h'] at h
      cases h
  · rename_i h
    rw [Option.some.injEq, eq_comm]
    simp_all

variable (t : FiniteMap κ ρ) (k : κ) (p : ρ → Prop) [DecidablePred p]

/-- `UPDATE` of the row of a key, if there is one and it meets `p`. -/
def updateWhere (f : ρ → ρ) : FiniteMap κ ρ × ℕ :=
  match t.lookup k with
  | some row => if p row then (t.insert k (f row), 1) else (t, 0)
  | none => (t, 0)

/-- `DELETE` of the row of a key, if there is one and it meets `p`. -/
def deleteWhere : FiniteMap κ ρ × ℕ :=
  match t.lookup k with
  | some row => if p row then (t.erase k, 1) else (t, 0)
  | none => (t, 0)

/-- **What an `UPDATE` can do.** -/
theorem updateWhere_cases (f : ρ → ρ) :
    (∃ row, t.lookup k = some row ∧ p row ∧ updateWhere t k p f = (t.insert k (f row), 1)) ∨
    (∀ row, t.lookup k = some row → ¬ p row) ∧ updateWhere t k p f = (t, 0) := by
  unfold updateWhere
  split
  · rename_i row hrow
    by_cases hp : p row
    · exact .inl ⟨row, hrow, hp, if_pos hp⟩
    · refine .inr ⟨fun r hr => ?_, if_neg hp⟩
      rw [hrow, Option.some.injEq] at hr
      exact hr ▸ hp
  · rename_i hnone
    refine .inr ⟨fun r hr => ?_, rfl⟩
    rw [hnone] at hr
    cases hr

/-- **What a `DELETE` can do.** -/
theorem deleteWhere_cases :
    (∃ row, t.lookup k = some row ∧ p row ∧ deleteWhere t k p = (t.erase k, 1)) ∨
    (∀ row, t.lookup k = some row → ¬ p row) ∧ deleteWhere t k p = (t, 0) := by
  unfold deleteWhere
  split
  · rename_i row hrow
    by_cases hp : p row
    · exact .inl ⟨row, hrow, hp, if_pos hp⟩
    · refine .inr ⟨fun r hr => ?_, if_neg hp⟩
      rw [hrow, Option.some.injEq] at hr
      exact hr ▸ hp
  · rename_i hnone
    refine .inr ⟨fun r hr => ?_, rfl⟩
    rw [hnone] at hr
    cases hr

variable {t k p}

/-- An `UPDATE` whose condition holds. -/
theorem updateWhere_of {row : ρ} (hk : t.lookup k = some row) (hp : p row) (f : ρ → ρ) :
    updateWhere t k p f = (t.insert k (f row), 1) := by
  simp [updateWhere, hk, hp]

/-- An `UPDATE` whose condition fails. -/
theorem updateWhere_of_not (h : ∀ row, t.lookup k = some row → ¬ p row) (f : ρ → ρ) :
    updateWhere t k p f = (t, 0) := by
  rcases updateWhere_cases t k p f with ⟨row, hk, hp, -⟩ | ⟨-, h'⟩
  · exact absurd hp (h row hk)
  · exact h'

/-- A row that an `UPDATE` leaves: the old one, or the changed row of its key. -/
theorem lookup_updateWhere {f : ρ → ρ} {a : κ} {row : ρ}
    (h : (updateWhere t k p f).1.lookup a = some row) :
    t.lookup a = some row ∨ a = k ∧ ∃ old, t.lookup k = some old ∧ p old ∧ row = f old := by
  rcases updateWhere_cases t k p f with ⟨old, hk, hp, hu⟩ | ⟨-, hu⟩
  · rw [hu, lookup_insert_eq] at h
    split at h
    · rename_i ha
      exact .inr ⟨ha, old, hk, hp, (Option.some.inj h).symm⟩
    · exact .inl h
  · exact .inl (by rwa [hu] at h)

/-- An `UPDATE` keeps the rows that do not meet its condition. -/
theorem lookup_updateWhere_of_not {f : ρ → ρ} {a : κ} {row : ρ} (ha : t.lookup a = some row)
    (hp : ¬ p row) : (updateWhere t k p f).1.lookup a = some row := by
  rcases updateWhere_cases t k p f with ⟨old, hk, hold, hu⟩ | ⟨-, hu⟩
  · rw [hu, lookup_insert_eq, if_neg, ha]
    rintro rfl
    rw [ha, Option.some.injEq] at hk
    exact hp (hk ▸ hold)
  · rw [hu, ha]

/-- An `UPDATE` makes no rows and removes none. -/
theorem lookup_updateWhere_eq_none {f : ρ → ρ} {a : κ} :
    (updateWhere t k p f).1.lookup a = none ↔ t.lookup a = none := by
  rcases updateWhere_cases t k p f with ⟨old, hk, hold, hu⟩ | ⟨-, hu⟩
  · rw [hu, lookup_insert_eq]
    split
    · rename_i ha
      subst ha
      simp [hk]
    · rfl
  · rw [hu]

end CampusHub.Foundations.Tables
