import Mathlib.Data.List.Induction
import Mathlib.Order.Lattice

/-!
# Cursors of a key and a count

A list with falling keys is read in parts. The cursor between two parts is the last key that was read and
how many elements with this key were read.

* `tally` — the loop that reads the cursor off a part.
* `Marks key A C k n` — the cursor `(k, n)` stands between the front `A` and the rest `C`.
* `Marks.drop_filter`, `Marks.next` — the cursor finds the rest again, and moves on over a part.

The list has falling keys, and many elements may share one. A reader that keeps only the last key cannot
find its place within such a group; one that keeps the count beside it can, as long as nothing above or
within the groups changes. `Marks.drop_filter` says that the cursor finds the rest of the list, and
`Marks.next` that reading the next part moves the cursor to behind that part, also when a part ends within a
group, covers several groups, or adds to a group that an earlier part began.

**Proof route.** Along falling keys the elements with the last key are a suffix of what was read
(`key_getLast_le`), so the loop that resets its count at every new key counts exactly these (`foldl_tally`).

**Not here.** The width of the count, which the user bounds, and additions above the start of the reading,
which do not move the rest.
-/

namespace CampusHub.Foundations.Scrolls

variable {α κ : Type*} (key : α → κ)

section tally

variable [DecidableEq κ]

/-- The key of the element, and how many elements in a row have it. -/
def tally (c : κ × ℕ) (a : α) : κ × ℕ := if key a = c.1 then (c.1, c.2 + 1) else (key a, 1)

end tally

section marks

variable [LinearOrder κ]

/-- The cursor `(k, n)` between the front `A` and the rest `C`. -/
structure Marks (A C : List α) (k : κ) (n : ℕ) : Prop where
  above : ∀ a ∈ A, k ≤ key a
  below : ∀ c ∈ C, key c ≤ k
  count : A.countP (fun a => decide (key a = k)) = n

variable {key} {A B C : List α} {k : κ} {n : ℕ}

/-- The first cursor marks that nothing is read. -/
theorem marks_nil (h : ∀ c ∈ C, key c ≤ k) : Marks key [] C k 0 := ⟨nofun, h, rfl⟩

/-- What is not above the cursor, without as many as the cursor counts, is the rest. -/
theorem Marks.drop_filter (h : Marks key A C k n) :
    ((A ++ C).filter fun a => decide (key a ≤ k)).drop n = C := by
  have hfront : (A.filter fun a => decide (key a ≤ k)) = A.filter fun a => decide (key a = k) := by
    refine List.filter_congr fun a ha => ?_
    rw [decide_eq_decide]
    exact ⟨fun hle => le_antisymm hle (h.above a ha), le_of_eq⟩
  have hrest : (C.filter fun a => decide (key a ≤ k)) = C :=
    List.filter_eq_self.mpr fun c hc => decide_eq_true (h.below c hc)
  rw [List.filter_append, hfront, hrest, ← h.count, List.countP_eq_length_filter, List.drop_left]

/-- The last key of a part is its least. -/
theorem key_getLast_le (hsorted : B.Pairwise fun a b => key b ≤ key a) {last : α}
    (hlast : B.getLast? = some last) : ∀ b ∈ B, key last ≤ key b := by
  intro b hb
  obtain ⟨front, rfl⟩ := List.getLast?_eq_some_iff.mp hlast
  rcases List.mem_append.mp hb with hb | hb
  · exact (List.pairwise_append.mp hsorted).2.2 b hb last List.mem_cons_self
  · exact (congrArg key (List.mem_singleton.mp hb)).ge

/-- The loop over a part with falling keys counts the elements with its last key. -/
theorem foldl_tally {k₀ : κ} {n₀ : ℕ} (hsorted : B.Pairwise fun a b => key b ≤ key a)
    (hstart : ∀ b ∈ B, key b ≠ k₀) {last : α} (hlast : B.getLast? = some last) :
    B.foldl (tally key) (k₀, n₀) =
      (key last, B.countP fun b => decide (key b = key last)) := by
  induction B using List.reverseRecOn generalizing last with
  | nil => cases hlast
  | append_singleton B b ih =>
    obtain rfl : b = last := by simpa using hlast
    obtain ⟨hsorted, -, habove⟩ := List.pairwise_append.mp hsorted
    have habove : ∀ a ∈ B, key b ≤ key a := fun a ha => habove a ha b List.mem_cons_self
    rw [List.foldl_append, List.countP_append]
    cases hend : B.getLast? with
    | none =>
      obtain rfl := List.getLast?_eq_none_iff.mp hend
      have hne : key b ≠ k₀ := hstart b List.mem_cons_self
      simp [tally, hne]
    | some a =>
      rw [ih hsorted (fun c hc => hstart c (List.mem_append_left _ hc)) hend]
      have ha : a ∈ B := List.mem_of_getLast? hend
      by_cases hsame : key b = key a
      · simp [tally, hsame]
      · -- a lower key starts its own count
        have hnone : B.countP (fun c => decide (key c = key b)) = 0 := by
          rw [List.countP_eq_zero]
          intro c hc
          have hle := key_getLast_le hsorted hend c hc
          have hlt : key b < key a := lt_of_le_of_ne (habove a ha) hsame
          simpa using (hlt.trans_le hle).ne'
        simp [tally, hsame, hnone]

/-- The cursor after the next part. -/
theorem Marks.next (h : Marks key A (B ++ C) k n) (hsorted : (B ++ C).Pairwise fun a b => key b ≤ key a)
    {last : α} (hlast : B.getLast? = some last) :
    Marks key (A ++ B) C (key last)
      ((if key last = k then n else 0) + B.countP fun b => decide (key b = key last)) := by
  have hmem : last ∈ B := List.mem_of_getLast? hlast
  have hle : key last ≤ k := h.below last (List.mem_append_left _ hmem)
  obtain ⟨hB, -, hBC⟩ := List.pairwise_append.mp hsorted
  refine ⟨fun a ha => ?_, fun c hc => hBC last hmem c hc, ?_⟩
  · rcases List.mem_append.mp ha with ha | ha
    · exact hle.trans (h.above a ha)
    · exact key_getLast_le hB hlast a ha
  · rw [List.countP_append]
    by_cases hsame : key last = k
    · rw [if_pos hsame, ← h.count, hsame]
    · have hnone : A.countP (fun a => decide (key a = key last)) = 0 := by
        rw [List.countP_eq_zero]
        intro a ha
        have hlt : key last < k := lt_of_le_of_ne hle hsame
        simpa using (hlt.trans_le (h.above a ha)).ne'
      rw [if_neg hsame, hnone]

end marks

end CampusHub.Foundations.Scrolls
