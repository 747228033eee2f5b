import Mathlib.Data.List.Induction

/-!
# Bits from both ends

* `spell w bits` — the number in a word of `w` bits that the bits spell, the highest first.
* `getLsbD_spell` — counted from the low end, its bits come in reverse order.
* `and_one_beq_one` — a word masked with one is its lowest bit.

A Redis bitmap numbers the bits of a byte from the highest, and `BITFIELD GET` answers a word whose highest
bit is the first one asked for; a program that then tests the lowest bit and shifts reads the bits from the
last one back. `getLsbD_spell` is that reversal, for words of any width and lists of any length: bits past
the width fall off, and bits that were never given are zero.

**Proof route.** `spell` is a left fold, so the proof goes by induction on the list from its end, and
`spell_concat` is its step.
-/

namespace CampusHub.Foundations.Bits

variable {w : ℕ}

/-- `for (bit : bits) value = (value << 1) | bit` -/
def spell (w : ℕ) (bits : List Bool) : BitVec w :=
  bits.foldl (fun value bit => value <<< 1 ||| (BitVec.ofBool bit).setWidth w) 0

/-- One more bit moves the others up by one. -/
@[simp] theorem spell_concat (bits : List Bool) (bit : Bool) :
    spell w (bits ++ [bit]) = spell w bits <<< 1 ||| (BitVec.ofBool bit).setWidth w := by
  simp [spell]

/-- Counted from the low end, the bits come in reverse order. -/
theorem getLsbD_spell (bits : List Bool) (i : ℕ) :
    (spell w bits).getLsbD i = (decide (i < w) && bits.reverse.getD i false) := by
  induction bits using List.reverseRecOn generalizing i with
  | nil => simp [spell]
  | append_singleton bits bit ih =>
    rw [spell_concat, BitVec.getLsbD_or, BitVec.getLsbD_shiftLeft, BitVec.getLsbD_setWidth, ih]
    cases i with
    | zero => simp
    | succ i =>
      by_cases hi : i + 1 < w
      · simp [hi, show i < w by omega]
      · simp [hi]

/-- A word masked with one is its lowest bit. -/
theorem and_one_beq_one (hw : 0 < w) (word : BitVec w) : (word &&& 1 == 1) = word.getLsbD 0 := by
  have hone : word &&& 1 = (BitVec.ofBool (word.getLsbD 0)).setWidth w :=
    BitVec.and_one_eq_setWidth_ofBool_getLsbD
  rw [hone]
  cases word.getLsbD 0 with
  | false => simp [Nat.pos_iff_ne_zero.mp hw]
  | true => simp [BitVec.setWidth_ofNat_one_eq_ofNat_one_of_lt Nat.one_pos]

end CampusHub.Foundations.Bits
