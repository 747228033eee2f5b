import Mathlib.Data.Nat.Basic
import Mathlib.Data.List.Basic
import Mathlib.Data.List.Induction
import Mathlib.Tactic.IntervalCases
import Mathlib.Tactic.Linarith

/-!
# Decimal strings

* `decimal n` — the decimal text of a natural number, as `Long.toString` and Redis counters write it.
* `isPositiveDecimal` — the Lua pattern `^[1-9]%d*$`; it accepts exactly the texts of the positive
  naturals (`isPositiveDecimal_iff`).
* `string2ll` — how Redis reads a 64-bit integer: the canonical decimal text only, with no space, no
  sign but a leading `-`, no leading zero.
* `string2ull` — how Redis reads an unsigned 64-bit integer: `string2ll`, and where that reads
  nothing the C `strtoull`, which also takes leading spaces, a sign and leading zeros.

**What is proved.** A number is read back from its text by every reader above, within that reader's range:
`isPositiveDecimal_iff`, `string2ll_decimal`, `string2ull_decimal`, `parseLong_decimal`. `le_iff_text` is
the comparison that the stock scripts make, by the lengths of two texts first and by their order then; it is
the comparison of the numbers.

**Proof route.** A decimal text is the list of its digits (`toList_decimal`), so Mathlib's
`Nat.ofDigitChars` inverts it; what the readers do with a sign, a space or a leading zero is then a case
split on the first character, which is a digit (`decimal_cons`).

**Not here.** Nothing is said about what the readers do with texts that are no decimal texts, beyond the
pattern: callers that reject such texts prove so where they do it.
-/

namespace CampusHub.Foundations.Decimal

/-- The decimal text of `n`. -/
def decimal (n : ℕ) : String := n.repr

/-- The characters of a decimal text are the digits of its number. -/
theorem toList_decimal (n : ℕ) : (decimal n).toList = Nat.toDigits 10 n := Nat.toList_repr

/-- Reading the digits of a decimal text gives its number back. -/
@[simp] theorem ofDigitChars_decimal (n : ℕ) : Nat.ofDigitChars 10 (decimal n).toList 0 = n := by
  rw [toList_decimal, Nat.ofDigitChars_ten_toDigits]

/-- Different numbers have different decimal texts. -/
theorem decimal_injective : Function.Injective decimal := by
  intro m n h
  rw [← ofDigitChars_decimal m, h, ofDigitChars_decimal]

/-- Two decimal texts are the same exactly when their numbers are. -/
@[simp] theorem decimal_inj {m n : ℕ} : decimal m = decimal n ↔ m = n := decimal_injective.eq_iff

/-- Every character of a decimal text is a digit. -/
theorem isDigit_of_mem_decimal {n : ℕ} {c : Char} (h : c ∈ (decimal n).toList) :
    c.isDigit = true := by
  rw [toList_decimal] at h
  exact Nat.isDigit_of_mem_toDigits (by decide) (by decide) h

/-- No decimal text is empty. -/
theorem toList_decimal_ne_nil (n : ℕ) : (decimal n).toList ≠ [] := by
  rw [toList_decimal]; exact Nat.toDigits_ne_nil

/-- A decimal text starts with a digit, has digits only, and spells its number. -/
theorem decimal_cons (n : ℕ) : ∃ c cs, (decimal n).toList = c :: cs ∧
    (∀ x ∈ c :: cs, x.isDigit = true) ∧ Nat.ofDigitChars 10 (c :: cs) 0 = n := by
  obtain ⟨c, cs, hcs⟩ := List.exists_cons_of_ne_nil (toList_decimal_ne_nil n)
  refine ⟨c, cs, hcs, ?_, ?_⟩
  · intro x hx
    rw [← hcs] at hx
    exact isDigit_of_mem_decimal hx
  · rw [← hcs, ofDigitChars_decimal]

/-- A digit is none of the other characters. -/
theorem ne_of_isDigit {c d : Char} (hc : c.isDigit = true) (hd : d.isDigit = false) : c ≠ d := by
  rintro rfl
  rw [hc] at hd
  cases hd

/-- A character that is no digit does not occur in a decimal text. -/
theorem not_mem_decimal {c : Char} (hc : c.isDigit = false) (n : ℕ) : c ∉ (decimal n).toList := by
  intro h
  exact ne_of_isDigit (isDigit_of_mem_decimal h) hc rfl

/-! ## Digits -/

/-- The code of a digit lies between those of `0` and `9`. -/
theorem toNat_of_isDigit {c : Char} (h : c.isDigit = true) : 48 ≤ c.toNat ∧ c.toNat ≤ 57 := by
  simpa [Char.isDigit, UInt32.le_iff_toNat_le] using h

/-- A digit is the digit character of its value. -/
theorem digitChar_of_isDigit {c : Char} (h : c.isDigit = true) :
    Nat.digitChar (c.toNat - 48) = c := by
  obtain ⟨h1, h2⟩ := toNat_of_isDigit h
  have hc : c = Char.ofNat c.toNat := (Char.ofNat_toNat c).symm
  generalize c.toNat = n at *
  subst hc
  interval_cases n <;> rfl

/-- The first digit of a positive number is not `0`. -/
theorem head_toDigits_ne_zero {n : ℕ} (hn : 0 < n) :
    ∃ c cs, Nat.toDigits 10 n = c :: cs ∧ c ≠ '0' := by
  induction n using Nat.strong_induction_on with
  | h n ih =>
    rw [Nat.toDigits_eq_if (by decide)]
    split
    · exact ⟨_, [], rfl, by simpa using hn.ne'⟩
    · obtain ⟨c, cs, hcs, hc⟩ := ih (n / 10) (by omega) (by omega)
      exact ⟨c, cs ++ [Nat.digitChar (n % 10)], by simp [hcs], hc⟩

/-- A digit list with no leading zero is the digit list of a positive number. -/
theorem exists_toDigits_eq :
    ∀ {l : List Char}, l ≠ [] → l.head? ≠ some '0' → (∀ c ∈ l, c.isDigit = true) →
      ∃ n, 0 < n ∧ Nat.toDigits 10 n = l := by
  intro l
  induction l using List.reverseRecOn with
  | nil => simp
  | append_singleton l d ih =>
    intro _ hz hd
    have hdd : d.isDigit = true := hd d (by simp)
    have hlt : d.toNat - 48 < 10 := by have := toNat_of_isDigit hdd; omega
    have hone : Nat.toDigits 10 (d.toNat - 48) = [d] := by
      rw [Nat.toDigits_of_lt_base hlt, digitChar_of_isDigit hdd]
    by_cases hl : l = []
    · subst hl
      refine ⟨d.toNat - 48, ?_, hone⟩
      rcases Nat.eq_zero_or_pos (d.toNat - 48) with h0 | h0
      · exact absurd (by rw [← digitChar_of_isDigit hdd, h0]; rfl) hz
      · exact h0
    · have hz' : l.head? ≠ some '0' := by
        rwa [List.head?_append_of_ne_nil _ hl] at hz
      obtain ⟨n, hn, hdig⟩ := ih hl hz' fun c hc => hd c (by simp [hc])
      refine ⟨10 * n + (d.toNat - 48), by omega, ?_⟩
      rw [← Nat.toDigits_append_toDigits (by decide) hn hlt, hdig, hone]

/-! ## The pattern `^[1-9]%d*$` -/

/-- The Lua pattern `^[1-9]%d*$`. -/
def isPositiveDecimal (s : String) : Bool :=
  match s.toList with
  | [] => false
  | c :: cs => c.isDigit && c != '0' && cs.all Char.isDigit

/-- The pattern accepts exactly the decimal texts of the positive naturals. -/
theorem isPositiveDecimal_iff {s : String} :
    isPositiveDecimal s = true ↔ ∃ n, 0 < n ∧ s = decimal n := by
  unfold isPositiveDecimal
  constructor
  · intro h
    rcases hs : s.toList with _ | ⟨c, cs⟩
    · simp [hs] at h
    · simp only [hs, Bool.and_eq_true, bne_iff_ne, ne_eq, List.all_eq_true] at h
      obtain ⟨⟨hc, hz⟩, hcs⟩ := h
      obtain ⟨n, hn, hdig⟩ := exists_toDigits_eq (l := c :: cs) (by simp) (by simpa using hz)
        (by simpa [hc] using hcs)
      exact ⟨n, hn, String.toList_inj.mp (by rw [toList_decimal, hdig, hs])⟩
  · rintro ⟨n, hn, rfl⟩
    obtain ⟨c, cs, hcs, hz⟩ := head_toDigits_ne_zero hn
    have hdig : ∀ x ∈ c :: cs, x.isDigit = true := fun x hx =>
      isDigit_of_mem_decimal (n := n) (by rw [toList_decimal, hcs]; exact hx)
    rw [toList_decimal, hcs]
    simp only [Bool.and_eq_true, bne_iff_ne, ne_eq, List.all_eq_true]
    exact ⟨⟨hdig c (by simp), hz⟩, fun x hx => hdig x (by simp [hx])⟩

/-- The text of a positive number is accepted. -/
theorem isPositiveDecimal_decimal {n : ℕ} (hn : 0 < n) : isPositiveDecimal (decimal n) = true :=
  isPositiveDecimal_iff.mpr ⟨n, hn, rfl⟩

/-- The text of zero. -/
@[simp] theorem decimal_zero : decimal 0 = "0" := rfl

/-! ## Length in bytes -/

/-- The length of a text in bytes. -/
def byteLength (s : String) : ℕ := (s.toList.map Char.utf8Size).sum

/-- A digit is one byte long. -/
theorem utf8Size_of_isDigit {c : Char} (hc : c.isDigit = true) : c.utf8Size = 1 := by
  have h := (toNat_of_isDigit hc).2
  have hv : c.val ≤ 127 := by
    rw [UInt32.le_iff_toNat_le]
    exact h.trans (by decide)
  simp [Char.utf8Size, hv]

/-- A decimal text has one byte for each digit. -/
theorem byteLength_decimal (n : ℕ) : byteLength (decimal n) = (Nat.toDigits 10 n).length := by
  have h : (decimal n).toList.map Char.utf8Size = (decimal n).toList.map fun _ => 1 :=
    List.map_congr_left fun c hc => utf8Size_of_isDigit (isDigit_of_mem_decimal hc)
  rw [byteLength, h, toList_decimal]
  simp

/-- The bytes of two texts in a row add up. -/
theorem byteLength_append (s t : String) : byteLength (s ++ t) = byteLength s + byteLength t := by
  simp [byteLength]

/-- The digit bound of a bounded number. -/
theorem byteLength_decimal_le {n k : ℕ} (hk : 0 < k) (hn : n < 10 ^ k) :
    byteLength (decimal n) ≤ k := by
  rw [byteLength_decimal]
  exact (Nat.length_toDigits_le_iff (by decide) hk).mpr hn

/-! ## Comparing texts of one length -/

/-- The first digit counts for the power of ten that the others leave it. -/
theorem ofDigitChars_cons_zero (c : Char) (cs : List Char) :
    Nat.ofDigitChars 10 (c :: cs) 0 =
      (c.toNat - 48) * 10 ^ cs.length + Nat.ofDigitChars 10 cs 0 := by
  rw [Nat.ofDigitChars_cons, Nat.ofDigitChars_eq_ofDigitChars_zero, mul_zero, zero_add, mul_comm]
  rfl

/-- A text of `k` digits spells a number below `10 ^ k`. -/
theorem ofDigitChars_lt_pow {cs : List Char} (h : ∀ c ∈ cs, c.isDigit = true) :
    Nat.ofDigitChars 10 cs 0 < 10 ^ cs.length := by
  induction cs with
  | nil => exact Nat.one_pos
  | cons c cs ih =>
    have hc := toNat_of_isDigit (h c List.mem_cons_self)
    have hcs := ih fun d hd => h d (List.mem_cons_of_mem c hd)
    rw [ofDigitChars_cons_zero, List.length_cons, pow_succ]
    have : (c.toNat - 48) * 10 ^ cs.length ≤ 9 * 10 ^ cs.length :=
      Nat.mul_le_mul_right _ (by omega)
    omega

/-- Texts of digits of one length are ordered as their numbers. -/
theorem lt_iff_ofDigitChars_lt {as bs : List Char} (ha : ∀ c ∈ as, c.isDigit = true)
    (hb : ∀ c ∈ bs, c.isDigit = true) (hlen : as.length = bs.length) :
    as < bs ↔ Nat.ofDigitChars 10 as 0 < Nat.ofDigitChars 10 bs 0 := by
  induction as generalizing bs with
  | nil =>
    obtain rfl : bs = [] := List.length_eq_zero_iff.mp hlen.symm
    simp
  | cons a as ih =>
    obtain ⟨b, bs, rfl⟩ := List.exists_cons_of_length_eq_add_one (hlen.symm.trans (List.length_cons))
    rw [List.length_cons, List.length_cons, Nat.add_right_cancel_iff] at hlen
    have hda := toNat_of_isDigit (ha a List.mem_cons_self)
    have hdb := toNat_of_isDigit (hb b List.mem_cons_self)
    have hta : ∀ c ∈ as, c.isDigit = true := fun c hc => ha c (List.mem_cons_of_mem a hc)
    have htb : ∀ c ∈ bs, c.isDigit = true := fun c hc => hb c (List.mem_cons_of_mem b hc)
    have hA := ofDigitChars_lt_pow hta
    have hB := ofDigitChars_lt_pow htb
    have hchar : a < b ↔ a.toNat < b.toNat := Char.lt_def
    rw [List.cons_lt_cons_iff, ih hta htb hlen, ofDigitChars_cons_zero, ofDigitChars_cons_zero,
      hchar, hlen]
    rw [hlen] at hA
    rcases lt_trichotomy a.toNat b.toNat with h | h | h
    · have : (a.toNat - 48 + 1) * 10 ^ bs.length ≤ (b.toNat - 48) * 10 ^ bs.length :=
        Nat.mul_le_mul_right _ (by omega)
      rw [Nat.add_one_mul] at this
      exact iff_of_true (.inl h) (by omega)
    · obtain rfl : a = b := Char.toNat_inj.mp h
      simp
    · have : (b.toNat - 48 + 1) * 10 ^ bs.length ≤ (a.toNat - 48) * 10 ^ bs.length :=
        Nat.mul_le_mul_right _ (by omega)
      rw [Nat.add_one_mul] at this
      refine iff_of_false ?_ (by omega)
      rintro (h' | ⟨rfl, -⟩) <;> omega

/-- Decimal texts of one length are ordered as their numbers. -/
theorem decimal_lt_decimal {m n : ℕ} (h : byteLength (decimal m) = byteLength (decimal n)) :
    decimal m < decimal n ↔ m < n := by
  rw [byteLength_decimal, byteLength_decimal] at h
  have hm : ∀ c ∈ (decimal m).toList, c.isDigit = true := fun c => isDigit_of_mem_decimal
  have hn : ∀ c ∈ (decimal n).toList, c.isDigit = true := fun c => isDigit_of_mem_decimal
  have hlt := lt_iff_ofDigitChars_lt hm hn (by rw [toList_decimal, toList_decimal, h])
  rw [ofDigitChars_decimal, ofDigitChars_decimal] at hlt
  exact hlt

/-- A number with fewer digits is smaller. -/
theorem lt_of_byteLength_lt {m n : ℕ} (h : byteLength (decimal m) < byteLength (decimal n)) :
    m < n := by
  rw [byteLength_decimal, byteLength_decimal] at h
  have hpos : 0 < (Nat.toDigits 10 m).length := List.length_pos_iff.mpr Nat.toDigits_ne_nil
  have hm := (Nat.length_toDigits_le_iff (by decide) hpos).mp (le_refl (Nat.toDigits 10 m).length)
  by_contra hle
  have hn : n < 10 ^ (Nat.toDigits 10 m).length := by omega
  exact absurd ((Nat.length_toDigits_le_iff (by decide) hpos).mpr hn) (not_le.mpr h)

/-- **A bound checked on texts**: first by their lengths, then by their order. -/
theorem le_iff_text {m n : ℕ} :
    (byteLength (decimal m) < byteLength (decimal n) ∨
      byteLength (decimal m) = byteLength (decimal n) ∧ ¬ decimal n < decimal m) ↔ m ≤ n := by
  rcases lt_trichotomy (byteLength (decimal m)) (byteLength (decimal n)) with h | h | h
  · exact iff_of_true (.inl h) (lt_of_byteLength_lt h).le
  · rw [decimal_lt_decimal h.symm]
    simp [h]
  · refine iff_of_false ?_ (not_le.mpr (lt_of_byteLength_lt h))
    omega

/-! ## Reading integers -/

/-- C `isspace`. -/
def isSpace (c : Char) : Bool :=
  c = ' ' || c = '\t' || c = '\n' || c = '\r' || c = '\x0b' || c = '\x0c'

/-- An optional sign. -/
def readSign : List Char → Bool × List Char
  | '-' :: cs => (true, cs)
  | '+' :: cs => (false, cs)
  | cs => (false, cs)

/-- The largest 64-bit signed integer. -/
def llongMax : ℤ := 9223372036854775807

/-- Redis `string2ll`: the signed 64-bit integer a string spells canonically. -/
def string2ll (s : String) : Option ℤ :=
  match s.toList with
  | ['0'] => some 0
  | '-' :: cs =>
    if isPositiveDecimal (String.ofList cs) ∧ -(Nat.ofDigitChars 10 cs 0 : ℤ) ≥ -llongMax - 1 then
      some (-(Nat.ofDigitChars 10 cs 0 : ℤ))
    else none
  | cs =>
    if isPositiveDecimal s ∧ (Nat.ofDigitChars 10 cs 0 : ℤ) ≤ llongMax then
      some (Nat.ofDigitChars 10 cs 0 : ℤ)
    else none

/-- A positive decimal is read by the last branch of `string2ll`. -/
theorem string2ll_decimal_pos {n : ℕ} (hn : 0 < n) :
    string2ll (decimal n) = if (n : ℤ) ≤ llongMax then some (n : ℤ) else none := by
  obtain ⟨c, cs, hcs, hz⟩ := head_toDigits_ne_zero hn
  have hc : c.isDigit = true :=
    isDigit_of_mem_decimal (n := n) (by rw [toList_decimal, hcs]; simp)
  have hv := ofDigitChars_decimal n
  have hm : c ≠ '-' := ne_of_isDigit hc (by decide)
  rw [toList_decimal, hcs] at hv
  unfold string2ll
  rw [toList_decimal, hcs]
  split
  · rename_i h; simp_all
  · rename_i h; simp_all
  · simp [isPositiveDecimal_decimal hn, hv]

/-- The decimal text of a number of the 64-bit range is read back. -/
@[simp] theorem string2ll_decimal {n : ℕ} (hn : (n : ℤ) ≤ llongMax) :
    string2ll (decimal n) = some (n : ℤ) := by
  rcases Nat.eq_zero_or_pos n with rfl | h
  · rfl
  · rw [string2ll_decimal_pos h, if_pos hn]

/-- Past the 64-bit range `string2ll` reads nothing. -/
theorem string2ll_decimal_of_gt {n : ℕ} (hn : llongMax < (n : ℤ)) :
    string2ll (decimal n) = none := by
  have h : 0 < n := by
    rcases Nat.eq_zero_or_pos n with rfl | h
    · exact absurd hn (by decide)
    · exact h
  rw [string2ll_decimal_pos h, if_neg (not_le.mpr hn)]

/-- A digit is no space. -/
theorem isSpace_of_isDigit {c : Char} (hc : c.isDigit = true) : isSpace c = false := by
  have hne : ∀ d : Char, d.isDigit = false → c ≠ d := fun d => ne_of_isDigit hc
  simp [isSpace, hne ' ' (by decide), hne '\t' (by decide), hne '\n' (by decide),
    hne '\r' (by decide), hne '\x0b' (by decide), hne '\x0c' (by decide)]

/-- A text that starts with a digit has no sign. -/
theorem readSign_of_isDigit {c : Char} (cs : List Char) (hc : c.isDigit = true) :
    readSign (c :: cs) = (false, c :: cs) := by
  unfold readSign
  split
  · rename_i heq
    exact absurd (List.cons.inj heq).1 (ne_of_isDigit hc (by decide))
  · rename_i heq
    exact absurd (List.cons.inj heq).1 (ne_of_isDigit hc (by decide))
  · rfl

instance neZero_uint64 : NeZero (2 ^ 64) := ⟨by decide⟩

/-- C `strtoull` in base ten, on a text that has to end where the number does. -/
def strtoull (cs : List Char) : Option (Fin (2 ^ 64)) :=
  let (negative, digits) := readSign (cs.dropWhile isSpace)
  if digits.isEmpty ∨ ¬ digits.all Char.isDigit then none
  else if h : Nat.ofDigitChars 10 digits 0 < 2 ^ 64 then
    some (if negative then -⟨Nat.ofDigitChars 10 digits 0, h⟩ else ⟨Nat.ofDigitChars 10 digits 0, h⟩)
  else none

/-- Redis `string2ull`. -/
def string2ull (cs : List Char) : Option (Fin (2 ^ 64)) :=
  match string2ll (String.ofList cs) with
  | some z => if 0 ≤ z then some (Fin.ofNat (2 ^ 64) z.toNat) else none
  | none => strtoull cs

/-- The decimal text of an unsigned 64-bit integer is read back. -/
theorem string2ull_decimal (n : Fin (2 ^ 64)) : string2ull (decimal n).toList = some n := by
  unfold string2ull
  rw [String.ofList_toList]
  rcases le_or_gt ((n : ℕ) : ℤ) llongMax with h | h
  · rw [string2ll_decimal h]
    simp
  · rw [string2ll_decimal_of_gt h]
    obtain ⟨c, cs, hcs, hdig, hv⟩ := decimal_cons n
    have hc := hdig c List.mem_cons_self
    rw [hcs]
    have hall : (c :: cs).all Char.isDigit = true := List.all_eq_true.mpr hdig
    simp only [strtoull, List.dropWhile_cons_of_neg (show ¬ isSpace c = true by simp [isSpace_of_isDigit hc]),
      readSign_of_isDigit cs hc, hall, hv, List.isEmpty_cons, n.isLt]
    simp

/-! ## `Long.parseLong` -/

/-- Java `Long.parseLong`, of a text whose digits are those of base ten. -/
def parseLong (s : String) : Option ℤ :=
  let (negative, digits) := readSign s.toList
  if digits.isEmpty ∨ ¬ digits.all Char.isDigit then none
  else
    let z : ℤ := if negative then -(Nat.ofDigitChars 10 digits 0) else Nat.ofDigitChars 10 digits 0
    if -llongMax - 1 ≤ z ∧ z ≤ llongMax then some z else none

/-- The decimal text of a `long` is parsed back. -/
theorem parseLong_decimal {n : ℕ} (hn : (n : ℤ) ≤ llongMax) : parseLong (decimal n) = some (n : ℤ) := by
  obtain ⟨c, cs, hcs, hdig, hv⟩ := decimal_cons n
  have hc := hdig c List.mem_cons_self
  have hall : (c :: cs).all Char.isDigit = true := List.all_eq_true.mpr hdig
  have hpos : (0 : ℤ) ≤ llongMax := by decide
  unfold parseLong
  rw [hcs]
  simp only [readSign_of_isDigit cs hc, hall, hv, List.isEmpty_cons]
  simp only [not_true_eq_false, or_self, Bool.false_eq_true, if_false]
  exact if_pos ⟨by omega, hn⟩

end CampusHub.Foundations.Decimal
