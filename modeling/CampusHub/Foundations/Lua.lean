import Mathlib.Data.Int.Log
import Mathlib.Data.List.TakeWhile
import Mathlib.Data.Rat.Floor
import Mathlib.Tactic.FieldSimp
import Mathlib.Tactic.Linarith
import Mathlib.Tactic.NormNum
import Mathlib.Tactic.Positivity
import CampusHub.Foundations.Decimal

/-!
# Lua 5.1 numbers

Lua numbers are IEEE 754 doubles. A `Number` is not-a-number, an infinity, or a rational; the
rationals that occur are the results of `roundDouble` (round to nearest, ties to even, 53
significant bits). The sign of zero is not kept: none of the operations here observes it on a number
that a caller compares or prints after a range check.

* `tonumber` — the string conversion of `luaO_str2d` with the C99 `strtod`: spaces around, a sign,
  decimal or hexadecimal digits with a fraction and an exponent, `inf`, `infinity`, `nan`. A C
  string ends at the first zero byte.
* `format0` — `string.format('%.0f', x)`.
* `tonumber_decimal` — a decimal text below `2^53` is read exactly.
* `tonumber_decimal_le` — a decimal text read as a number of at most `2^52` spells at most that
  number, so a range check on the number is a range check on the text.

**Proof route.** Everything about the decimal texts comes from one equation, `tonumber_decimal_eq`: the text
of `n` is read as the double nearest to `n`. Below `2^53` that double is `n` (`roundDouble_natCast`), since
the unit in the last place is an integer power of two of at most one; from `2^53` on the result is a natural
number of at least `2^53`, or infinity, so a check against a smaller bound still says what it means.

**Not here.** Negative zero, signalling NaNs and the rounding modes other than the default are not modelled.
-/

namespace CampusHub.Foundations.Lua

open CampusHub.Foundations.Decimal

/-- A Lua number. -/
inductive Number where
  | nan
  | inf (negative : Bool)
  | fin (q : ℚ)
  deriving DecidableEq

/-! ## Rounding to a double -/

/-- The nearest integer, ties to even. -/
def roundEven (q : ℚ) : ℤ :=
  if q - ⌊q⌋ < 1 / 2 then ⌊q⌋
  else if 1 / 2 < q - ⌊q⌋ then ⌊q⌋ + 1
  else if ⌊q⌋ % 2 = 0 then ⌊q⌋ else ⌊q⌋ + 1

/-- The exponent of the unit in the last place of a double near `q`. -/
def ulpExponent (q : ℚ) : ℤ := max (Int.log 2 |q| - 52) (-1074)

/-- The nearest double, ties to even; past the largest one, an infinity. -/
def roundDouble (q : ℚ) : Number :=
  let r := roundEven (q / 2 ^ ulpExponent q) * (2 : ℚ) ^ ulpExponent q
  if |r| < 2 ^ 1024 then .fin r else .inf (decide (q < 0))

namespace Number

/-- `-x`. -/
def neg : Number → Number
  | nan => nan
  | inf s => inf (!s)
  | fin q => fin (-q)

/-- `x + y`. -/
def add : Number → Number → Number
  | nan, _ => nan
  | _, nan => nan
  | inf s, inf t => if s = t then inf s else nan
  | inf s, fin _ => inf s
  | fin _, inf t => inf t
  | fin p, fin q => roundDouble (p + q)

/-- `x == y`; false when either side is not a number. -/
def eq : Number → Number → Bool
  | inf s, inf t => s = t
  | fin p, fin q => p = q
  | _, _ => false

/-- `x < y`; false when either side is not a number. -/
def lt : Number → Number → Bool
  | nan, _ => false
  | _, nan => false
  | inf s, inf t => s && !t
  | inf s, fin _ => s
  | fin _, inf t => !t
  | fin p, fin q => decide (p < q)

/-- `x <= y`; false when either side is not a number. -/
def le : Number → Number → Bool
  | nan, _ => false
  | _, nan => false
  | inf s, inf t => s || !t
  | inf s, fin _ => s
  | fin _, inf t => !t
  | fin p, fin q => decide (p ≤ q)

/-- `math.floor(x)`. -/
def floor : Number → Number
  | nan => nan
  | inf s => inf s
  | fin q => fin ⌊q⌋

/-- `string.format('%.0f', x)`. -/
def format0 : Number → String
  | nan => "nan"
  | inf s => if s then "-inf" else "inf"
  | fin q =>
    if roundEven q < 0 then "-" ++ decimal (roundEven q).natAbs else decimal (roundEven q).natAbs

/-- A natural number as a Lua number. -/
def ofNat (n : ℕ) : Number := fin n

end Number

/-- Equality of two finite numbers is that of the rationals. -/
@[simp] theorem eq_fin_fin (p q : ℚ) : (Number.fin p).eq (Number.fin q) = decide (p = q) := rfl

/-- The order of finite numbers is that of the rationals. -/
@[simp] theorem lt_fin_fin (p q : ℚ) : (Number.fin p).lt (Number.fin q) = decide (p < q) := rfl

/-- The weak order of finite numbers is that of the rationals. -/
@[simp] theorem le_fin_fin (p q : ℚ) : (Number.fin p).le (Number.fin q) = decide (p ≤ q) := rfl

/-- Naturals are compared as naturals. -/
@[simp] theorem eq_ofNat (m n : ℕ) : (Number.ofNat m).eq (.ofNat n) = decide (m = n) := by
  simp [Number.ofNat]

/-- Naturals are ordered as naturals. -/
@[simp] theorem lt_ofNat (m n : ℕ) : (Number.ofNat m).lt (.ofNat n) = decide (m < n) := by
  simp [Number.ofNat]

/-- The weak order of naturals is theirs. -/
@[simp] theorem le_ofNat (m n : ℕ) : (Number.ofNat m).le (.ofNat n) = decide (m ≤ n) := by
  simp [Number.ofNat]

/-- A Lua number that equals a natural is that natural. -/
theorem eq_ofNat_iff {x : Number} {n : ℕ} : x.eq (.ofNat n) = true ↔ x = .ofNat n := by
  cases x <;> simp [Number.eq, Number.ofNat]

/-- What is not at most `y` is not below it. -/
theorem lt_of_le_eq_false {x y : Number} (h : x.le y = false) : x.lt y = false := by
  cases x <;> cases y <;> simp_all [Number.le, Number.lt]
  exact h.le

/-- A Lua number that equals a rational is that rational. -/
theorem eq_fin_iff {x : Number} {q : ℚ} : x.eq (.fin q) = true ↔ x = .fin q := by
  cases x <;> simp [Number.eq]

/-! ## Rounding integers -/

/-- An integer is its own nearest integer. -/
@[simp] theorem roundEven_intCast (n : ℤ) : roundEven n = n := by
  unfold roundEven; simp

/-- Rounding does not go below the floor. -/
theorem floor_le_roundEven (q : ℚ) : ⌊q⌋ ≤ roundEven q := by
  unfold roundEven
  split_ifs <;> omega

/-- Below `2^53` the unit in the last place is at most one. -/
theorem ulpExponent_of_lt {n : ℕ} (hn : n < 2 ^ 53) :
    ∃ k : ℕ, ulpExponent (n : ℚ) = -(k : ℤ) := by
  have hlog : Int.log 2 |(n : ℚ)| < 53 := by
    rcases Nat.eq_zero_or_pos n with rfl | h
    · simp
    · refine (Int.lt_zpow_iff_log_lt (b := 2) (by decide) (by simpa using h)).mp ?_
      rw [Nat.abs_cast]
      exact_mod_cast hn
  refine ⟨(-ulpExponent (n : ℚ)).toNat, ?_⟩
  have : ulpExponent (n : ℚ) ≤ 0 := by unfold ulpExponent; omega
  omega

/-- Every natural number below `2^53` is a double. -/
theorem roundDouble_natCast {n : ℕ} (hn : n < 2 ^ 53) : roundDouble (n : ℚ) = .fin n := by
  obtain ⟨k, hk⟩ := ulpExponent_of_lt hn
  have hscale : (n : ℚ) / 2 ^ ulpExponent (n : ℚ) = ((n * 2 ^ k : ℕ) : ℤ) := by
    rw [hk, zpow_neg, zpow_natCast, div_inv_eq_mul]; push_cast; ring
  have hback : ((((n * 2 ^ k : ℕ) : ℤ) : ℚ)) * (2 : ℚ) ^ ulpExponent (n : ℚ) = n := by
    rw [hk, zpow_neg, zpow_natCast]; push_cast; field_simp
  unfold roundDouble
  simp only [hscale, roundEven_intCast, hback]
  have hlt : |(n : ℚ)| < 2 ^ 1024 := by
    rw [Nat.abs_cast]
    calc (n : ℚ) < 2 ^ 53 := by exact_mod_cast hn
      _ ≤ 2 ^ 1024 := pow_le_pow_right₀ (by norm_num) (by norm_num)
  rw [if_pos hlt]

/-- From `2^53` on it is at least two, and the number is at least `2^52` of it. -/
theorem ulpExponent_of_le {n : ℕ} (hn : 2 ^ 53 ≤ n) : 1 ≤ ulpExponent (n : ℚ) ∧
    (2 : ℚ) ^ (52 : ℤ) * 2 ^ ulpExponent (n : ℚ) ≤ n := by
  have hpos : (0 : ℚ) < n := by exact_mod_cast (show 0 < 2 ^ 53 by norm_num).trans_le hn
  have hlog : 53 ≤ Int.log 2 (n : ℚ) :=
    (Int.zpow_le_iff_le_log (b := 2) (by decide) hpos).mp (by exact_mod_cast hn)
  have he : ulpExponent (n : ℚ) = Int.log 2 (n : ℚ) - 52 := by
    unfold ulpExponent; rw [Nat.abs_cast]; omega
  refine ⟨by omega, ?_⟩
  have := Int.zpow_log_le_self (b := 2) (by decide) hpos
  rw [he, ← zpow_add₀ (by norm_num)]
  simpa using this

/-- A natural number from `2^53` on rounds to an integer of at least `2^53`, or to infinity. -/
theorem roundDouble_natCast_of_le {n : ℕ} (hn : 2 ^ 53 ≤ n) :
    roundDouble (n : ℚ) = .inf false ∨
      ∃ m : ℕ, 2 ^ 53 ≤ m ∧ roundDouble (n : ℚ) = .fin m := by
  obtain ⟨he, hle⟩ := ulpExponent_of_le hn
  obtain ⟨k, hk⟩ : ∃ k : ℕ, ulpExponent (n : ℚ) = ((k + 1 : ℕ) : ℤ) :=
    ⟨(ulpExponent (n : ℚ) - 1).toNat, by omega⟩
  have hpow : (0 : ℚ) < 2 ^ ulpExponent (n : ℚ) := zpow_pos (by norm_num) _
  have hfloor : (2 ^ 52 : ℤ) ≤ roundEven ((n : ℚ) / 2 ^ ulpExponent (n : ℚ)) := by
    refine le_trans (Int.le_floor.mpr ?_) (floor_le_roundEven _)
    rw [le_div_iff₀ hpow]
    exact_mod_cast hle
  unfold roundDouble
  simp only
  split_ifs with hlt
  · right
    obtain ⟨r, hr⟩ := Int.eq_ofNat_of_zero_le (le_trans (by positivity) hfloor)
    rw [hr] at hfloor ⊢
    have hr52 : 2 ^ 52 ≤ r := by exact_mod_cast hfloor
    refine ⟨r * 2 ^ (k + 1), ?_, ?_⟩
    · calc 2 ^ 53 = 2 ^ 52 * 2 ^ 1 := by norm_num
        _ ≤ r * 2 ^ (k + 1) :=
          Nat.mul_le_mul hr52 (Nat.pow_le_pow_right (by decide) (by omega))
    · rw [hk, zpow_natCast]; push_cast; rfl
  · left
    have : ¬ (n : ℚ) < 0 := not_lt.mpr (by positivity)
    simp [this]

/-- The double nearest to a natural number is a natural number or infinity. -/
theorem roundDouble_natCast_cases (n : ℕ) :
    roundDouble (n : ℚ) = .inf false ∨ ∃ m : ℕ, roundDouble (n : ℚ) = .fin m := by
  rcases lt_or_ge n (2 ^ 53) with h | h
  · exact .inr ⟨n, roundDouble_natCast h⟩
  · rcases roundDouble_natCast_of_le h with h | ⟨m, -, hm⟩
    · exact .inl h
    · exact .inr ⟨m, hm⟩

/-- A natural number is formatted as its decimal text. -/
@[simp] theorem format0_ofNat (n : ℕ) : (Number.ofNat n).format0 = decimal n := by
  have h : roundEven (n : ℚ) = n := roundEven_intCast n
  simp [Number.ofNat, Number.format0, h]

/-- A natural number is its own floor. -/
@[simp] theorem floor_ofNat (n : ℕ) : (Number.ofNat n).floor = .ofNat n := by
  simp [Number.ofNat, Number.floor]

/-- Sums below `2^53` are exact. -/
theorem add_ofNat {m n : ℕ} (h : m + n < 2 ^ 53) :
    (Number.ofNat m).add (.ofNat n) = .ofNat (m + n) := by
  have := roundDouble_natCast h
  push_cast at this
  simp only [Number.ofNat, Number.add]
  push_cast
  exact this

/-! ## `tonumber` -/

/-- The value of a hexadecimal digit. -/
def hexDigit (c : Char) : Option ℕ :=
  if c.isDigit then some (c.toNat - 48)
  else if 'a' ≤ c ∧ c ≤ 'f' then some (c.toNat - 87)
  else if 'A' ≤ c ∧ c ≤ 'F' then some (c.toNat - 55)
  else none

/-- The value of a decimal digit. -/
def decDigit (c : Char) : Option ℕ := if c.isDigit then some (c.toNat - 48) else none

/-- The digits at the front of a text: their value after `acc`, how many there are, and the rest. -/
def readDigits (base : ℕ) (digit : Char → Option ℕ) : ℕ → ℕ → List Char → ℕ × ℕ × List Char
  | acc, count, [] => (acc, count, [])
  | acc, count, c :: cs =>
    match digit c with
    | some d => readDigits base digit (base * acc + d) (count + 1) cs
    | none => (acc, count, c :: cs)

/-- An optional exponent: a mark, a sign, decimal digits; without a digit it is not read. -/
def readExponent (mark : Char → Bool) (cs : List Char) : ℤ × List Char :=
  match cs with
  | [] => (0, cs)
  | c :: rest =>
    if mark c then
      let (negative, digits) := readSign rest
      let (value, count, tail) := readDigits 10 decDigit 0 0 digits
      if count = 0 then (0, cs) else (if negative then -(value : ℤ) else value, tail)
    else (0, cs)

/-- Digits with an optional fraction and exponent: `digits.digits` times `expBase ^ exponent`. -/
def readFloat (base expBase : ℕ) (digit : Char → Option ℕ) (mark : Char → Bool) (cs : List Char) :
    Option (Number × List Char) :=
  let (whole, n, rest) := readDigits base digit 0 0 cs
  let (mantissa, m, rest) :=
    match rest with
    | '.' :: fraction => readDigits base digit whole 0 fraction
    | _ => (whole, 0, rest)
  if n + m = 0 then none
  else
    let (e, tail) := readExponent mark rest
    some (roundDouble ((mantissa : ℚ) / (base : ℚ) ^ m * (expBase : ℚ) ^ e), tail)

/-- The rest of a text after a word, in any case. -/
def readWord (word : String) (cs : List Char) : Option (List Char) :=
  if (cs.take word.length).map Char.toLower = word.toList then some (cs.drop word.length) else none

/-- C99 `strtod` after spaces and sign. -/
def readMagnitude (cs : List Char) : Option (Number × List Char) :=
  match readWord "nan" cs with
  | some rest => some (.nan, rest)
  | none =>
    match readWord "infinity" cs with
    | some rest => some (.inf false, rest)
    | none =>
      match readWord "inf" cs with
      | some rest => some (.inf false, rest)
      | none =>
        match readWord "0x" cs with
        | some rest => readFloat 16 2 hexDigit (fun c => c = 'p' || c = 'P') rest
        | none => readFloat 10 10 decDigit (fun c => c = 'e' || c = 'E') cs

/-- `tonumber(s)`. -/
def tonumber (s : String) : Option Number :=
  let (negative, rest) := readSign ((s.toList.takeWhile (· ≠ '\x00')).dropWhile isSpace)
  match readMagnitude rest with
  | none => none
  | some (value, tail) =>
    if (tail.dropWhile isSpace).isEmpty then some (if negative then value.neg else value) else none

/-- A text of digits is read to its end. -/
theorem readDigits_of_isDigit {cs : List Char} (h : ∀ c ∈ cs, c.isDigit = true) (acc count : ℕ) :
    readDigits 10 decDigit acc count cs = (Nat.ofDigitChars 10 cs acc, count + cs.length, []) := by
  induction cs generalizing acc count with
  | nil => simp [readDigits]
  | cons c cs ih =>
    have hc : c.isDigit = true := h c (by simp)
    simp only [readDigits, decDigit, if_pos hc, List.length_cons, Nat.ofDigitChars_cons]
    rw [ih fun x hx => h x (by simp [hx])]
    simp only [Prod.mk.injEq, and_true]
    exact ⟨rfl, by omega⟩

/-- A digit starts none of the words. -/
theorem readWord_digit (word : String) {w : Char} {ws cs : List Char} (hw : word.toList = w :: ws)
    {c : Char} (hc : c.isDigit = true) (hne : w.isDigit = false) : readWord word (c :: cs) = none := by
  unfold readWord
  rw [if_neg]
  have hlen : word.length = ws.length + 1 := by rw [← String.length_toList, hw]; rfl
  rw [hw, hlen]
  simp only [List.take_succ_cons, List.map_cons, List.cons.injEq, not_and]
  intro h
  have hlow : c.toLower = c := by
    obtain ⟨h1, h2⟩ := toNat_of_isDigit hc
    rw [← digitChar_of_isDigit hc]
    have hlt : c.toNat - 48 < 10 := by omega
    generalize c.toNat - 48 = n at hlt
    interval_cases n <;> rfl
  rw [hlow] at h
  rw [h, hne] at hc
  exact absurd hc (by decide)

/-- A text of digits does not start with `0x`. -/
theorem readWord_hex_of_isDigit {cs : List Char} (h : ∀ c ∈ cs, c.isDigit = true) :
    readWord "0x" cs = none := by
  unfold readWord
  rw [if_neg]
  intro heq
  have hx : 'x' ∈ (cs.take 2).map Char.toLower := by
    have : "0x".length = 2 := rfl
    rw [this] at heq
    rw [heq]; decide
  obtain ⟨c, hc, hcx⟩ := List.mem_map.mp hx
  have hd := h c (List.mem_of_mem_take hc)
  obtain ⟨h1, h2⟩ := toNat_of_isDigit hd
  rw [← digitChar_of_isDigit hd] at hcx
  have hlt : c.toNat - 48 < 10 := by omega
  generalize c.toNat - 48 = n at hlt hcx
  interval_cases n <;> exact absurd hcx (by decide)

/-- A decimal text is read as the double nearest to its value. -/
theorem tonumber_decimal_eq (n : ℕ) : tonumber (decimal n) = some (roundDouble n) := by
  obtain ⟨c, cs, hcs, hdig, hv⟩ := decimal_cons n
  have hc := hdig c List.mem_cons_self
  have htake : (c :: cs).takeWhile (· ≠ '\x00') = c :: cs := by
    rw [List.takeWhile_eq_self_iff]
    intro x hx
    exact decide_eq_true (ne_of_isDigit (hdig x hx) (by decide))
  have hmag : readMagnitude (c :: cs) = some (roundDouble n, []) := by
    unfold readMagnitude
    rw [readWord_digit "nan" rfl hc (by decide),
      readWord_digit "infinity" rfl hc (by decide),
      readWord_digit "inf" rfl hc (by decide), readWord_hex_of_isDigit hdig]
    simp only [readFloat, readDigits_of_isDigit hdig, hv]
    simp [readExponent]
  unfold tonumber
  rw [hcs, htake, List.dropWhile_cons_of_neg (by simp [isSpace_of_isDigit hc]),
    readSign_of_isDigit cs hc]
  simp [hmag]

/-- A decimal text below `2^53` is read exactly. -/
theorem tonumber_decimal {n : ℕ} (hn : n < 2 ^ 53) : tonumber (decimal n) = some (.ofNat n) := by
  rw [tonumber_decimal_eq, roundDouble_natCast hn]
  rfl

/-- A decimal text whose number is at most `b < 2^53` spells at most `b`. -/
theorem tonumber_decimal_le {n b : ℕ} {x : Number} (hb : b < 2 ^ 53)
    (h : tonumber (decimal n) = some x) (hx : (Number.ofNat b).lt x = false) : n ≤ b := by
  rw [tonumber_decimal_eq, Option.some.injEq] at h
  subst h
  rcases lt_or_ge n (2 ^ 53) with hn | hn
  · rw [roundDouble_natCast hn] at hx
    simpa [Number.ofNat] using hx
  · rcases roundDouble_natCast_of_le hn with hr | ⟨m, hm, hr⟩
    · simp [hr, Number.ofNat, Number.lt] at hx
    · rw [hr] at hx
      simp [Number.ofNat] at hx
      omega

end CampusHub.Foundations.Lua
