import Mathlib.Data.Char
import Mathlib.Data.List.Basic
import Mathlib.Data.Option.Basic

/-!
# JSON arrays of strings

* `encodeStrings` — the text that `cjson.encode` writes for a list of strings.
* `decodeStrings` — the list that a JSON reader gives for a text that is an array of strings, and
  `none` for any other text.
* `decodeStrings_encodeStrings` — what was written is read back.

The writer is the one of the Lua scripts and the reader the one of the Java side, so the round trip is
between two programs: a payload that a script has encoded is what the service decodes. The reader is made
for any text; white space, escapes that the writer never uses and surrogate pairs are read, and everything
that is no array of strings is refused.

**Proof route.** One character at a time (`readChars_plain`, `readChars_escape`), then a string by induction
on its characters, then the list by induction on its strings, with the number of strings as fuel.

**Not here.** Numbers, nested arrays and objects, and the sparse or mixed tables that `cjson` refuses.
-/

namespace CampusHub.Foundations.Json

/-! ## Writing -/

/-- A character inside a string: the ones with a meaning of their own, and the control characters,
are escaped. -/
def escape (c : Char) : List Char :=
  if c = '\x22' then ['\\', '\x22']
  else if c = '\\' then ['\\', '\\']
  else if c = '/' then ['\\', '/']
  else if c = '\x08' then ['\\', 'b']
  else if c = '\x09' then ['\\', 't']
  else if c = '\x0a' then ['\\', 'n']
  else if c = '\x0c' then ['\\', 'f']
  else if c = '\x0d' then ['\\', 'r']
  else if c.toNat < 32 ∨ c.toNat = 127 then
    ['\\', 'u', '0', '0', Nat.digitChar (c.toNat / 16), Nat.digitChar (c.toNat % 16)]
  else [c]

/-- A string between its quotes. -/
def encodeString (s : String) : List Char := '\x22' :: (s.toList.flatMap escape ++ ['\x22'])

/-- The strings with commas between them. -/
def encodeElements : List String → List Char
  | [] => []
  | [x] => encodeString x
  | x :: xs => encodeString x ++ ',' :: encodeElements xs

/-- The text of a list of strings; an empty table is written as an object. -/
def encodeStrings (xs : List String) : String :=
  if xs = [] then "\x7b\x7d" else String.ofList ('[' :: (encodeElements xs ++ [']']))

/-! ## Reading -/

/-- The value of a hexadecimal digit. -/
def hexValue (c : Char) : Option ℕ :=
  if '0' ≤ c ∧ c ≤ '9' then some (c.toNat - 48)
  else if 'a' ≤ c ∧ c ≤ 'f' then some (c.toNat - 87)
  else if 'A' ≤ c ∧ c ≤ 'F' then some (c.toNat - 55)
  else none

/-- The value of four hexadecimal digits. -/
def hexValue4 (a b c d : Char) : Option ℕ := do
  let a ← hexValue a
  let b ← hexValue b
  let c ← hexValue c
  let d ← hexValue d
  some (a * 4096 + b * 256 + c * 16 + d)

/-- What a character after a backslash stands for. -/
def unescape (c : Char) : Option Char :=
  if c = '\x22' ∨ c = '\\' ∨ c = '/' then some c
  else if c = 'b' then some '\x08'
  else if c = 't' then some '\x09'
  else if c = 'n' then some '\x0a'
  else if c = 'f' then some '\x0c'
  else if c = 'r' then some '\x0d'
  else none

/-- The characters up to the closing quote, and what follows it. A code unit from the surrogate range
counts as the first half of a pair only. -/
def readChars : List Char → Option (List Char × List Char)
  | [] => none
  | '\x22' :: rest => some ([], rest)
  | '\\' :: 'u' :: a :: b :: c :: d :: rest =>
    match hexValue4 a b c d with
    | none => none
    | some n =>
      if n < 0xD800 ∨ 0xE000 ≤ n then (readChars rest).map (Prod.map (Char.ofNat n :: ·) id)
      else if 0xDC00 ≤ n then none
      else
        match rest with
        | '\\' :: 'u' :: e :: f :: g :: h :: rest =>
          match hexValue4 e f g h with
          | none => none
          | some m =>
            if 0xDC00 ≤ m ∧ m < 0xE000 then
              (readChars rest).map
                (Prod.map (Char.ofNat (0x10000 + (n - 0xD800) * 1024 + (m - 0xDC00)) :: ·) id)
            else none
        | _ => none
  | '\\' :: c :: rest =>
    match unescape c with
    | none => none
    | some c => (readChars rest).map (Prod.map (c :: ·) id)
  | c :: rest => if c = '\x00' then none else (readChars rest).map (Prod.map (c :: ·) id)

/-- The text without the white space at its front. -/
def skipSpace (cs : List Char) : List Char :=
  cs.dropWhile fun c => c = '\x20' ∨ c = '\x09' ∨ c = '\x0a' ∨ c = '\x0d'

/-- A string, and what follows it. -/
def readString (cs : List Char) : Option (String × List Char) :=
  match skipSpace cs with
  | '\x22' :: cs => (readChars cs).map (Prod.map String.ofList id)
  | _ => none

/-- The strings up to the closing bracket, and what follows it; there are at most as many as the
first argument says. -/
def readElements : ℕ → List Char → Option (List String × List Char)
  | 0, _ => none
  | n + 1, cs =>
    match readString cs with
    | none => none
    | some (x, rest) =>
      match skipSpace rest with
      | ',' :: rest => (readElements n rest).map (Prod.map (x :: ·) id)
      | ']' :: rest => some ([x], rest)
      | _ => none

/-- The strings of a text that is an array of strings. -/
def decodeStrings (t : String) : Option (List String) :=
  match skipSpace t.toList with
  | '[' :: cs =>
    match skipSpace cs with
    | ']' :: rest => if skipSpace rest = [] then some [] else none
    | _ =>
      match readElements cs.length cs with
      | some (xs, rest) => if skipSpace rest = [] then some xs else none
      | none => none
  | _ => none

/-- What follows the text `p`. -/
def expect (p cs : List Char) : Option (List Char) :=
  if p.isPrefixOf cs then some (cs.drop p.length) else none

/-! ## Reading what was written -/

/-- A text that starts with what is expected. -/
@[simp] theorem expect_append (p cs : List Char) : expect p (p ++ cs) = some cs := by
  simp [expect]

/-- The four digits that are written for a character of one byte spell it. -/
theorem hexValue4_control :
    ∀ n < 128, hexValue4 '0' '0' (Nat.digitChar (n / 16)) (Nat.digitChar (n % 16)) = some n := by
  decide +kernel

/-- A character that is written as itself is read as itself. -/
theorem readChars_plain {c : Char} (hquote : c ≠ '\x22') (hback : c ≠ '\\') (hnul : c ≠ '\x00')
    (cs : List Char) : readChars (c :: cs) = (readChars cs).map (Prod.map (c :: ·) id) := by
  rw [readChars.eq_def]
  split
  · rename_i heq
    cases heq
  · rename_i heq
    exact absurd (List.cons.inj heq).1 hquote
  · rename_i heq
    exact absurd (List.cons.inj heq).1 hback
  · rename_i heq
    exact absurd (List.cons.inj heq).1 hback
  · rename_i heq
    obtain ⟨rfl, rfl⟩ := List.cons.inj heq
    rw [if_neg hnul]

/-- A character is read back from its escape. -/
theorem readChars_escape (c : Char) (cs : List Char) :
    readChars (escape c ++ cs) = (readChars cs).map (Prod.map (c :: ·) id) := by
  unfold escape
  split_ifs with h1 h2 h3 h4 h5 h6 h7 h8 hcontrol
  · subst h1; rfl
  · subst h2; rfl
  · subst h3; rfl
  · subst h4; rfl
  · subst h5; rfl
  · subst h6; rfl
  · subst h7; rfl
  · subst h8; rfl
  · have hn : c.toNat < 128 := by omega
    have hsmall : c.toNat < 0xD800 ∨ 0xE000 ≤ c.toNat := .inl (by omega)
    simp only [List.cons_append, List.nil_append, readChars, hexValue4_control c.toNat hn,
      if_pos hsmall, Char.ofNat_toNat]
  · have hnul : c ≠ '\x00' := by
      rintro rfl
      exact hcontrol (by decide)
    exact readChars_plain h1 h2 hnul cs

/-- The characters of a string are read back, up to the quote that ends it. -/
theorem readChars_encode (s rest : List Char) :
    readChars (s.flatMap escape ++ '\x22' :: rest) = some (s, rest) := by
  induction s with
  | nil => rfl
  | cons c s ih =>
    rw [List.flatMap_cons, List.append_assoc, readChars_escape, ih]
    rfl

/-- A string is read back, and what follows it is left. -/
theorem readString_encode (s : String) (rest : List Char) :
    readString (encodeString s ++ rest) = some (s, rest) := by
  have hskip : skipSpace (encodeString s ++ rest) =
      '\x22' :: (s.toList.flatMap escape ++ '\x22' :: rest) := by
    simp [skipSpace, encodeString]
  rw [readString, hskip]
  simp [readChars_encode]

/-- Two strings or more have a comma between them. -/
theorem encodeElements_cons (x y : String) (xs : List String) :
    encodeElements (x :: y :: xs) = encodeString x ++ ',' :: encodeElements (y :: xs) := rfl

/-- The strings of a list are read back, with enough fuel for all of them. -/
theorem readElements_encode (xs : List String) (rest : List Char) :
    ∀ (x : String) (n : ℕ), xs.length < n →
      readElements n (encodeElements (x :: xs) ++ ']' :: rest) = some (x :: xs, rest) := by
  induction xs with
  | nil =>
    intro x n hn
    obtain ⟨m, rfl⟩ := Nat.exists_eq_add_of_lt hn
    simp [readElements, encodeElements, readString_encode, skipSpace]
  | cons y xs ih =>
    intro x n hn
    obtain ⟨m, rfl⟩ : ∃ m, n = m + 1 := Nat.exists_eq_add_one.mpr (by omega)
    rw [List.length_cons, Nat.succ_lt_succ_iff] at hn
    have hstring := readString_encode x (',' :: (encodeElements (y :: xs) ++ ']' :: rest))
    rw [encodeElements_cons, List.append_assoc, List.cons_append, readElements, hstring]
    simp [skipSpace, ih y m hn]

/-- There is at least one character for each string. -/
theorem length_le_encodeElements (xs : List String) : xs.length ≤ (encodeElements xs).length := by
  induction xs with
  | nil => exact Nat.zero_le _
  | cons x xs ih =>
    cases xs with
    | nil => simp [encodeElements, encodeString]
    | cons y xs =>
      simp only [encodeElements_cons, List.length_append, List.length_cons] at ih ⊢
      omega

/-- **What was written is read back.** -/
theorem decodeStrings_encodeStrings {xs : List String} (h : xs ≠ []) :
    decodeStrings (encodeStrings xs) = some xs := by
  obtain ⟨x, xs, rfl⟩ := List.exists_cons_of_ne_nil h
  have hskip : skipSpace (encodeStrings (x :: xs)).toList =
      '[' :: (encodeElements (x :: xs) ++ [']']) := by
    simp [encodeStrings, skipSpace]
  obtain ⟨tail, htail⟩ : ∃ tail, encodeElements (x :: xs) = '\x22' :: tail := by
    cases xs with
    | nil => exact ⟨_, rfl⟩
    | cons y xs => exact ⟨_, rfl⟩
  have hread : readElements (encodeElements (x :: xs) ++ [']']).length
      (encodeElements (x :: xs) ++ [']']) = some (x :: xs, []) := by
    refine readElements_encode xs [] x _ ?_
    have := length_le_encodeElements (x :: xs)
    rw [List.length_cons] at this
    rw [List.length_append, List.length_singleton]
    omega
  have hbracket : skipSpace (encodeElements (x :: xs) ++ [']']) =
      encodeElements (x :: xs) ++ [']'] := by
    simp [htail, skipSpace]
  rw [decodeStrings, hskip]
  simp only [hbracket, hread]
  rw [htail]
  rfl

end CampusHub.Foundations.Json
