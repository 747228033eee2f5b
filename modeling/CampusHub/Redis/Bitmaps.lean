import CampusHub.Foundations.Bits
import CampusHub.Redis.Keyspace

/-!
# Redis strings as bitmaps

* `bitAt`, `writeBit` — a bit of a string, numbered from the highest bit of the first byte on.
* `unsignedField` — the bits of a field as an unsigned number.
* `Database`, `setBit`, `bitfieldGet` — `SETBIT` and `BITFIELD key GET u<bits> <offset>`, with the checks
  the server makes.

The bits of a key are numbered from the highest bit of its first byte, and a field of `n` bits is read with
its first bit as the highest of the number. `getLsbD_unsignedField` states where each bit of the number
comes from, and `setBit_eq_ok_iff` what a `SETBIT` leaves, in terms of `bitAt`; users never look at bytes.

**Proof route.** `SETBIT` pads the string with zero bytes, which no read can tell from the end of the string
(`getD_rightpad`), and then changes one byte by a mask, which is a statement about eight bits.

**Not modelled.** Expiry of a bitmap, the other subcommands of `BITFIELD`, and signed fields.
-/

namespace CampusHub.Redis

open CampusHub.Foundations.Bits

/-! ## Bits of a string -/

/-- Past the end of the string every bit is zero. -/
def bitAt (bytes : List (BitVec 8)) (offset : ℕ) : Bool :=
  (bytes.getD (offset / 8) 0).getLsbD (7 - offset % 8)

/-- The string grows by zero bytes up to the one that is written. -/
def writeBit (bytes : List (BitVec 8)) (offset : ℕ) (on : Bool) : List (BitVec 8) :=
  let byte := offset / 8
  let bit := 7 - offset % 8
  let grown := bytes.rightpad (byte + 1) 0
  let byteval := grown.getD byte 0
  grown.set byte (byteval &&& ~~~(1#8 <<< bit) ||| (BitVec.ofBool on).setWidth 8 <<< bit)

/-- An empty string has no bit set. -/
@[simp] theorem bitAt_nil (offset : ℕ) : bitAt [] offset = false := by simp [bitAt]

/-- Padding a list with the default value changes no element that is read. -/
theorem getD_rightpad {α : Type} (n : ℕ) (a : α) (l : List α) (i : ℕ) :
    (l.rightpad n a).getD i a = l.getD i a := by
  rw [List.rightpad, List.getD_eq_getElem?_getD, List.getElem?_append, List.getD_eq_getElem?_getD]
  split
  · rfl
  · rename_i hlen
    rw [List.getElem?_eq_none (not_lt.mp hlen), List.getElem?_replicate]
    split <;> rfl

/-- Masking a bit out and putting it in again changes this bit of the byte only. -/
theorem getLsbD_writeByte (byteval : BitVec 8) {bit i : ℕ} (on : Bool) (hbit : bit < 8) (hi : i < 8) :
    (byteval &&& ~~~(1#8 <<< bit) ||| (BitVec.ofBool on).setWidth 8 <<< bit).getLsbD i =
      if i = bit then on else byteval.getLsbD i := by
  rw [BitVec.getLsbD_or, BitVec.getLsbD_and, BitVec.getLsbD_not, BitVec.getLsbD_shiftLeft,
    BitVec.getLsbD_shiftLeft, BitVec.getLsbD_setWidth, BitVec.getLsbD_one, BitVec.getLsbD_ofBool]
  rcases lt_trichotomy i bit with h | rfl | h
  · simp [h, h.ne, hi]
  · simp [hi]
  · simp [hi, h.ne', h.not_gt, show i - bit ≠ 0 by omega]

/-- A write changes its own bit and no other. -/
theorem bitAt_writeBit (bytes : List (BitVec 8)) (offset : ℕ) (on : Bool) (o : ℕ) :
    bitAt (writeBit bytes offset on) o = if o = offset then on else bitAt bytes o := by
  have hlen : offset / 8 < (bytes.rightpad (offset / 8 + 1) 0).length := by
    rw [List.length_rightpad]
    omega
  unfold bitAt writeBit
  by_cases hbyte : o / 8 = offset / 8
  · have hbit : 7 - o % 8 = 7 - offset % 8 ↔ o = offset := by omega
    rw [hbyte, List.getD_eq_getElem?_getD, List.getElem?_set_self hlen, Option.getD_some,
      getLsbD_writeByte _ _ (by omega) (by omega), getD_rightpad]
    simp only [hbit]
  · have hne : o ≠ offset := by
      rintro rfl
      exact hbyte rfl
    rw [List.getD_eq_getElem?_getD, List.getElem?_set_ne (Ne.symm hbyte), ← List.getD_eq_getElem?_getD,
      getD_rightpad, if_neg hne]

/-- The field starts at `offset`, and its first bit is the highest of the number. -/
def unsignedField (bytes : List (BitVec 8)) (offset bits : ℕ) : BitVec 64 :=
  spell 64 ((List.range bits).map fun j => bitAt bytes (offset + j))

/-- The lowest bit of a field is the last bit of the string that it covers. -/
theorem getLsbD_unsignedField (bytes : List (BitVec 8)) (offset : ℕ) {bits i : ℕ} (hbits : bits ≤ 64) :
    (unsignedField bytes offset bits).getLsbD i =
      (decide (i < bits) && bitAt bytes (offset + (bits - 1 - i))) := by
  rw [unsignedField, getLsbD_spell, List.getD_eq_getElem?_getD]
  by_cases hi : i < bits
  · rw [List.getElem?_reverse (by simpa using hi)]
    simp [hi, hi.trans_le hbits, show bits - 1 - i < bits by omega]
  · rw [List.getElem?_eq_none (by simpa using hi)]
    simp [hi]

/-! ## Commands -/

/-- What a key holds: a string, by its bytes, or a value of another type. -/
inductive Stored where
  | string (bytes : List (BitVec 8))
  | other (kind : Kind)
  deriving DecidableEq

/-- What each key holds. -/
def Database (κ : Type) : Type := κ → Option Stored

variable {κ : Type}

namespace Database

/-- A database with no key. -/
def empty : Database κ := fun _ => none

/-- The database with another string under a key. -/
def putString [DecidableEq κ] (db : Database κ) (k : κ) (bytes : List (BitVec 8)) : Database κ :=
  fun k' => if k' = k then some (.string bytes) else db k'

/-- The bytes of a string key; a key that is absent reads as the empty string. -/
def bytesAt (db : Database κ) (k : κ) : Except Failure (List (BitVec 8)) :=
  match db k with
  | none => .ok []
  | some (.string bytes) => .ok bytes
  | some (.other _) => .error .wrongType

/-- `SETBIT key offset on` -/
def setBit [DecidableEq κ] (db : Database κ) (k : κ) (offset : ℕ) (on : Bool) :
    Except Failure (Database κ) := do
  let bytes ← db.bytesAt k
  .ok (db.putString k (writeBit bytes offset on))

/-- `BITFIELD key GET u<bits> <offset>` -/
def bitfieldGet (db : Database κ) (k : κ) (bits offset : ℕ) : Except Failure (List (BitVec 64)) := do
  let bytes ← db.bytesAt k
  .ok [unsignedField bytes offset bits]

section write

variable [DecidableEq κ] {db db' : Database κ} {k k' : κ} {offset : ℕ} {on : Bool}

/-- A write puts the bit into the bytes of its key. -/
theorem setBit_eq_ok_iff : db.setBit k offset on = .ok db' ↔
    ∃ bytes, db.bytesAt k = .ok bytes ∧ db' = db.putString k (writeBit bytes offset on) := by
  unfold setBit
  cases db.bytesAt k with
  | error e => simp [Bind.bind, Except.bind]
  | ok bytes =>
    simp only [Bind.bind, Except.bind, Except.ok.injEq, exists_eq_left']
    exact eq_comm

/-- A string that was put is read. -/
@[simp] theorem bytesAt_putString_self (bytes : List (BitVec 8)) :
    (db.putString k bytes).bytesAt k = .ok bytes := by
  simp [bytesAt, putString]

/-- The other strings are as before. -/
theorem bytesAt_putString_of_ne (h : k' ≠ k) (bytes : List (BitVec 8)) :
    (db.putString k bytes).bytesAt k' = db.bytesAt k' := by
  simp [bytesAt, putString, h]

end write

end Database

end CampusHub.Redis
