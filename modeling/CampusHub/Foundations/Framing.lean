import Mathlib.Data.Nat.Basic
import Mathlib.Data.UInt

/-!
# Byte framing

* `bigEndian w n` — `n` in `w` bytes, the most significant first; `readBigEndian` reads it back.
* `SelfDelimiting encode` — a code word followed by anything is read in one way only.
* `SelfDelimiting.append`, `.tagged`, `.flatMap` — fields one after the other, a field whose header
  says what follows, and a counted sequence of fields.

A digest tells two inputs apart only if their bytes differ, so a fingerprint over several fields has to be
an injective encoding. Injectivity of each field is not enough when fields are put in a row; what is needed
is that each field says where it ends. `SelfDelimiting` is this property, and it is closed under the three
ways in which the fields of a record are put together, so that a whole layout is handled field by field.

**Proof route.** Code words of one length are self-delimiting by `List.append_inj`; a tagged field uses that
the header is read first and the same way in both texts, and a counted sequence is an induction on the
count.

**Not here.** Reading a frame back: only that it can be done in one way.
-/

namespace CampusHub.Foundations.Framing

/-! ## Numbers in a fixed number of bytes -/

/-- The `w` low bytes of `n`, the most significant first. -/
def bigEndian : ℕ → ℕ → List UInt8
  | 0, _ => []
  | w + 1, n => bigEndian w (n / 256) ++ [UInt8.ofNat n]

/-- The number that the bytes spell. -/
def readBigEndian (bytes : List UInt8) : ℕ := bytes.foldl (fun n b => n * 256 + b.toNat) 0

/-- The last byte counts for the units. -/
@[simp] theorem readBigEndian_concat (bytes : List UInt8) (b : UInt8) :
    readBigEndian (bytes ++ [b]) = readBigEndian bytes * 256 + b.toNat := by
  simp [readBigEndian]

/-- A number takes as many bytes as it is given. -/
@[simp] theorem length_bigEndian (w n : ℕ) : (bigEndian w n).length = w := by
  induction w generalizing n with
  | zero => rfl
  | succ w ih => simp [bigEndian, ih]

/-- What fits in the bytes is read back. -/
theorem readBigEndian_bigEndian (w n : ℕ) : readBigEndian (bigEndian w n) = n % 256 ^ w := by
  induction w generalizing n with
  | zero => simp [bigEndian, readBigEndian, Nat.mod_one]
  | succ w ih =>
    have hpow : 256 ^ (w + 1) = 256 * 256 ^ w := pow_succ' 256 w
    unfold bigEndian
    rw [readBigEndian_concat, ih, UInt8.toNat_ofNat', hpow, Nat.mod_mul, Nat.mul_comm, Nat.add_comm]

/-- Below `256 ^ w` nothing is lost. -/
theorem bigEndian_inj {w m n : ℕ} (hm : m < 256 ^ w) (hn : n < 256 ^ w) :
    bigEndian w m = bigEndian w n ↔ m = n := by
  constructor
  · intro h
    have hread := congrArg readBigEndian h
    rwa [readBigEndian_bigEndian, readBigEndian_bigEndian, Nat.mod_eq_of_lt hm,
      Nat.mod_eq_of_lt hn] at hread
  · rintro rfl
    rfl

/-! ## Codes that say where they end -/

variable {α β γ : Type*}

/-- What follows a code word never changes how it is read. -/
def SelfDelimiting (encode : α → List β) : Prop :=
  ∀ ⦃a b : α⦄ ⦃s t : List β⦄, encode a ++ s = encode b ++ t → a = b ∧ s = t

/-- A code that says where it ends tells its values apart. -/
theorem SelfDelimiting.injective {encode : α → List β} (h : SelfDelimiting encode) :
    Function.Injective encode := by
  intro a b hab
  exact (h (s := []) (t := []) (by rw [hab])).1

/-- Code words of one length. -/
theorem selfDelimiting_of_length {encode : α → List β} (w : ℕ)
    (hlength : ∀ a, (encode a).length = w) (hinj : Function.Injective encode) :
    SelfDelimiting encode := by
  intro a b s t h
  obtain ⟨hcode, hrest⟩ := List.append_inj h (by rw [hlength, hlength])
  exact ⟨hinj hcode, hrest⟩

/-- A header, then what the header leaves open. -/
theorem SelfDelimiting.tagged {head : γ → List β} (hhead : SelfDelimiting head) {tag : α → γ}
    {body : α → List β}
    (hbody : ∀ ⦃a b : α⦄ ⦃s t : List β⦄, tag a = tag b → body a ++ s = body b ++ t → a = b ∧ s = t) :
    SelfDelimiting fun a => head (tag a) ++ body a := by
  intro a b s t h
  simp only [List.append_assoc] at h
  obtain ⟨htag, hrest⟩ := hhead h
  exact hbody htag hrest

/-- Two self-delimiting fields, one after the other, are self-delimiting. -/
theorem SelfDelimiting.append {f : α → List β} {g : γ → List β} (hf : SelfDelimiting f)
    (hg : SelfDelimiting g) : SelfDelimiting fun p : α × γ => f p.1 ++ g p.2 := by
  rintro ⟨a, c⟩ ⟨b, d⟩ s t h
  simp only [List.append_assoc] at h
  obtain ⟨rfl, hrest⟩ := hf h
  obtain ⟨rfl, rfl⟩ := hg hrest
  exact ⟨rfl, rfl⟩

/-- As many fields as the reader knows. -/
theorem SelfDelimiting.flatMap {encode : α → List β} (h : SelfDelimiting encode) {xs ys : List α}
    {s t : List β} (hlength : xs.length = ys.length)
    (hcode : xs.flatMap encode ++ s = ys.flatMap encode ++ t) : xs = ys ∧ s = t := by
  induction xs generalizing ys with
  | nil =>
    obtain rfl := List.length_eq_zero_iff.mp hlength.symm
    exact ⟨rfl, hcode⟩
  | cons x xs ih =>
    obtain ⟨y, ys, rfl⟩ := List.exists_cons_of_length_eq_add_one hlength.symm
    simp only [List.flatMap_cons, List.append_assoc] at hcode
    obtain ⟨rfl, hrest⟩ := h hcode
    obtain ⟨rfl, rfl⟩ := ih (Nat.succ.inj hlength) hrest
    exact ⟨rfl, rfl⟩

end CampusHub.Foundations.Framing
