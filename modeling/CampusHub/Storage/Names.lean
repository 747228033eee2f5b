import Mathlib.Computability.RegularExpressions
import CampusHub.Foundations.Decimal
import CampusHub.Foundations.Files

/-!
# The names of images

* `namePattern` — the pattern of the names that are let in.
* `ImageName` — a name that matches it, by its two shards and its file.
* `isImageName_iff` — the pattern matches the texts of these names and nothing else.
* `Uuid`, `storedName` — the name of a new image.
* `components`, `normalize` — the path of a name under the root.

**Theorem** (`isImageName_iff`). A text is let in exactly when it is the name of an image: `/blogs/`, two
shards from 0 to 15 without leading zeros, and a file. `path_injective` and `components_text` say that the
path of such a name goes down three directories to its file, without `.` and `..`, and that no two names
share a path.

**Proof route.** The pattern is a regular expression of Mathlib, whose language is a set of words. The words
of each part are found by themselves (`shard_words`, `mem_oneOf_pow`), and `mem_alphabet` bounds the
characters of a word, which keeps slashes and dots out of the file.

**Left out.** Names that are stored elsewhere: the module says what is let in, not where names come from.
-/

namespace CampusHub.Storage

open CampusHub.Foundations.Decimal CampusHub.Foundations.Files
open RegularExpression

/-! ## The pattern -/

/-- The characters one after another. -/
def literal (s : String) : RegularExpression Char := (s.toList.map char).prod

/-- One of the characters. -/
def oneOf (s : String) : RegularExpression Char := (s.toList.map char).sum

/-- `(?:[0-9]|1[0-5])` -/
def shardPattern : RegularExpression Char := oneOf "0123456789" + char '1' * oneOf "012345"

/-- `[0-9a-f]` -/
def hexPattern : RegularExpression Char := oneOf "0123456789abcdef"

/-- `[0-9a-f]{8}-[0-9a-f]{4}-[0-9a-f]{4}-[0-9a-f]{4}-[0-9a-f]{12}\.(?:jpg|png)` -/
def filePattern : RegularExpression Char :=
  hexPattern ^ 8 * (char '-' * (hexPattern ^ 4 * (char '-' * (hexPattern ^ 4 * (char '-' * (hexPattern ^ 4 *
    (char '-' * (hexPattern ^ 12 * (char '.' * (literal "jpg" + literal "png"))))))))))

/-- `NAME`. Source: `LocalImageStorage.java` 21–22. -/
def namePattern : RegularExpression Char :=
  literal "/blogs/" * (shardPattern * (char '/' * (shardPattern * (char '/' * filePattern))))

/-- The pattern of one character. -/
theorem mem_char {c : Char} {x : List Char} : x ∈ (char c).matches' ↔ x = [c] := Iff.rfl

/-- The pattern of a text. -/
theorem mem_literal {s : String} {x : List Char} : x ∈ (literal s).matches' ↔ x = s.toList := by
  unfold literal
  induction s.toList generalizing x with
  | nil => rfl
  | cons c cs ih =>
    rw [List.map_cons, List.prod_cons, matches'_mul, Language.mem_mul]
    simp only [mem_char, ih]
    simp [eq_comm]

/-- The pattern of one character out of some. -/
theorem mem_oneOf {s : String} {x : List Char} : x ∈ (oneOf s).matches' ↔ ∃ c ∈ s.toList, x = [c] := by
  unfold oneOf
  induction s.toList with
  | nil => simp
  | cons c cs ih =>
    rw [List.map_cons, List.sum_cons, matches'_add, Language.mem_add, mem_char, ih]
    simp

/-- The words of a power are as long as the power, and made of the characters. -/
theorem mem_oneOf_pow {s : String} : ∀ (n : ℕ) {x : List Char},
    x ∈ (oneOf s ^ n).matches' ↔ x.length = n ∧ ∀ c ∈ x, c ∈ s.toList
  | 0, x => by
    rw [matches'_pow, pow_zero, Language.mem_one]
    constructor
    · rintro rfl
      exact ⟨rfl, fun _ hc => by cases hc⟩
    · exact fun h => List.eq_nil_of_length_eq_zero h.1
  | n + 1, x => by
    rw [matches'_pow, pow_succ', Language.mem_mul]
    constructor
    · rintro ⟨y, hy, z, hz, rfl⟩
      obtain ⟨c, hc, rfl⟩ := mem_oneOf.mp hy
      rw [← matches'_pow] at hz
      obtain ⟨hlen, hall⟩ := (mem_oneOf_pow n).mp hz
      refine ⟨by simp [hlen], fun d hd => ?_⟩
      rcases List.mem_cons.mp hd with rfl | hd
      · exact hc
      · exact hall d hd
    · rintro ⟨hlen, hall⟩
      obtain ⟨c, cs, rfl⟩ := List.exists_cons_of_length_eq_add_one hlen
      refine ⟨[c], mem_oneOf.mpr ⟨c, hall c List.mem_cons_self, rfl⟩, cs, ?_, rfl⟩
      rw [← matches'_pow]
      exact (mem_oneOf_pow n).mpr ⟨by simpa using hlen, fun d hd => hall d (List.mem_cons_of_mem c hd)⟩

/-- The words for the shards are the texts of their numbers. -/
theorem shard_words : ("0123456789".toList.map fun c => [c]) ++ ("012345".toList.map fun c => ['1', c]) =
    (List.finRange 16).map fun n => (decimal n.val).toList := by decide

/-- A shard is written as its number. -/
theorem mem_shardPattern {x : List Char} :
    x ∈ shardPattern.matches' ↔ ∃ n : Fin 16, x = (decimal n.val).toList := by
  have hteens : x ∈ (char '1' * oneOf "012345").matches' ↔ ∃ c ∈ "012345".toList, x = ['1', c] := by
    rw [matches'_mul, Language.mem_mul]
    constructor
    · rintro ⟨y, hy, z, hz, rfl⟩
      obtain rfl := mem_char.mp hy
      obtain ⟨c, hc, rfl⟩ := mem_oneOf.mp hz
      exact ⟨c, hc, rfl⟩
    · rintro ⟨c, hc, rfl⟩
      exact ⟨['1'], rfl, [c], mem_oneOf.mpr ⟨c, hc, rfl⟩, rfl⟩
  have hwords : x ∈ shardPattern.matches' ↔
      x ∈ ("0123456789".toList.map fun c => [c]) ++ ("012345".toList.map fun c => ['1', c]) := by
    unfold shardPattern
    rw [matches'_add, Language.mem_add, hteens, mem_oneOf, List.mem_append, List.mem_map, List.mem_map]
    simp only [eq_comm]
  rw [hwords, shard_words, List.mem_map]
  simp only [List.mem_finRange, true_and, eq_comm]

/-! ## Names -/

/-- The file of an image. -/
def IsImageFile (file : String) : Prop := file.toList ∈ filePattern.matches'

/-- A name of an image: its shards and its file. -/
structure ImageName where
  first : Fin 16
  second : Fin 16
  file : String
  file_ok : IsImageFile file

/-- The name as it is written. -/
def ImageName.text (n : ImageName) : String :=
  "/blogs/" ++ decimal n.first.val ++ "/" ++ decimal n.second.val ++ "/" ++ n.file

/-- `NAME.matcher(name).matches()` -/
def isImageName (name : String) : Bool := namePattern.rmatch name.toList

/-- **The pattern matches the names of images and nothing else.** -/
theorem isImageName_iff {name : String} : isImageName name = true ↔ ∃ n : ImageName, n.text = name := by
  unfold isImageName namePattern
  rw [rmatch_iff_matches']
  simp only [matches'_mul, Language.mem_mul, mem_literal, mem_shardPattern, mem_char]
  constructor
  · rintro ⟨_, rfl, _, ⟨_, ⟨first, rfl⟩, _, ⟨_, rfl, _, ⟨_, ⟨second, rfl⟩, _, ⟨_, rfl, file, hfile, rfl⟩, rfl⟩,
      rfl⟩, rfl⟩, hname⟩
    refine ⟨⟨first, second, String.ofList file, by simpa [IsImageFile] using hfile⟩, ?_⟩
    rw [← String.toList_inj, ← hname]
    simp [ImageName.text]
  · rintro ⟨⟨first, second, file, hfile⟩, rfl⟩
    refine ⟨_, rfl, _, ⟨_, ⟨first, rfl⟩, _, ⟨_, rfl, _, ⟨_, ⟨second, rfl⟩, _, ⟨_, rfl, file.toList, hfile, rfl⟩,
      rfl⟩, rfl⟩, rfl⟩, ?_⟩
    simp [ImageName.text]

/-! ## The path of a name -/

/-- The characters of a pattern. -/
def alphabet : RegularExpression Char → List Char
  | .zero | .epsilon => []
  | .char c => [c]
  | .plus P Q | .comp P Q => alphabet P ++ alphabet Q
  | .star P => alphabet P

/-- A word that a pattern matches is made of its characters. -/
theorem mem_alphabet : ∀ (P : RegularExpression Char) {x : List Char}, x ∈ P.matches' → ∀ c ∈ x, c ∈ alphabet P
  | .zero, _, h, _, _ => absurd h (Language.notMem_zero _)
  | .epsilon, x, h, c, hc => by
    obtain rfl := (Language.mem_one x).mp h
    cases hc
  | .char d, x, h, c, hc => by
    obtain rfl := mem_char.mp h
    exact hc
  | .plus P Q, x, h, c, hc => by
    rcases (Language.mem_add _ _ _).mp h with h | h
    · exact List.mem_append_left _ (mem_alphabet P h c hc)
    · exact List.mem_append_right _ (mem_alphabet Q h c hc)
  | .comp P Q, x, h, c, hc => by
    obtain ⟨y, hy, z, hz, rfl⟩ := Language.mem_mul.mp h
    rcases List.mem_append.mp hc with hc | hc
    · exact List.mem_append_left _ (mem_alphabet P hy c hc)
    · exact List.mem_append_right _ (mem_alphabet Q hz c hc)
  | .star P, x, h, c, hc => by
    obtain ⟨L, rfl, hL⟩ := Language.mem_kstar.mp h
    obtain ⟨y, hy, hcy⟩ := List.mem_flatten.mp hc
    exact mem_alphabet P (hL y hy) c hcy

/-- The file of an image is a name within its directory. -/
theorem IsImageFile.plain {file : String} (h : IsImageFile file) :
    '/' ∉ file.toList ∧ file ≠ "" ∧ file ≠ "." ∧ file ≠ ".." := by
  have hne : ∀ other : String, filePattern.rmatch other.toList = false → file ≠ other := by
    rintro other hother rfl
    rw [← Bool.not_eq_true, rmatch_iff_matches'] at hother
    exact hother h
  refine ⟨fun hslash => ?_, hne "" (by decide +kernel), hne "." (by decide +kernel), hne ".." (by decide +kernel)⟩
  exact absurd (mem_alphabet filePattern h '/' hslash) (by decide +kernel)

/-- The names in `name.substring(1)`. -/
def components (name : String) : Path :=
  (((name.toList.drop 1).splitOn '/').map String.ofList).filter (· ≠ "")

/-- `Path.normalize` -/
def normalize (p : Path) : Path :=
  p.foldl (fun here c => if c = "." then here else if c = ".." then here.dropLast else here ++ [c]) []

/-- Below the root: the shards and the file. -/
def ImageName.path (n : ImageName) : Path := ["blogs", decimal n.first.val, decimal n.second.val, n.file]

/-- The text of a number is a name within a directory. -/
theorem decimal_plain (n : ℕ) : '/' ∉ (decimal n).toList ∧ decimal n ≠ "" ∧ decimal n ≠ "." ∧
    decimal n ≠ ".." := by
  have hdot : '.' ∉ (decimal n).toList := not_mem_decimal (by decide) n
  refine ⟨not_mem_decimal (by decide) n, fun h => toList_decimal_ne_nil n (by rw [h]; rfl), fun h => ?_, fun h => ?_⟩
  · exact hdot (by rw [h]; decide)
  · exact hdot (by rw [h]; decide)

/-- The path of an image has no part that leads elsewhere. -/
theorem ImageName.plain_path (n : ImageName) : Plain n.path := by
  intro c hc
  simp only [ImageName.path, List.mem_cons, List.not_mem_nil, or_false] at hc
  rcases hc with rfl | rfl | rfl | rfl
  · decide
  · exact (decimal_plain _).2.2
  · exact (decimal_plain _).2.2
  · exact n.file_ok.plain.2.2

/-- The names in the text of a name are its path. -/
theorem components_text (n : ImageName) : components n.text = n.path := by
  have htext : n.text.toList.drop 1 = ['/'].intercalate (n.path.map String.toList) := by
    simp [ImageName.text, ImageName.path, List.intercalate]
  have hslash : ∀ l ∈ n.path.map String.toList, '/' ∉ l := by
    simp only [ImageName.path, List.map_cons, List.map_nil, List.mem_cons, List.not_mem_nil, or_false]
    rintro l (rfl | rfl | rfl | rfl)
    · decide
    · exact (decimal_plain _).1
    · exact (decimal_plain _).1
    · exact n.file_ok.plain.1
  unfold components
  rw [htext, List.splitOn_intercalate '/' hslash (by simp [ImageName.path]), List.map_map]
  have hmap : n.path.map (String.ofList ∘ String.toList) = n.path := by simp [Function.comp_def]
  rw [hmap, List.filter_eq_self]
  simp only [ImageName.path, List.mem_cons, List.not_mem_nil, or_false]
  rintro c (rfl | rfl | rfl | rfl)
  · decide
  · simpa using (decimal_plain _).2.1
  · simpa using (decimal_plain _).2.1
  · simpa using n.file_ok.plain.2.1

/-- An image is known by its path. -/
theorem path_injective : Function.Injective ImageName.path := by
  rintro ⟨first, second, file, hfile⟩ ⟨first', second', file', hfile'⟩ h
  simp only [ImageName.path, List.cons.injEq, decimal_inj, Fin.val_inj, and_true, true_and] at h
  obtain ⟨rfl, rfl, rfl⟩ := h
  rfl

/-- An image is known by its name. -/
theorem text_injective : Function.Injective ImageName.text := by
  intro n m h
  apply path_injective
  rw [← components_text, h, components_text]

/-- Such a path is normal. -/
theorem normalize_plain {p : Path} (h : Plain p) : normalize p = p := by
  have hfold : ∀ (here : Path), p.foldl
      (fun here c => if c = "." then here else if c = ".." then here.dropLast else here ++ [c]) here = here ++ p := by
    induction p with
    | nil => exact fun here => (List.append_nil here).symm
    | cons c p ih =>
      intro here
      obtain ⟨hdot, hdots⟩ := h c List.mem_cons_self
      rw [List.foldl_cons, if_neg hdot, if_neg hdots, ih fun x hx => h x (List.mem_cons_of_mem c hx),
        List.append_assoc, List.singleton_append]
  exact hfold []

/-! ## The name of a new image -/

/-- What `UUID.randomUUID` draws, by its hexadecimal digits. -/
structure Uuid where
  digits : List (Fin 16)
  length_eq : digits.length = 32
  deriving DecidableEq

/-- `UUID.toString` -/
def Uuid.text (id : Uuid) : String :=
  let hex := id.digits.map fun d => Nat.digitChar d.val
  String.ofList (hex.take 8 ++ '-' :: ((hex.drop 8).take 4 ++ '-' :: ((hex.drop 12).take 4 ++ '-' ::
    ((hex.drop 16).take 4 ++ '-' :: hex.drop 20))))

/-- `String.hashCode` of ASCII characters. -/
def hashCode (s : String) : BitVec 32 := s.toList.foldl (fun h c => 31#32 * h + BitVec.ofNat 32 c.toNat) 0#32

/-- `hash & 15` -/
def lowBits (hash : BitVec 32) : Fin 16 :=
  ⟨(hash &&& 15#32).toNat, by
    rw [BitVec.toNat_and]
    exact lt_of_le_of_lt Nat.and_le_right (by decide)⟩

/-- The extension. Source: `LocalImageStorage.java` 64. -/
def extension (jpeg : Bool) : String := if jpeg then ".jpg" else ".png"

/-- The digits of a `UUID` are those of the pattern. -/
theorem hex_mem (d : Fin 16) : Nat.digitChar d.val ∈ "0123456789abcdef".toList := by
  revert d
  decide

/-- A new file has a name that the pattern matches. -/
theorem uuid_file (id : Uuid) (jpeg : Bool) : IsImageFile (id.text ++ extension jpeg) := by
  have hhex : ∀ (n : ℕ) (ds : List (Fin 16)), ds.length = n →
      ds.map (fun d => Nat.digitChar d.val) ∈ (hexPattern ^ n).matches' := by
    intro n ds hds
    refine (mem_oneOf_pow n).mpr ⟨by simp [hds], fun c hc => ?_⟩
    obtain ⟨d, -, rfl⟩ := List.mem_map.mp hc
    exact hex_mem d
  have hlen := id.length_eq
  unfold IsImageFile filePattern
  simp only [matches'_mul, matches'_add, Language.mem_mul, Language.mem_add, mem_literal, mem_char]
  refine ⟨_, hhex 8 (id.digits.take 8) (by simp [hlen]), _, ⟨_, rfl, _, ⟨_, hhex 4 ((id.digits.drop 8).take 4)
    (by simp [hlen]), _, ⟨_, rfl, _, ⟨_, hhex 4 ((id.digits.drop 12).take 4) (by simp [hlen]), _, ⟨_, rfl, _,
    ⟨_, hhex 4 ((id.digits.drop 16).take 4) (by simp [hlen]), _, ⟨_, rfl, _, ⟨_, hhex 12 (id.digits.drop 20)
    (by simp [hlen]), _, ⟨_, rfl, (if jpeg then "jpg" else "png").toList, ?_, rfl⟩, rfl⟩, rfl⟩, rfl⟩, rfl⟩, rfl⟩,
    rfl⟩, rfl⟩, rfl⟩, ?_⟩
  · cases jpeg
    · exact .inr rfl
    · exact .inl rfl
  · cases jpeg <;> simp [Uuid.text, extension, List.map_take, List.map_drop]

/-- The name of a new image. Source: `LocalImageStorage.java` 62–64. -/
def storedName (id : Uuid) (jpeg : Bool) : ImageName where
  first := lowBits (hashCode id.text)
  second := lowBits ((hashCode id.text).sshiftRight 4)
  file := id.text ++ extension jpeg
  file_ok := uuid_file id jpeg

end CampusHub.Storage
