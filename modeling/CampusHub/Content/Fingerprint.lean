import CampusHub.Content.Requests
import CampusHub.Foundations.Framing

/-!
# The fingerprint of a publication

* `BlogCreateRequest`, `NewBlog`, `toBlog` — the request, the post that is made of it.
* `fingerprintInput` — the bytes that `fingerprint` gives to the digest.
* `fingerprint_injective` — the bytes say what the four fields are, whatever units the texts hold.

**Theorem** (`fingerprint_injective`). Two posts whose shop ids, if any, are positive have the same bytes
exactly when shop, title, images and content agree. Texts are lists of UTF-16 code units, so unpaired
surrogates are told apart, which an encoding as UTF-8 would not do: it writes each of them as `?`.

**Proof route.** Every part of the input is self-delimiting in the sense of `Foundations.Framing`, and a
sequence of such parts is injective. The mark `-1` of the text `null` and the number 0 of a missing shop lie
outside of what texts and shops can have (`lengthMark_some_ne`, `shopId_inj`).

**Left out.** The digest: that SHA-256 tells these bytes apart is not stated. `Publishing` takes it as a
parameter.
-/

namespace CampusHub.Content

open CampusHub.Foundations.Framing

/-- A Java `String`: its length is an `int`. -/
structure JavaString where
  units : Text
  short : units.length ≤ 2147483647
  deriving DecidableEq

/-- Source: `BlogCreateRequest.java` 13–23. -/
structure BlogCreateRequest where
  shopId : Option (BitVec 64)
  title : Option JavaString
  images : Option JavaString
  content : Option JavaString
  deriving DecidableEq

/-- The fields of a `Blog` that `toBlog` sets. -/
structure NewBlog where
  shopId : Option (BitVec 64)
  title : Option JavaString
  images : Option JavaString
  content : Option JavaString
  liked : ℕ
  comments : ℕ
  deriving DecidableEq

/-- `if (images == null || images.trim().isEmpty()) images = ""` -/
def normalizedImages (images : Option JavaString) : JavaString :=
  match images with
  | none => ⟨[], Nat.zero_le _⟩
  | some images => if images.units.isBlank then ⟨[], Nat.zero_le _⟩ else images

/-- Source: `ApiModelMapper.java` 33–40. -/
def toBlog (request : BlogCreateRequest) : NewBlog where
  shopId := request.shopId
  title := request.title
  images := some (normalizedImages request.images)
  content := request.content
  liked := 0
  comments := 0

/-- `ByteBuffer.allocate(8).putLong(value).array()` -/
def putLong (value : BitVec 64) : List UInt8 := bigEndian 8 value.toNat

/-- `ByteBuffer.allocate(4).putInt(value).array()` -/
def putInt (value : BitVec 32) : List UInt8 := bigEndian 4 value.toNat

/-- The two bytes of a code unit: `(byte) (unit >>> 8)` and `(byte) unit`. -/
def unitBytes (unit : Fin 65536) : List UInt8 := [UInt8.ofNat (unit.val >>> 8), UInt8.ofNat unit.val]

/-- The number before a text; the text `null` has the number -1. -/
def lengthMark (text : Option JavaString) : BitVec 32 :=
  match text with
  | none => -1
  | some text => BitVec.ofNat 32 text.units.length

/-- The units of a text. -/
def unitsOf (text : Option JavaString) : List UInt8 :=
  match text with
  | none => []
  | some text => text.units.flatMap unitBytes

/-- Source: `BlogPublicationService.java` 110–119. -/
def field (text : Option JavaString) : List UInt8 := putInt (lengthMark text) ++ unitsOf text

/-- `getBytes(StandardCharsets.US_ASCII)` of a text of ASCII characters. -/
def asciiBytes (s : String) : List UInt8 := s.toList.map fun c => UInt8.ofNat c.toNat

/-- What `fingerprint` gives to `digest.update`, one after the other. Source:
`BlogPublicationService.java` 94–98. -/
def fingerprintInput (blog : NewBlog) : List UInt8 :=
  asciiBytes "CampusHub:POST/blog:v1" ++ putLong (blog.shopId.getD (-1)) ++ field blog.title ++
    field blog.images ++ field blog.content

/-! ## What the bytes determine -/

/-- Eight bytes say which number they are, and where they end. -/
theorem putLong_selfDelimiting : SelfDelimiting putLong := by
  refine selfDelimiting_of_length 8 (fun _ => length_bigEndian 8 _) ?_
  intro a b h
  exact BitVec.eq_of_toNat_eq ((bigEndian_inj a.isLt b.isLt).mp h)

/-- Four bytes say which number they are, and where they end. -/
theorem putInt_selfDelimiting : SelfDelimiting putInt := by
  refine selfDelimiting_of_length 4 (fun _ => length_bigEndian 4 _) ?_
  intro a b h
  exact BitVec.eq_of_toNat_eq ((bigEndian_inj a.isLt b.isLt).mp h)

/-- Two bytes say which code unit they are, and where they end. -/
theorem unitBytes_selfDelimiting : SelfDelimiting unitBytes := by
  refine selfDelimiting_of_length 2 (fun _ => rfl) ?_
  intro a b h
  simp only [unitBytes, List.cons.injEq, and_true] at h
  obtain ⟨hhigh, hlow⟩ := h
  have hhigh := congrArg UInt8.toNat hhigh
  have hlow := congrArg UInt8.toNat hlow
  simp only [UInt8.toNat_ofNat', Nat.shiftRight_eq_div_pow] at hhigh hlow
  exact Fin.ext (by omega)

/-- No text is as long as the mark of `null` says. -/
theorem lengthMark_some_ne (text : JavaString) : lengthMark (some text) ≠ lengthMark none := by
  intro h
  have hnat := congrArg BitVec.toNat h
  have hshort := text.short
  have hmark : (BitVec.ofNat 32 text.units.length).toNat = text.units.length % 2 ^ 32 :=
    BitVec.toNat_ofNat ..
  have hnull : (-1 : BitVec 32).toNat = 4294967295 := rfl
  rw [lengthMark, lengthMark, hmark, hnull] at hnat
  omega

/-- The mark of a text is its length. -/
theorem length_eq_of_lengthMark {a b : JavaString} (h : lengthMark (some a) = lengthMark (some b)) :
    a.units.length = b.units.length := by
  have hnat := congrArg BitVec.toNat h
  have ha := a.short
  have hb := b.short
  simp only [lengthMark, BitVec.toNat_ofNat] at hnat
  omega

/-- A field says where it ends: its mark tells how many units follow. -/
theorem field_selfDelimiting : SelfDelimiting field := by
  refine putInt_selfDelimiting.tagged ?_
  intro a b s t hmark hunits
  cases a with
  | none =>
    cases b with
    | none => exact ⟨rfl, hunits⟩
    | some b => exact absurd hmark.symm (lengthMark_some_ne b)
  | some a =>
    cases b with
    | none => exact absurd hmark (lengthMark_some_ne a)
    | some b =>
      obtain ⟨heq, hrest⟩ :=
        unitBytes_selfDelimiting.flatMap (length_eq_of_lengthMark hmark) hunits
      cases a
      cases b
      cases heq
      exact ⟨rfl, hrest⟩

/-- The number for `null` is not the number of a shop. -/
theorem shopId_inj {a b : Option (BitVec 64)} (ha : ∀ id ∈ a, 0 < id.toInt)
    (hb : ∀ id ∈ b, 0 < id.toInt) (h : a.getD (-1) = b.getD (-1)) : a = b := by
  have hnull : ¬ (0 < (-1 : BitVec 64).toInt) := by decide
  cases a with
  | none =>
    cases b with
    | none => rfl
    | some id =>
      obtain rfl : -1 = id := h
      exact absurd (hb _ rfl) hnull
  | some id =>
    cases b with
    | none =>
      obtain rfl : id = -1 := h
      exact absurd (ha _ rfl) hnull
    | some id' => exact congrArg some h

/-- The five fields one after the other. -/
theorem fields_eq_of_fingerprintInput {a b : NewBlog} (h : fingerprintInput a = fingerprintInput b) :
    a.shopId.getD (-1) = b.shopId.getD (-1) ∧ a.title = b.title ∧ a.images = b.images ∧
      a.content = b.content := by
  unfold fingerprintInput at h
  simp only [List.append_assoc] at h
  obtain ⟨hshop, htitle⟩ := putLong_selfDelimiting (List.append_cancel_left h)
  obtain ⟨htitle, himages⟩ := field_selfDelimiting htitle
  obtain ⟨himages, hcontent⟩ := field_selfDelimiting himages
  exact ⟨hshop, htitle, himages, field_selfDelimiting.injective hcontent⟩

/-- **The bytes are the same exactly when the four fields are**; so two requests have the same bytes
exactly when they make the same post. -/
theorem fingerprint_injective :
    (∀ a b : NewBlog, (∀ id ∈ a.shopId, 0 < id.toInt) → (∀ id ∈ b.shopId, 0 < id.toInt) →
      (fingerprintInput a = fingerprintInput b ↔
        a.shopId = b.shopId ∧ a.title = b.title ∧ a.images = b.images ∧ a.content = b.content)) ∧
    ∀ r s : BlogCreateRequest, (∀ id ∈ r.shopId, 0 < id.toInt) → (∀ id ∈ s.shopId, 0 < id.toInt) →
      (fingerprintInput (toBlog r) = fingerprintInput (toBlog s) ↔ toBlog r = toBlog s) := by
  have key : ∀ a b : NewBlog, (∀ id ∈ a.shopId, 0 < id.toInt) → (∀ id ∈ b.shopId, 0 < id.toInt) →
      (fingerprintInput a = fingerprintInput b ↔
        a.shopId = b.shopId ∧ a.title = b.title ∧ a.images = b.images ∧ a.content = b.content) := by
    intro a b ha hb
    constructor
    · intro h
      obtain ⟨hshop, hrest⟩ := fields_eq_of_fingerprintInput h
      exact ⟨shopId_inj ha hb hshop, hrest⟩
    · rintro ⟨hshop, htitle, himages, hcontent⟩
      unfold fingerprintInput
      rw [hshop, htitle, himages, hcontent]
  refine ⟨key, ?_⟩
  intro r s hr hs
  rw [key (toBlog r) (toBlog s) hr hs]
  constructor
  · rintro ⟨hshop, htitle, himages, hcontent⟩
    unfold toBlog at *
    rw [NewBlog.mk.injEq]
    exact ⟨hshop, htitle, himages, hcontent, rfl, rfl⟩
  · intro h
    rw [h]
    exact ⟨rfl, rfl, rfl, rfl⟩

/-- The text `b` is short. -/
theorem short_b : ([98] : Text).length ≤ 2147483647 := by decide

/-- A post with a title of one unit, about a shop or the campus. -/
def titled (shopId : Option (BitVec 64)) (unit : Fin 65536) : NewBlog where
  shopId := shopId
  title := some ⟨[unit], by simp⟩
  images := some ⟨[], by decide⟩
  content := some ⟨[98], short_b⟩
  liked := 0
  comments := 0

/-- Two unpaired surrogates are told apart in posts about one shop, and a post about a shop from a post about
another one and from a campus post. -/
theorem fingerprint_surrogates :
    fingerprintInput (titled (some 7) 0xD800) ≠ fingerprintInput (titled (some 7) 0xD801) ∧
      fingerprintInput (titled (some 7) 0xD800) ≠ fingerprintInput (titled (some 8) 0xD800) ∧
      fingerprintInput (titled (some 7) 0xD800) ≠ fingerprintInput (titled none 0xD800) := by
  have hseven : ∀ unit, ∀ id ∈ (titled (some 7) unit).shopId, 0 < id.toInt := by
    rintro unit id ⟨⟩
    decide
  have hother : ∀ id ∈ (titled (some 8) 0xD800).shopId, 0 < id.toInt := by
    rintro id ⟨⟩
    decide
  have hcampus : ∀ id ∈ (titled none 0xD800).shopId, 0 < id.toInt := nofun
  refine ⟨fun h => ?_, fun h => ?_, fun h => ?_⟩
  · obtain ⟨-, htitle, -, -⟩ := (fingerprint_injective.1 _ _ (hseven _) (hseven _)).mp h
    revert htitle
    decide
  · obtain ⟨hshop, -⟩ := (fingerprint_injective.1 _ _ (hseven _) hother).mp h
    revert hshop
    decide
  · obtain ⟨hshop, -⟩ := (fingerprint_injective.1 _ _ (hseven _) hcampus).mp h
    revert hshop
    decide

end CampusHub.Content
