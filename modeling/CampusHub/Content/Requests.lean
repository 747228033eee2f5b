import Mathlib.Data.List.DropRight
import CampusHub.Domain

/-!
# The requests of the content writers

* `Text` — a Java `String`, `Text.isBlank`, `Text.trim`.
* `positive` — the check of an id.
* `BlogCommentCreateRequest`, … — the request bodies and their constraints.

A Java `String` may hold unpaired surrogates, and its length is counted in code units, so a text is a list
of them. What the annotations of the request classes ask for, and the check of an id that every service
method makes first (`positive`), are the definitions here.

Each request body has one definition, with the bounds of its own annotations; what passes is a tuple or a
structure of the values that the service goes on with.

**Left out.** The texts of the constraint violations, which the framework makes, and fields that no method
reads.
-/

namespace CampusHub.Content

/-- A Java `String`: its UTF-16 code units. -/
abbrev Text := List (Fin 65536)

instance neZero_textUnits : NeZero 65536 := ⟨by decide⟩

/-- `text.trim().isEmpty()`; `trim` takes the units up to U+0020 away. -/
def Text.isBlank (t : Text) : Bool := t.all fun u => decide (u.val ≤ 32)

/-- `text.trim()` -/
def Text.trim (t : Text) : Text :=
  (t.dropWhile fun u => decide (u.val ≤ 32)).rdropWhile fun u => decide (u.val ≤ 32)

/-- A `Long` that is neither null nor `<= 0`. -/
def positive : Option ℤ → Option ℕ
  | some value => if 0 < value then some value.toNat else none
  | none => none

/-- `@NotBlank @Size(max = …)`. -/
def notBlank (max : ℕ) (t : Option Text) : Option Text :=
  t.filter fun t => !t.isBlank && decide (t.length ≤ max)

/-- Source: `BlogCommentCreateRequest.java` 13–21. -/
structure BlogCommentCreateRequest where
  blogId : Option ℤ
  content : Option Text
  deriving DecidableEq

/-- The values of a request that meets its constraints. -/
def BlogCommentCreateRequest.validated (request : Option BlogCommentCreateRequest) :
    Option (ℕ × Text) := do
  let request ← request
  let blogId ← positive request.blogId
  let content ← notBlank 255 request.content
  pure (blogId, content)

/-- Source: `BlogCommentReplyRequest.java` 11–15. -/
structure BlogCommentReplyRequest where
  content : Option Text
  deriving DecidableEq

def BlogCommentReplyRequest.validated (request : Option BlogCommentReplyRequest) : Option Text := do
  let request ← request
  notBlank 255 request.content

/-- Source: `BlogCommentHideRequest.java` 8–12. -/
structure BlogCommentHideRequest where
  reason : Option Text
  deriving DecidableEq

def BlogCommentHideRequest.validated (request : Option BlogCommentHideRequest) : Option Text := do
  let request ← request
  notBlank 255 request.reason

/-- Source: `BlogEditRequest.java` 12–23. -/
structure BlogEditRequest where
  title : Option Text
  images : Option Text
  content : Option Text
  deriving DecidableEq

/-- An edit that meets its constraints; missing and blank images are the empty text
(`BlogServiceImpl.java` 94–95). -/
structure ValidEdit where
  title : Text
  images : Text
  content : Text
  deriving DecidableEq

def BlogEditRequest.validated (request : Option BlogEditRequest) : Option ValidEdit := do
  let request ← request
  let title ← notBlank 255 request.title
  let images := request.images.getD []
  let content ← notBlank 2048 request.content
  if images.length ≤ 2048 then
    pure ⟨title, if images.isBlank then [] else images, content⟩
  else none

/-- A positive number passes the check. -/
theorem positive_natCast {n : ℕ} (h : 0 < n) : positive (some (n : ℤ)) = some n := by
  simp [positive, h]

/-- What passes the check is a positive number. -/
theorem exists_of_positive {value : Option ℤ} {n : ℕ} (h : positive value = some n) :
    0 < n ∧ value = some (n : ℤ) := by
  cases value with
  | none => cases h
  | some v =>
    simp only [positive] at h
    split at h
    · obtain rfl := Option.some.inj h
      exact ⟨by omega, congrArg some (by omega)⟩
    · cases h

end CampusHub.Content
