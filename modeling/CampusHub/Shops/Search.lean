import Mathlib.Data.List.Sort
import CampusHub.Content.Requests
import CampusHub.Foundations.Guards
import CampusHub.Foundations.Like
import CampusHub.Foundations.Lua
import CampusHub.Foundations.Slices

/-!
# The search for shops

* `ShopSearchRequest`, `ShopSearchRequest.valid` — the request and its constraints.
* `ShopSearchCriteria`, `criteria` — what the statements get.
* `filters`, `before`, `ShopTable.count`, `ShopTable.search` — `ShopSearchMapper.xml` over a table.
* `search` — the service.
* `keyword_literal` — the keyword is a plain substring.

**Theorem** (`keyword_literal`). Where a name is compared character by character, it passes the filter
exactly when it contains the trimmed keyword; `%`, `_` and the escape itself stand for themselves. There is
no filter exactly when nothing is left of the keyword.

**Parameters.** How the server compares a name with a pattern, `nameLike`, depends on the collation of the
column; the distances of shops are computed by the server as well, and are values of any ordered type `δ`. What is
proved of the pages holds for all of them.

**Left out.** The indexes and the plan of the statements: a statement answers as if it went through all
rows.
-/

namespace CampusHub.Shops

open CampusHub.Content CampusHub.Foundations.Decimal CampusHub.Foundations.Guards
open CampusHub.Foundations.Like CampusHub.Foundations.Lua CampusHub.Foundations.Slices

/-- A row of `tb_shop`. Source: `hmdp.sql` 106–124. -/
structure Shop where
  id : ℕ
  name : Text
  typeId : ℕ
  images : Text
  area : Option Text
  address : Text
  x : Option Number
  y : Option Number
  avgPrice : Option ℕ
  score : Option ℕ
  openHours : Option Text
  deriving DecidableEq

/-- The rows, under their primary key. -/
structure ShopTable where
  rows : List Shop
  keyed : (rows.map Shop.id).Nodup

/-! ## The request -/

/-- Source: `ShopSearchRequest.java` 8–20. -/
structure ShopSearchRequest where
  keyword : Option Text := none
  typeId : Option ℤ := none
  minPrice : Option ℤ := none
  maxPrice : Option ℤ := none
  minScore : Option ℤ := none
  x : Option Number := none
  y : Option Number := none
  radiusMeters : Option ℤ := none
  sort : Option String := some "id"
  page : Option ℤ := some 1
  size : Option ℤ := some 10
  deriving DecidableEq

/-- A number between two bounds; false for NaN. -/
def between (low high : ℚ) (value : Number) : Bool :=
  Number.le (.fin low) value && Number.le value (.fin high)

/-- `Double.isFinite` -/
def isFinite : Number → Bool
  | .fin _ => true
  | _ => false

namespace ShopSearchRequest

variable (request : ShopSearchRequest)

/-- Source: `ShopSearchRequest.java` 22–25. -/
def isPriceRangeValid : Bool :=
  match request.minPrice, request.maxPrice with
  | some low, some high => decide (low ≤ high)
  | _, _ => true

/-- Source: `ShopSearchRequest.java` 26–31. -/
def isCoordinatesValid : Bool :=
  match request.x, request.y with
  | none, none => decide (request.radiusMeters = none ∧ request.sort ≠ some "distance")
  | some x, some y => isFinite x && isFinite y && between (-180) 180 x && between (-90) 90 y
  | _, _ => false

/-- The bounds of the fields that may be null. -/
def fieldsValid : Bool :=
  decide (∀ keyword ∈ request.keyword, keyword.length ≤ 80) &&
    decide (∀ typeId ∈ request.typeId, 0 < typeId) &&
    decide (∀ price ∈ request.minPrice, 0 ≤ price) &&
    decide (∀ price ∈ request.maxPrice, 0 ≤ price) &&
    decide (∀ score ∈ request.minScore, 0 ≤ score ∧ score ≤ 50) &&
    decide (∀ radius ∈ request.radiusMeters, 1 ≤ radius ∧ radius ≤ 50000)

/-- `@Pattern(regexp = "id|price_asc|price_desc|score_desc|distance")` -/
def sortValid : Bool :=
  decide (request.sort ∈ [some "id", some "price_asc", some "price_desc", some "score_desc",
    some "distance"])

/-- `@NotNull @Min(1) @Max(max)` -/
def pageable (max : ℤ) (value : Option ℤ) : Bool :=
  value.any fun n => decide (1 ≤ n ∧ n ≤ max)

/-- `validator.validate(request).isEmpty()` -/
def valid : Bool :=
  request.fieldsValid && request.sortValid && pageable 500 request.page && pageable 50 request.size &&
    request.isPriceRangeValid && request.isCoordinatesValid

end ShopSearchRequest

/-! ## The criteria -/

/-- Source: `ShopSearchCriteria.java` 9–12. -/
structure ShopSearchCriteria where
  likeKeyword : Option Text
  sort : Option String
  typeId : Option ℤ
  minPrice : Option ℤ
  maxPrice : Option ℤ
  minScore : Option ℤ
  radiusMeters : Option ℤ
  size : ℤ
  offset : ℤ
  x : Option Number
  y : Option Number

/-- `%`, `_` and `!`, the escape of the statement. -/
def sqlWildcards : Wildcards (Fin 65536) where
  many := 37
  single := 95
  escape := 33
  many_ne_single := by decide
  many_ne_escape := by decide
  single_ne_escape := by decide

/-- `"%" + keyword.replace("!", "!!").replace("%", "!%").replace("_", "!_") + "%"`, from `!` outwards. -/
def likePattern (keyword : Text) : Text :=
  37 :: replace 95 [33, 95] (replace 37 [33, 37] (replace 33 [33, 33] keyword)) ++ [37]

/-- Source: `ShopSearchCriteria.java` 15–17. -/
def likeKeyword (keyword : Option Text) : Option Text :=
  match keyword with
  | none => none
  | some keyword => if keyword.trim.isEmpty then none else some (likePattern keyword.trim)

/-- `Math.multiplyExact` on `int`s; nothing when it throws. -/
def multiplyExact (a b : ℤ) : Option ℤ :=
  if -2147483648 ≤ a * b ∧ a * b ≤ 2147483647 then some (a * b) else none

/-- Nothing when the constructor throws. Source: `ShopSearchCriteria.java` 14–22. -/
def criteria (request : ShopSearchRequest) : Option ShopSearchCriteria := do
  let page ← request.page
  let size ← request.size
  let offset ← multiplyExact (page - 1) size
  pure
    { likeKeyword := likeKeyword request.keyword, sort := request.sort, typeId := request.typeId
      minPrice := request.minPrice, maxPrice := request.maxPrice, minScore := request.minScore
      radiusMeters := request.radiusMeters, size := size, offset := offset
      x := request.x, y := request.y }

/-! ## The statements

Two things that the server computes are parameters. The distance of two points: `ShopSearchMapper.xml` 6–10
compute it in floating point. And what `name LIKE pattern ESCAPE '!'` answers: the column `tb_shop.name` has the
collation `utf8mb4_general_ci` (`hmdp.sql` 108), which does not tell letters apart by their case or accents.
-/

section statements

variable {δ : Type} [LinearOrder δ] (nameLike : Text → Text → Bool)
  (distance : Number × Number → Number × Number → δ) (metres : ℤ → δ)

/-- `s.x BETWEEN -180 AND 180 AND s.y BETWEEN -90 AND 90` -/
def validCoordinates (s : Shop) : Bool :=
  s.x.any (between (-180) 180) && s.y.any (between (-90) 90)

/-- The column `distance_meters`. Source: `ShopSearchMapper.xml` 33–38. -/
def distanceMeters (q : ShopSearchCriteria) (s : Shop) : Option δ :=
  match q.x, q.y, s.x, s.y with
  | some qx, some qy, some x, some y =>
    if validCoordinates s then some (distance (qx, qy) (x, y)) else none
  | _, _, _, _ => none

/-- `value >= bound`, if there is a bound. -/
def atLeast (bound : Option ℤ) (value : Option ℕ) : Bool :=
  match bound with
  | none => true
  | some b => value.any fun v => decide (b ≤ v)

/-- `value <= bound`, if there is a bound. -/
def atMost (bound : Option ℤ) (value : Option ℕ) : Bool :=
  match bound with
  | none => true
  | some b => value.any fun v => decide ((v : ℤ) ≤ b)

/-- `s.name LIKE #{q.likeKeyword} ESCAPE '!'`, if there is a pattern. -/
def nameFilter (pattern : Option Text) (name : Text) : Bool :=
  match pattern with
  | none => true
  | some p => nameLike p name

/-- Source: `ShopSearchMapper.xml` 11–24. -/
def filters (q : ShopSearchCriteria) (s : Shop) : Bool :=
  nameFilter nameLike q.likeKeyword s.name &&
    (match q.typeId with
      | none => true
      | some v => decide ((s.typeId : ℤ) = v)) &&
    atLeast q.minPrice s.avgPrice && atMost q.maxPrice s.avgPrice && atLeast q.minScore s.score &&
    (if q.sort = some "distance" ∨ q.radiusMeters.isSome then validCoordinates s else true) &&
    match q.radiusMeters with
    | none => true
    | some radius => (distanceMeters distance q s).any fun d => decide (d ≤ metres radius)

/-- `(value IS NULL), value …`: NULL comes last. -/
def nullsLast (le : ℕ → ℕ → Bool) : Option ℕ → Option ℕ → Bool
  | some a, some b => le a b
  | some _, none => true
  | none, some _ => false
  | none, none => true

/-- The first part of the `ORDER BY`. Source: `ShopSearchMapper.xml` 41–46. -/
def keyBefore (q : ShopSearchCriteria) (a b : Shop) : Bool :=
  if q.sort = some "price_asc" then nullsLast (fun m n => decide (m ≤ n)) a.avgPrice b.avgPrice
  else if q.sort = some "price_desc" then nullsLast (fun m n => decide (n ≤ m)) a.avgPrice b.avgPrice
  else if q.sort = some "score_desc" then nullsLast (fun m n => decide (n ≤ m)) a.score b.score
  else if q.sort = some "distance" then
    match distanceMeters distance q a, distanceMeters distance q b with
    | some d, some e => decide (d ≤ e)
    | some _, none => false
    | none, _ => true
  else true

/-- The `ORDER BY`: the key, then `s.id ASC`. -/
def before (q : ShopSearchCriteria) (a b : Shop) : Bool :=
  keyBefore distance q a b && (!keyBefore distance q b a || decide (a.id ≤ b.id))

/-- Source: `ShopSearchItem.java`. -/
structure ShopSearchItem (δ : Type) where
  id : String
  typeId : String
  name : Text
  images : Text
  area : Option Text
  address : Text
  avgPrice : Option ℕ
  score : Option ℕ
  openHours : Option Text
  distanceMeters : Option δ

def toItem (q : ShopSearchCriteria) (s : Shop) : ShopSearchItem δ where
  id := decimal s.id
  typeId := decimal s.typeId
  name := s.name
  images := s.images
  area := s.area
  address := s.address
  avgPrice := s.avgPrice
  score := s.score
  openHours := s.openHours
  distanceMeters := distanceMeters distance q s

/-- Source: `ShopSearchMapper.java`. Nothing when the database fails. -/
structure ShopSearchMapper (δ : Type) where
  count : ShopSearchCriteria → Option ℕ
  search : ShopSearchCriteria → Option (List (ShopSearchItem δ))

/-- The rows that a search is about. -/
def ShopTable.matching (table : ShopTable) (q : ShopSearchCriteria) : List Shop :=
  table.rows.filter (filters nameLike distance metres q)

/-- Source: `ShopSearchMapper.xml` 25–49. -/
def ShopTable.mapper (table : ShopTable) : ShopSearchMapper δ where
  count q := some (table.matching nameLike distance metres q).length
  search q :=
    some ((slice ((table.matching nameLike distance metres q).mergeSort (before distance q)) q.offset.toNat
      q.size.toNat).map (toItem distance q))

end statements

/-! ## The service -/

inductive SearchFailure where
  | validationFailed
  | shopStateUnavailable
  /-- The constructor of the criteria throws. -/
  | raised
  deriving DecidableEq

/-- Source: `ShopSearchPage.java`. -/
structure ShopSearchPage (δ : Type) where
  items : List (ShopSearchItem δ)
  total : ℕ
  page : ℤ
  size : ℤ
  sort : Option String
  hasNext : Bool

/-- `total == 0 ? Collections.emptyList() : mapper.search(criteria)` -/
def itemsOf {δ : Type} (mapper : ShopSearchMapper δ) (q : ShopSearchCriteria) (total : ℕ) :
    Except SearchFailure (List (ShopSearchItem δ)) :=
  if total = 0 then .ok [] else getOr (mapper.search q) .shopStateUnavailable

/-- Source: `ShopSearchService.java` 24–39. -/
def search {δ : Type} (mapper : ShopSearchMapper δ) (request : Option ShopSearchRequest) :
    Except SearchFailure (ShopSearchPage δ) := do
  let request ← getOr (request.filter ShopSearchRequest.valid) .validationFailed
  let q ← getOr (criteria request) .raised
  let total ← getOr (mapper.count q) .shopStateUnavailable
  let items ← itemsOf mapper q total
  let page ← getOr request.page .raised
  let size ← getOr request.size .raised
  pure
    { items := items, total := total, page := page, size := size, sort := request.sort
      hasNext := decide (page * size < total) }

/-! ## The keyword -/

/-- The pattern is the escaped keyword between two `%`. -/
theorem likePattern_eq (keyword : Text) :
    likePattern keyword =
      sqlWildcards.many :: escaped sqlWildcards keyword ++ [sqlWildcards.many] := by
  rw [← replace_escaped]
  rfl

/-- **The keyword is matched literally**, character by character: a name passes the filter exactly when it
contains the trimmed keyword, and there is no filter exactly when nothing is left of the keyword. -/
theorem keyword_literal (keyword : Text) :
    (∀ pattern, likeKeyword (some keyword) = some pattern →
      ∀ name : Text, like sqlWildcards pattern name = true ↔ keyword.trim <:+: name) ∧
      (likeKeyword (some keyword) = none ↔ keyword.trim = []) ∧
      ∀ name, nameFilter (like sqlWildcards) (likeKeyword (some keyword)) name = true ↔
        keyword.trim <:+: name := by
  have hcontains : ∀ name : Text, like sqlWildcards (likePattern keyword.trim) name = true ↔
      keyword.trim <:+: name := by
    intro name
    rw [likePattern_eq]
    exact like_contains sqlWildcards keyword.trim name
  have hdef : likeKeyword (some keyword) =
      if keyword.trim.isEmpty then none else some (likePattern keyword.trim) := rfl
  rw [hdef]
  refine ⟨?_, ?_, ?_⟩
  · intro pattern h name
    split at h
    · cases h
    · obtain rfl := Option.some.inj h
      exact hcontains name
  · rw [← List.isEmpty_iff]
    split <;> simp_all
  · intro name
    split
    · rename_i hempty
      simp [nameFilter, List.isEmpty_iff.mp hempty]
    · exact hcontains name

end CampusHub.Shops
