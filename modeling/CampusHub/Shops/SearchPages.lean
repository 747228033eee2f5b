import CampusHub.Shops.Search

/-!
# The pages of a search

* `before_total`, `before_trans`, `eq_of_before` — the `ORDER BY` is a total order of the rows.
* `search_valid` — the answer to a valid request.
* `follow` — a client that follows `hasNext`.
* `search_pages` — the pages are the slices of the one order; a client that follows `hasNext` gets the
  matches one after the other, up to page 500.

**Theorem** (`search_pages`). A valid request has one order of its matches, page `page` holds those at its
positions, `total` is their number, and the offset never overflows. While `hasNext` holds and `page` is
below 500 the next page is valid and not empty. A client that follows `hasNext` from page 1 gets the first
500 pages of the matches, each once, and all of them if there are no more.

**Proof route.** The `ORDER BY` ends with the id, so that no two rows of a table tie (`eq_of_before`), and a
sorted list of rows is determined by its rows (`ShopTable.Matches.eq`). The pages are slices of that list in
the sense of `Foundations.Slices`.

**Beyond.** `search_pages_beyond` and `search_pages_manyShops` have the 501st page: `hasNext` announces it
and the validation refuses it.

**Left out.** Changes of the table between two pages.
-/

namespace CampusHub.Shops

open CampusHub.Content CampusHub.Foundations.Guards CampusHub.Foundations.Like
open CampusHub.Foundations.Lua CampusHub.Foundations.Slices

/-! ## The order -/

section nulls

variable {le : ℕ → ℕ → Bool}

/-- Of two values of a column one comes first. -/
theorem nullsLast_total (h : ∀ m n, (le m n || le n m) = true) (a b : Option ℕ) :
    (nullsLast le a b || nullsLast le b a) = true := by
  cases a with
  | none => cases b <;> simp [nullsLast]
  | some m =>
    cases b with
    | none => simp [nullsLast]
    | some n => exact h m n

/-- The order of the values is transitive. -/
theorem nullsLast_trans (h : ∀ l m n, le l m = true → le m n = true → le l n = true)
    {a b c : Option ℕ} (hab : nullsLast le a b = true) (hbc : nullsLast le b c = true) :
    nullsLast le a c = true := by
  cases c with
  | none => cases a <;> rfl
  | some n =>
    cases b with
    | none => cases hbc
    | some m =>
      cases a with
      | none => cases hab
      | some l => exact h l m n hab hbc

end nulls

section order

variable {δ : Type} [LinearOrder δ] (nameLike : Text → Text → Bool)
  (distance : Number × Number → Number × Number → δ) (metres : ℤ → δ) (q : ShopSearchCriteria)

/-- Of two rows one comes first by the key. -/
theorem keyBefore_total (a b : Shop) :
    (keyBefore distance q a b || keyBefore distance q b a) = true := by
  have hle : ∀ m n : ℕ, (decide (m ≤ n) || decide (n ≤ m)) = true := by
    intro m n
    simpa using le_total m n
  unfold keyBefore
  split
  · exact nullsLast_total hle _ _
  · split
    · exact nullsLast_total (fun m n => hle n m) _ _
    · split
      · exact nullsLast_total (fun m n => hle n m) _ _
      · split
        · cases distanceMeters distance q a <;> cases distanceMeters distance q b <;>
            simp [le_total]
        · rfl

/-- The order by the key is transitive. -/
theorem keyBefore_trans {a b c : Shop} (hab : keyBefore distance q a b = true)
    (hbc : keyBefore distance q b c = true) : keyBefore distance q a c = true := by
  have hle : ∀ l m n : ℕ, decide (l ≤ m) = true → decide (m ≤ n) = true →
      decide (l ≤ n) = true := by
    intro l m n hlm hmn
    simp only [decide_eq_true_eq] at *
    omega
  have hge : ∀ l m n : ℕ, decide (m ≤ l) = true → decide (n ≤ m) = true →
      decide (n ≤ l) = true := fun l m n hml hnm => hle n m l hnm hml
  unfold keyBefore at *
  split
  · rename_i hsort
    simp only [hsort, if_true] at hab hbc
    exact nullsLast_trans hle hab hbc
  · rename_i hsort
    simp only [hsort, if_false] at hab hbc
    split
    · rename_i hsort
      simp only [hsort, if_true] at hab hbc
      exact nullsLast_trans hge hab hbc
    · rename_i hsort
      simp only [hsort, if_false] at hab hbc
      split
      · rename_i hsort
        simp only [hsort, if_true] at hab hbc
        exact nullsLast_trans hge hab hbc
      · rename_i hsort
        simp only [hsort, if_false] at hab hbc
        split
        · rename_i hsort
          simp only [hsort, if_true] at hab hbc
          revert hab hbc
          cases distanceMeters distance q a with
          | none => simp
          | some d =>
            cases distanceMeters distance q b with
            | none => simp
            | some e =>
              cases distanceMeters distance q c with
              | none => simp
              | some f => simpa using fun hde hef => le_trans hde hef
        · rfl

/-- Of two rows one comes first. -/
theorem before_total (a b : Shop) : (before distance q a b || before distance q b a) = true := by
  have htotal := keyBefore_total distance q a b
  have hid : a.id ≤ b.id ∨ b.id ≤ a.id := le_total _ _
  unfold before
  cases hab : keyBefore distance q a b with
  | false =>
    rw [hab, Bool.false_or] at htotal
    simp [htotal]
  | true =>
    cases hba : keyBefore distance q b a with
    | false => rfl
    | true => simpa using hid

/-- The order of the rows is transitive. -/
theorem before_trans {a b c : Shop} (hab : before distance q a b = true)
    (hbc : before distance q b c = true) : before distance q a c = true := by
  unfold before at *
  simp only [Bool.and_eq_true, Bool.or_eq_true, Bool.not_eq_true', decide_eq_true_eq] at *
  obtain ⟨hab, habid⟩ := hab
  obtain ⟨hbc, hbcid⟩ := hbc
  refine ⟨keyBefore_trans distance q hab hbc, ?_⟩
  -- where `c` is no later than `a` in the key, neither is `b` than `a`, nor `c` than `b`
  cases hca : keyBefore distance q c a with
  | false => exact Or.inl rfl
  | true =>
    right
    have hba := keyBefore_trans distance q hbc hca
    have hcb := keyBefore_trans distance q hca hab
    simp only [hba, hcb, Bool.true_eq_false, false_or] at habid hbcid
    exact le_trans habid hbcid

/-- Two rows that come before each other are one row of the table. -/
theorem eq_of_before {table : ShopTable} {a b : Shop} (ha : a ∈ table.rows) (hb : b ∈ table.rows)
    (hab : before distance q a b = true) (hba : before distance q b a = true) : a = b := by
  unfold before at *
  simp only [Bool.and_eq_true, Bool.or_eq_true, Bool.not_eq_true', decide_eq_true_eq] at *
  obtain ⟨hkeyab, hidab⟩ := hab
  obtain ⟨hkeyba, hidba⟩ := hba
  simp only [hkeyab, hkeyba, Bool.true_eq_false, false_or] at hidab hidba
  exact List.inj_on_of_nodup_map table.keyed ha hb (le_antisymm hidab hidba)

/-- A statement answers its rows in this order. -/
theorem pairwise_before (rows : List Shop) :
    (rows.mergeSort (before distance q)).Pairwise fun a b => before distance q a b = true := by
  apply List.pairwise_mergeSort
  · intro a b c hab hbc
    exact before_trans distance q hab hbc
  · exact before_total distance q

/-- The rows that match, in the order of the search. -/
structure ShopTable.Matches (table : ShopTable) (L : List Shop) : Prop where
  perm : L.Perm (table.matching nameLike distance metres q)
  sorted : L.Pairwise fun a b => before distance q a b = true

variable {q} in
/-- There is one such order, and the statement finds it. -/
theorem ShopTable.Matches.eq {table : ShopTable} {L : List Shop}
    (h : table.Matches nameLike distance metres q L) :
    (table.matching nameLike distance metres q).mergeSort (before distance q) = L := by
  refine List.Perm.eq_of_pairwise ?_ (pairwise_before distance q _) h.sorted
    ((List.mergeSort_perm _ _).trans h.perm.symm)
  intro a b ha hb
  have hmem : ∀ s ∈ table.matching nameLike distance metres q, s ∈ table.rows :=
    fun s hs => (List.mem_filter.mp hs).1
  exact eq_of_before distance q (hmem a (List.mem_mergeSort.mp ha)) (hmem b (h.perm.mem_iff.mp hb))

/-- What the statement answers are the rows that match, in order. -/
theorem ShopTable.matches_mergeSort (table : ShopTable) :
    table.Matches nameLike distance metres q
      ((table.matching nameLike distance metres q).mergeSort (before distance q)) where
  perm := List.mergeSort_perm _ _
  sorted := pairwise_before distance q _

end order

/-! ## The answers -/

namespace ShopSearchRequest

variable {request : ShopSearchRequest}

/-- The same request for another page. -/
def onPage (request : ShopSearchRequest) (page : ℕ) : ShopSearchRequest :=
  { request with page := some page }

/-- A request asks for its own page. -/
theorem onPage_self {page : ℕ} (h : request.page = some (page : ℤ)) : request.onPage page = request := by
  unfold onPage
  rw [← h]

/-- A number of a page is positive and not too large. -/
theorem exists_of_pageable {max : ℤ} {value : Option ℤ} (h : pageable max value = true) :
    ∃ n : ℕ, value = some (n : ℤ) ∧ 1 ≤ n ∧ (n : ℤ) ≤ max := by
  cases value with
  | none => cases h
  | some v =>
    simp only [pageable, Option.any_some, decide_eq_true_eq] at h
    exact ⟨v.toNat, congrArg some (by omega), by omega, by omega⟩

/-- The page and the size of a valid request. -/
theorem bounds (h : request.valid = true) :
    ∃ page size : ℕ, request.page = some (page : ℤ) ∧ request.size = some (size : ℤ) ∧
      (1 ≤ page ∧ page ≤ 500) ∧ 1 ≤ size ∧ size ≤ 50 := by
  simp only [valid, Bool.and_eq_true] at h
  obtain ⟨⟨⟨⟨-, hpage⟩, hsize⟩, -⟩, -⟩ := h
  obtain ⟨page, hpage, hlow, hhigh⟩ := exists_of_pageable hpage
  obtain ⟨size, hsize, hone, hfifty⟩ := exists_of_pageable hsize
  exact ⟨page, size, hpage, hsize, ⟨hlow, by omega⟩, hone, by omega⟩

/-- Of a valid request, the pages 1 to 500 are valid. -/
theorem valid_onPage (h : request.valid = true) (page : ℕ) :
    (request.onPage page).valid = true ↔ 1 ≤ page ∧ page ≤ 500 := by
  simp only [valid, Bool.and_eq_true] at h
  obtain ⟨⟨⟨⟨⟨hfields, hsort⟩, -⟩, hsize⟩, hprice⟩, hcoordinates⟩ := h
  have hrest : (request.onPage page).valid = pageable 500 (some (page : ℤ)) := by
    have hdef : (request.onPage page).valid = (request.fieldsValid && request.sortValid &&
        pageable 500 (some (page : ℤ)) && pageable 50 request.size && request.isPriceRangeValid &&
        request.isCoordinatesValid) := rfl
    rw [hdef, hfields, hsort, hsize, hprice, hcoordinates]
    simp
  rw [hrest]
  simp only [pageable, Option.any_some, decide_eq_true_eq]
  omega

/-- The criteria of the pages differ in the offset, which never overflows. -/
theorem exists_criteria {size : ℕ} (hsize : request.size = some (size : ℤ)) (hfifty : size ≤ 50) :
    ∃ q : ShopSearchCriteria, q.size = size ∧ ∀ page : ℕ, 1 ≤ page → page ≤ 500 →
      criteria (request.onPage page) = some { q with offset := ((page - 1) * size : ℕ) } := by
  refine ⟨⟨likeKeyword request.keyword, request.sort, request.typeId, request.minPrice,
    request.maxPrice, request.minScore, request.radiusMeters, size, 0, request.x, request.y⟩, rfl, ?_⟩
  intro page hlow hhigh
  have hbound : (page - 1) * size ≤ 500 * 50 := Nat.mul_le_mul (by omega) hfifty
  have hproduct : ((page : ℤ) - 1) * (size : ℤ) = ((page - 1) * size : ℕ) := by
    rw [Nat.cast_mul, Nat.cast_sub hlow, Nat.cast_one]
  have hexact : multiplyExact ((page : ℤ) - 1) size = some (((page - 1) * size : ℕ) : ℤ) := by
    unfold multiplyExact
    rw [hproduct, if_pos (by omega)]
  unfold criteria
  simp only [onPage, hsize, Option.bind_eq_bind, Option.bind_some, hexact, Option.pure_def]

end ShopSearchRequest

section service

variable {δ : Type} [LinearOrder δ] (nameLike : Text → Text → Bool)
  (distance : Number × Number → Number × Number → δ) (metres : ℤ → δ) {table : ShopTable}
  {request : ShopSearchRequest} {q : ShopSearchCriteria} {L : List Shop} {page size : ℕ}

/-- The answer for a page of the rows `L`. -/
def pageOf (request : ShopSearchRequest) (q : ShopSearchCriteria) (L : List Shop) (page size : ℕ) :
    ShopSearchPage δ where
  items := (slice L ((page - 1) * size) size).map (toItem distance q)
  total := L.length
  page := page
  size := size
  sort := request.sort
  hasNext := decide (page * size < L.length)

/-- What the service answers to a valid request. -/
theorem search_valid (hvalid : (request.onPage page).valid = true)
    (hsize : request.size = some (size : ℤ)) (hq : q.size = size)
    (hcriteria : criteria (request.onPage page) =
      some { q with offset := ((page - 1) * size : ℕ) })
    (hL : table.Matches nameLike distance metres q L) :
    search (table.mapper nameLike distance metres) (some (request.onPage page)) =
      .ok (pageOf distance request q L page size) := by
  -- without a match there is no second statement, and its answer would be empty
  have hitems : itemsOf (table.mapper nameLike distance metres)
      { q with offset := ((page - 1) * size : ℕ) } L.length =
      .ok ((slice L ((page - 1) * size) size).map (toItem distance q)) := by
    unfold itemsOf
    split
    · rename_i hempty
      rw [List.length_eq_zero_iff.mp hempty]
      simp [slice]
    · show Except.ok ((slice ((table.matching nameLike distance metres q).mergeSort (before distance q))
        ((((page - 1) * size : ℕ) : ℤ).toNat) q.size.toNat).map (toItem distance q)) = _
      rw [hL.eq, hq, Int.toNat_natCast, Int.toNat_natCast]
  have htotal : (table.mapper nameLike distance metres).count { q with offset := ((page - 1) * size : ℕ) } =
      some L.length := congrArg some hL.perm.length_eq.symm
  have hhasNext : decide ((page : ℤ) * size < (L.length : ℤ)) = decide (page * size < L.length) := by
    rw [decide_eq_decide]
    norm_cast
  have hpage : (request.onPage page).page = some (page : ℤ) := rfl
  have hsize' : (request.onPage page).size = some (size : ℤ) := hsize
  unfold search pageOf
  simp only [Option.filter_some, hvalid, if_true, getOr_bind_eq_ok, Option.some.injEq, exists_eq_left',
    hcriteria, htotal, hitems, hpage, hsize', ← hhasNext]
  rfl

/-- What the service answers to a request that is not valid. -/
theorem search_refused (hvalid : request.valid = false) :
    search (table.mapper nameLike distance metres) (some request) = .error .validationFailed := by
  unfold search
  rw [Option.filter_some, hvalid]
  rfl

/-- A client that asks for a page, and for the next one as long as `hasNext` says so. -/
def follow (mapper : ShopSearchMapper δ) (request : ShopSearchRequest) : ℕ → ℕ → List (ShopSearchItem δ)
  | 0, _ => []
  | fuel + 1, page =>
    match search mapper (some (request.onPage page)) with
    | .error _ => []
    | .ok answer => answer.items ++ if answer.hasNext then follow mapper request fuel (page + 1) else []

/-- From page `page` on it gets what is left of the first 500 pages. -/
theorem follow_eq (hvalid : request.valid = true) (hsize : request.size = some (size : ℤ))
    (hq : q.size = size) (hL : table.Matches nameLike distance metres q L)
    (hcriteria : ∀ page : ℕ, 1 ≤ page → page ≤ 500 → criteria (request.onPage page) =
      some { q with offset := ((page - 1) * size : ℕ) }) (fuel : ℕ) :
    ∀ page, 1 ≤ page → page ≤ 501 → 501 < fuel + page →
      follow (table.mapper nameLike distance metres) request fuel page =
        ((L.take (500 * size)).drop ((page - 1) * size)).map (toItem distance q) := by
  induction fuel with
  | zero =>
    intro page _ _ hfuel
    omega
  | succ fuel ih =>
    intro page hlow hhigh hfuel
    unfold follow
    by_cases hlast : page = 501
    · subst hlast
      have hrefused : (request.onPage 501).valid = false := by
        rw [Bool.eq_false_iff]
        intro h
        have hbounds := (ShopSearchRequest.valid_onPage hvalid 501).mp h
        omega
      rw [search_refused nameLike distance metres hrefused, List.drop_take_self]
      rfl
    · have hbounds : 1 ≤ page ∧ page ≤ 500 := ⟨hlow, by omega⟩
      have hpage := (ShopSearchRequest.valid_onPage hvalid page).mpr hbounds
      rw [search_valid nameLike distance metres hpage hsize hq (hcriteria page hbounds.1 hbounds.2) hL]
      -- the page, and what comes after it
      have hsplit : (L.take (500 * size)).drop ((page - 1) * size) =
          slice L ((page - 1) * size) size ++ (L.take (500 * size)).drop (page * size) := by
        have hstart : (page - 1) * size + size = page * size := by
          rw [← Nat.succ_mul, Nat.succ_eq_add_one, Nat.sub_add_cancel hlow]
        have hend : page * size ≤ 500 * size := Nat.mul_le_mul_right size hbounds.2
        rw [drop_take_split L (hstart.trans_le hend), hstart]
      rw [hsplit, List.map_append]
      simp only [pageOf]
      congr 1
      by_cases hnext : page * size < L.length
      · simp only [hnext, decide_true, if_true]
        have hrest := ih (page + 1) (by omega) (by omega) (by omega)
        rw [hrest, Nat.add_sub_cancel]
      · have hnone : (L.take (500 * size)).drop (page * size) = [] := by
          rw [List.drop_eq_nil_iff, List.length_take]
          omega
        simp only [hnext, decide_false, hnone]
        rfl

/-- **Page `page` of a valid request holds the matches at its positions** in the one order of the search,
`total` is their number and the offset does not overflow; while `hasNext` holds and `page < 500`, the next
page is valid and not empty. A client that follows `hasNext` from page 1 gets the first `500 * size`
matches, each once; all of them, if there are no more. -/
theorem search_pages (table : ShopTable) (request : ShopSearchRequest)
    (hvalid : request.valid = true) :
    ∃ (page size : ℕ) (q : ShopSearchCriteria) (L : List Shop) (answer : ShopSearchPage δ),
      request.page = some (page : ℤ) ∧ request.size = some (size : ℤ) ∧
      criteria request = some q ∧ q.offset = (page - 1) * size ∧
      (∀ L', table.Matches nameLike distance metres q L' ↔ L' = L) ∧
      search (table.mapper nameLike distance metres) (some request) = .ok answer ∧
      answer.items = (slice L ((page - 1) * size) size).map (toItem distance q) ∧
      answer.total = (table.matching nameLike distance metres q).length ∧
      (answer.hasNext = true ↔ page * size < answer.total) ∧
      (answer.hasNext = true → page < 500 → (request.onPage (page + 1)).valid = true ∧
        ∃ next, search (table.mapper nameLike distance metres) (some (request.onPage (page + 1))) = .ok next ∧
          next.items ≠ []) ∧
      ∀ fuel, 500 < fuel →
        follow (table.mapper nameLike distance metres) request fuel 1 =
            (L.take (500 * size)).map (toItem distance q) ∧
          (answer.total ≤ 500 * size →
            follow (table.mapper nameLike distance metres) request fuel 1 = L.map (toItem distance q)) := by
  obtain ⟨page, size, hpage, hsize, hbounds, hone, hfifty⟩ := ShopSearchRequest.bounds hvalid
  obtain ⟨q, hq, hcriteria⟩ := ShopSearchRequest.exists_criteria hsize hfifty
  have hself := ShopSearchRequest.onPage_self hpage
  have hL := table.matches_mergeSort nameLike distance metres q
  generalize (table.matching nameLike distance metres q).mergeSort (before distance q) = L at hL
  have hpages : ∀ p, 1 ≤ p → p ≤ 500 →
      search (table.mapper nameLike distance metres) (some (request.onPage p)) =
        .ok (pageOf distance request q L p size) := by
    intro p hlow hhigh
    have hp := (ShopSearchRequest.valid_onPage hvalid p).mpr ⟨hlow, hhigh⟩
    exact search_valid nameLike distance metres hp hsize hq (hcriteria p hlow hhigh) hL
  have hfollow : ∀ fuel, 500 < fuel → follow (table.mapper nameLike distance metres) request fuel 1 =
      (L.take (500 * size)).map (toItem distance q) := by
    intro fuel hfuel
    have h := follow_eq nameLike distance metres hvalid hsize hq hL hcriteria fuel 1 le_rfl (by omega) (by omega)
    simpa using h
  refine ⟨page, size, { q with offset := ((page - 1) * size : ℕ) }, L,
    pageOf distance request q L page size, hpage, hsize, ?_, ?_, ?_, ?_, rfl, hL.perm.length_eq, ?_, ?_, ?_⟩
  · rw [← hself]
    exact hcriteria page hbounds.1 hbounds.2
  · show (((page - 1) * size : ℕ) : ℤ) = _
    rw [Nat.cast_mul, Nat.cast_sub hbounds.1, Nat.cast_one]
  · intro L'
    constructor
    · intro hL'
      rw [← hL.eq]
      exact (ShopTable.Matches.eq (q := q) nameLike distance metres ⟨hL'.perm, hL'.sorted⟩).symm
    · rintro rfl
      exact ⟨hL.perm, hL.sorted⟩
  · rw [← hself]
    exact hpages page hbounds.1 hbounds.2
  · exact decide_eq_true_iff
  · intro hnext hlast
    refine ⟨(ShopSearchRequest.valid_onPage hvalid _).mpr ⟨by omega, by omega⟩,
      _, hpages (page + 1) (by omega) (by omega), ?_⟩
    have hlength : page * size < L.length := of_decide_eq_true hnext
    intro hnone
    have hslice := (slice_eq_nil hone).mp (List.map_eq_nil_iff.mp hnone)
    rw [Nat.add_sub_cancel] at hslice
    omega
  · intro fuel hfuel
    refine ⟨hfollow fuel hfuel, ?_⟩
    intro htotal
    rw [hfollow fuel hfuel, List.take_of_length_le htotal]
    rfl

end service

/-! ## More than 500 pages -/

/-- 501 shops. -/
def manyShops : ShopTable where
  rows := (List.range 501).map fun n =>
    { id := n, name := [], typeId := 1, images := [], area := none, address := [], x := none, y := none
      avgPrice := none, score := none, openHours := none }
  keyed := by
    rw [List.map_map]
    exact List.Nodup.map (fun _ _ h => h) List.nodup_range

/-- The last page that is valid, of one shop. -/
def lastPage : ShopSearchRequest := { page := some 500, size := some 1 }

/-- The answers over the 501 shops. -/
def answerMany (request : ShopSearchRequest) : Except SearchFailure (ShopSearchPage ℕ) :=
  search (manyShops.mapper (like sqlWildcards) (fun _ _ => 0) Int.toNat) (some request)

/-- Without a filter every shop matches. -/
theorem length_matching_manyShops {q : ShopSearchCriteria} (h : criteria lastPage = some q) :
    (manyShops.matching (like sqlWildcards) (fun _ _ => (0 : ℕ)) Int.toNat q).length = 501 := by
  obtain rfl := Option.some.inj h
  unfold ShopTable.matching
  rw [List.filter_eq_self.mpr]
  · simp [manyShops]
  · intro s _
    rfl

/-- Page 500 of 501 says that there is a next page, and page 501 is refused. -/
theorem search_pages_beyond :
    lastPage.valid = true ∧
      (∃ answer, answerMany lastPage = .ok answer ∧ answer.hasNext = true) ∧
      (lastPage.onPage 501).valid = false ∧
      answerMany (lastPage.onPage 501) = .error .validationFailed := by
  have hself : lastPage.onPage 500 = lastPage := rfl
  have hvalid : (lastPage.onPage 500).valid = true := by decide
  have hrefused : (lastPage.onPage 501).valid = false := by decide
  have hsize : lastPage.size = some ((1 : ℕ) : ℤ) := rfl
  obtain ⟨q, hq, hcriteria⟩ := ShopSearchRequest.exists_criteria hsize (by decide)
  have hcriteria := hcriteria 500 (by decide) (by decide)
  have hL := manyShops.matches_mergeSort (like sqlWildcards) (fun _ _ => (0 : ℕ)) Int.toNat q
  have hmatching : (manyShops.matching (like sqlWildcards) (fun _ _ => (0 : ℕ)) Int.toNat q).length = 501 := by
    have h := length_matching_manyShops hcriteria
    exact h
  have hanswer := search_valid _ _ _ hvalid hsize hq hcriteria hL
  rw [hself] at hvalid hanswer
  refine ⟨hvalid, ⟨_, hanswer, ?_⟩, hrefused, search_refused _ _ _ hrefused⟩
  have hlength := hL.perm.length_eq.trans hmatching
  unfold pageOf
  rw [decide_eq_true_eq, hlength]
  decide

/-- A client that follows `hasNext` over the 501 shops gets 500 of them. -/
theorem search_pages_manyShops :
    (follow (manyShops.mapper (like sqlWildcards) (fun _ _ => (0 : ℕ)) Int.toNat) lastPage 501 1).length = 500 := by
  obtain ⟨page, size, q, L, answer, -, hsize, hcriteria, -, hL, -, -, -, -, -, hfollow⟩ :=
    search_pages (like sqlWildcards) (fun _ _ => (0 : ℕ)) Int.toNat manyShops lastPage (by decide)
  obtain rfl : size = 1 := by
    have hone : (size : ℤ) = 1 := (Option.some.inj hsize).symm
    omega
  have hlength := ((hL L).mpr rfl).perm.length_eq
  rw [length_matching_manyShops hcriteria] at hlength
  rw [(hfollow 501 (by decide)).1, List.length_map, List.length_take, hlength]
  rfl

end CampusHub.Shops
