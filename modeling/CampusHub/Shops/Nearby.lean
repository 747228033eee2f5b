import CampusHub.Shops.Search

/-!
# The shops of a type near a position

* `Neighbours`, `GeoOperations` — the geo index and the template that asks it.
* `queryShopByType` — the page of shops with their distances.
* `nearby_pages` — the page is the slice of the index, as long as its end is an `int`.

**Theorem** (`nearby_pages`). For an admitted longitude, any latitude and any size and number of a page that
are positive `int`s: the answer is the slice of the index, for every index and every table, exactly when the
end of the page is an `int` and Redis takes the latitude.

**Proof route.** Within the bounds the computed start and end are the real ones, and the reply of Redis has
the first members up to the end (`queryShopByType_eq`). Past them an index that is a crowd at the position
itself tells the computed slice from the right one. The latitudes beyond 85.05112878 degrees fail in Redis
before any index is read (`queryShopByType_rejected`).

**Parameters.** What is near a position is a parameter of the model, and the template is `GeoOperations`,
with its three outcomes: a refused limit, a refused position, and the members by distance.

**Left out.** How Redis computes distances.
-/

namespace CampusHub.Shops

open CampusHub.Domain CampusHub.Foundations.Decimal CampusHub.Foundations.Lua
open CampusHub.Foundations.Slices

/-- The value of an `int` expression. -/
def intOf (z : ℤ) : ℤ := Int.bmod z 4294967296

/-- The members of a geo index within the radius of a position, by distance. A member is the text of a
shop id. -/
structure Neighbours where
  entries : List (LongId × ℚ)
  distinct : (entries.map Prod.fst).Nodup
  ordered : entries.Pairwise fun a b => a.2 ≤ b.2

/-- `GeoResult<GeoLocation<String>>`: the name and the distance. -/
structure GeoResult where
  name : String
  distance : ℚ

def toResult (e : LongId × ℚ) : GeoResult := ⟨e.1.text, e.2⟩

/-- The last latitude of a geo index: the geohash is cut from the Mercator square. -/
def geoLatitudeMax : ℚ := 8505112878 / 100000000

/-- A latitude that Redis takes. -/
def geoLatitude (y : Number) : Bool := between (-geoLatitudeMax) geoLatitudeMax y

/-- A position that `GEOSEARCH … FROMLONLAT` takes. -/
def geoPosition (x y : Number) : Bool := between (-180) 180 x && geoLatitude y

/-- `opsForGeo().search(key, position, radius, limit(count))`; nothing when it throws. A limit that is not
positive is an `IllegalArgumentException`, and Redis answers a position that it does not take with an error; an
answer may be null when there is nothing. -/
structure GeoOperations (near : ℤ → Number → Number → Neighbours) where
  search : ℤ → Number → Number → ℤ → Option (Option (List GeoResult))
  refuses : ∀ typeId x y count, count ≤ 0 → search typeId x y count = none
  rejects : ∀ typeId x y count, geoPosition x y = false → search typeId x y count = none
  finds : ∀ typeId x y count, 0 < count → geoPosition x y = true → ∃ found,
    search typeId x y count = some found ∧
      found.getD [] = ((near typeId x y).entries.take count.toNat).map toResult

/-- `stream().skip(n)`, which refuses a negative number. -/
def skip {α : Type} (n : ℤ) (xs : List α) : Option (List α) :=
  if 0 ≤ n then some (xs.drop n.toNat) else none

/-- `distanceMap.get(id)`; the last `put` of a name counts. -/
def distanceOf (results : List GeoResult) (id : String) : Option ℚ :=
  (findKey GeoResult.name results.reverse id).map GeoResult.distance

/-- The shops that are there, each with its distance; nothing when one has none. Source:
`ShopServiceImpl.java` 114–117. -/
def withDistances (table : ShopTable) (ids : List ℤ) (results : List GeoResult) :
    Option (List (Shop × Option ℚ)) :=
  (inField (fun s : Shop => (s.id : ℤ)) table.rows ids).mapM fun s =>
    (distanceOf results (decimal s.id)).map fun d => (s, some d)

/-- Nothing when it throws. Without a position it is a page of the type, from `typePage`. Source:
`ShopServiceImpl.java` 80–119. -/
def queryShopByType {near : ℤ → Number → Number → Neighbours} (batch : ℕ) (redis : GeoOperations near)
    (table : ShopTable) (typePage : ℤ → ℤ → List Shop) (typeId current : ℤ) (x y : Option Number) :
    Option (List (Shop × Option ℚ)) :=
  match x, y with
  | some x, some y => do
    let start := intOf (intOf (current - 1) * batch)
    let stop := intOf (current * batch)
    let results ← redis.search typeId x y stop
    match results with
    | none => pure []
    | some list => do
      let list ← skip start list
      let ids ← list.mapM fun result => parseLong result.name
      if ids.isEmpty then pure [] else withDistances table ids list
  | _, _ => pure ((typePage typeId current).map fun s => (s, none))

/-- The shops of a part of the index that are there, in its order, with their distances. -/
def shopsOf (table : ShopTable) (part : List (LongId × ℚ)) : List (Shop × Option ℚ) :=
  part.filterMap fun e =>
    (findKey (fun s : Shop => (s.id : ℤ)) table.rows e.1.val).map fun s => (s, some e.2)

/-! ## A part of the index -/

/-- An `int` is its own value. -/
theorem intOf_of_mem {z : ℤ} (hlow : -2147483648 ≤ z) (hhigh : z ≤ 2147483647) : intOf z = z := by
  unfold intOf
  rw [Int.bmod_def]
  split <;> omega

/-- No two shops have one id. -/
theorem ShopTable.keyedBy (table : ShopTable) : (table.rows.map fun s => (s.id : ℤ)).Nodup := by
  have h := table.keyed.map (f := ((↑) : ℕ → ℤ)) Nat.cast_injective
  rwa [List.map_map] at h

/-- The names of an index are numbers. -/
theorem mapM_parseLong (part : List (LongId × ℚ)) :
    ((part.map toResult).mapM fun result => parseLong result.name) =
      some (part.map fun e => (e.1.val : ℤ)) := by
  induction part with
  | nil => rfl
  | cons e part ih =>
    have hmax : e.1.val ≤ 9223372036854775807 := e.1.le_max
    have hlong : (e.1.val : ℤ) ≤ 9223372036854775807 := by omega
    have hid : parseLong (toResult e).name = some (e.1.val : ℤ) := parseLong_decimal hlong
    rw [List.map_cons, List.mapM_cons, hid, ih]
    rfl

/-- Every entry has its own distance. -/
theorem distanceOf_entry {part : List (LongId × ℚ)} (hpart : (part.map Prod.fst).Nodup)
    {e : LongId × ℚ} (he : e ∈ part) : distanceOf (part.map toResult) (decimal e.1.val) = some e.2 := by
  have hnames : (((part.map toResult).reverse).map GeoResult.name).Nodup := by
    rw [List.map_reverse, List.nodup_reverse, List.map_map]
    have h := hpart.map LongId.text_injective
    rwa [List.map_map] at h
  have hfind : findKey GeoResult.name (part.map toResult).reverse (decimal e.1.val) =
      some (toResult e) := by
    rw [findKey_eq_some hnames]
    exact ⟨List.mem_reverse.mpr (List.mem_map_of_mem he), rfl⟩
  unfold distanceOf
  rw [hfind]
  rfl

/-- The shops of a part of the index. -/
theorem withDistances_eq (table : ShopTable) {part : List (LongId × ℚ)}
    (hpart : (part.map Prod.fst).Nodup) :
    withDistances table (part.map fun e => (e.1.val : ℤ)) (part.map toResult) =
      some (shopsOf table part) := by
  have hids : (part.map fun e => (e.1.val : ℤ)).Nodup := by
    have hinj : Function.Injective fun id : LongId => (id.val : ℤ) := by
      rintro ⟨a, _, _⟩ ⟨b, _, _⟩ h
      simpa using h
    have h := hpart.map hinj
    rwa [List.map_map] at h
  -- the entries of `rest` are entries of the part, whose distances the map holds
  have hrest : ∀ rest : List (LongId × ℚ), (∀ e ∈ rest, e ∈ part) →
      (((rest.map fun e => (e.1.val : ℤ)).filterMap
        (findKey (fun s : Shop => (s.id : ℤ)) table.rows)).mapM fun s =>
          (distanceOf (part.map toResult) (decimal s.id)).map fun d => (s, some d)) =
        some (shopsOf table rest) := by
    intro rest
    induction rest with
    | nil => exact fun _ => rfl
    | cons e rest ih =>
      intro hmem
      have ih := ih fun e' he' => hmem e' (List.mem_cons_of_mem e he')
      rw [List.map_cons]
      cases hfind : findKey (fun s : Shop => (s.id : ℤ)) table.rows (e.1.val : ℤ) with
      | none =>
        rw [List.filterMap_cons_none hfind, ih]
        unfold shopsOf
        rw [List.filterMap_cons_none (by rw [hfind]; rfl)]
      | some s =>
        have hid : s.id = e.1.val := by
          exact_mod_cast ((findKey_eq_some table.keyedBy).mp hfind).2
        have hdistance : distanceOf (part.map toResult) (decimal s.id) = some e.2 := by
          rw [hid]
          exact distanceOf_entry hpart (hmem e List.mem_cons_self)
        rw [List.filterMap_cons_some hfind, List.mapM_cons, hdistance, ih]
        unfold shopsOf
        rw [List.filterMap_cons_some (b := (s, some e.2)) (by rw [hfind]; rfl)]
        rfl
  unfold withDistances
  rw [inField_eq table.keyedBy hids]
  exact hrest part fun e he => he

section pages

variable {near : ℤ → Number → Number → Neighbours} {batch current : ℕ}

/-- Within the `int`s, and at a position that Redis takes, the page is the slice. -/
theorem queryShopByType_eq (redis : GeoOperations near) (table : ShopTable)
    (typePage : ℤ → ℤ → List Shop) (typeId : ℤ) {x y : Number} (hposition : geoPosition x y = true)
    (hbatch : 0 < batch) (hcurrent : 1 ≤ current) (hfits : current * batch ≤ 2147483647) :
    queryShopByType batch redis table typePage typeId current (some x) (some y) =
      some (shopsOf table (slice (near typeId x y).entries ((current - 1) * batch) batch)) := by
  have hproduct : (current - 1) * batch + batch = current * batch := by
    rw [← Nat.succ_mul, Nat.succ_eq_add_one, Nat.sub_add_cancel hcurrent]
  have hlarge : current ≤ current * batch := Nat.le_mul_of_pos_right current hbatch
  have hstart : intOf (intOf ((current : ℤ) - 1) * batch) = (((current - 1) * batch : ℕ) : ℤ) := by
    have hone : ((current : ℤ) - 1) = ((current - 1 : ℕ) : ℤ) := by
      rw [Nat.cast_sub hcurrent, Nat.cast_one]
    have hinner : intOf ((current - 1 : ℕ) : ℤ) = ((current - 1 : ℕ) : ℤ) :=
      intOf_of_mem (by omega) (by omega)
    have houter : intOf (((current - 1) * batch : ℕ) : ℤ) = (((current - 1) * batch : ℕ) : ℤ) :=
      intOf_of_mem (by omega) (by omega)
    rw [hone, hinner, ← Nat.cast_mul, houter]
  have hstop : intOf ((current : ℤ) * batch) = ((current * batch : ℕ) : ℤ) := by
    rw [← Nat.cast_mul, intOf_of_mem (by omega) (by omega)]
  obtain ⟨found, hfound, hlist⟩ :=
    redis.finds typeId x y ((current * batch : ℕ) : ℤ) (by omega) hposition
  rw [Int.toNat_natCast] at hlist
  generalize hentries : (near typeId x y).entries = entries at hlist
  have hdistinct : (entries.map Prod.fst).Nodup := hentries ▸ (near typeId x y).distinct
  unfold queryShopByType
  simp only [hstart, hstop, hfound, Option.bind_eq_bind, Option.bind_some]
  cases found with
  | none =>
    -- a null answer comes for an index without members in the radius
    have hnone : entries.take (current * batch) = [] := List.map_eq_nil_iff.mp hlist.symm
    have hempty : entries = [] := by
      rcases List.take_eq_nil_iff.mp hnone with h | h
      · omega
      · exact h
    show some [] = _
    rw [hempty]
    simp [slice, shopsOf]
  | some list =>
    obtain rfl : list = (entries.take (current * batch)).map toResult := hlist
    have hskip : skip (((current - 1) * batch : ℕ) : ℤ) ((entries.take (current * batch)).map toResult) =
        some ((slice entries ((current - 1) * batch) batch).map toResult) := by
      unfold skip
      rw [if_pos (by omega), Int.toNat_natCast, ← List.map_drop, ← hproduct, drop_take]
    have hpart : ((slice entries ((current - 1) * batch) batch).map Prod.fst).Nodup := by
      unfold slice
      rw [List.map_take, List.map_drop]
      exact (hdistinct.sublist (List.drop_sublist _ _)).sublist (List.take_sublist _ _)
    simp only [hskip, Option.bind_some, mapM_parseLong]
    split
    · rename_i hnone
      rw [List.map_eq_nil_iff.mp (List.isEmpty_iff.mp hnone)]
      rfl
    · exact withDistances_eq table hpart

end pages

/-! ## Past the last `int`, and past the last latitude -/

/-- The template over an index. -/
def geoOf (near : ℤ → Number → Number → Neighbours) : GeoOperations near where
  search typeId x y count :=
    if geoPosition x y = true ∧ 0 < count then
      some (some (((near typeId x y).entries.take count.toNat).map toResult))
    else none
  refuses _ _ _ _ h := if_neg fun hboth => absurd hboth.2 (not_lt.mpr h)
  rejects _ _ _ _ h := if_neg fun hboth => absurd (h.symm.trans hboth.1) (by decide)
  finds _ _ _ _ h hposition := ⟨_, if_pos ⟨hposition, h⟩, rfl⟩

/-- A position that Redis does not take fails on every page, also for an index without members. -/
theorem queryShopByType_rejected {near : ℤ → Number → Number → Neighbours} (redis : GeoOperations near) (batch : ℕ)
    (table : ShopTable) (typePage : ℤ → ℤ → List Shop) (typeId current : ℤ) {x y : Number}
    (h : geoPosition x y = false) :
    queryShopByType batch redis table typePage typeId current (some x) (some y) = none := by
  unfold queryShopByType
  simp only [redis.rejects _ _ _ _ h, Option.bind_eq_bind, Option.bind_none]

/-- At a position that Redis takes, the bounds as they are computed decide. -/
theorem queryShopByType_geoOf (near : ℤ → Number → Number → Neighbours) (batch : ℕ) (table : ShopTable)
    (typePage : ℤ → ℤ → List Shop) (typeId current : ℤ) {x y : Number} (hposition : geoPosition x y = true) :
    queryShopByType batch (geoOf near) table typePage typeId current (some x) (some y) =
      if 0 < intOf (current * batch) ∧ 0 ≤ intOf (intOf (current - 1) * batch) then
        some (shopsOf table (((near typeId x y).entries.take (intOf (current * batch)).toNat).drop
          (intOf (intOf (current - 1) * batch)).toNat))
      else none := by
  unfold queryShopByType geoOf skip
  simp only [Option.bind_eq_bind, hposition, true_and]
  by_cases hstop : 0 < intOf (current * batch)
  · by_cases hstart : 0 ≤ intOf (intOf (current - 1) * batch)
    · generalize hpart : ((near typeId x y).entries.take (intOf (current * batch)).toNat).drop
        (intOf (intOf (current - 1) * batch)).toNat = part
      have hdistinct : (part.map Prod.fst).Nodup := by
        rw [← hpart, List.map_drop, List.map_take]
        exact ((near typeId x y).distinct.sublist (List.take_sublist _ _)).sublist
          (List.drop_sublist _ _)
      simp only [hstop, hstart, if_true, and_self, Option.bind_some, ← List.map_drop, hpart,
        mapM_parseLong]
      split
      · rename_i hnone
        rw [List.map_eq_nil_iff.mp (List.isEmpty_iff.mp hnone)]
        rfl
      · exact withDistances_eq table hdistinct
    · simp only [hstop, hstart, if_true, if_false, and_false, Option.bind_some, Option.bind_none]
  · simp only [hstop, if_false, false_and, Option.bind_none]

/-- `n` members at the position itself. -/
def crowd (n : ℕ) (hn : n ≤ 2147483648) : Neighbours where
  entries := (List.finRange n).map fun i => (⟨i.val + 1, by omega, by unfold longMax; omega⟩, 0)
  distinct := by
    rw [List.map_map]
    refine (List.nodup_finRange n).map ?_
    intro i j h
    have hval := congrArg LongId.val h
    simp only [Function.comp_apply, Nat.add_right_cancel_iff] at hval
    exact Fin.ext hval
  ordered := by
    rw [List.pairwise_map]
    exact List.pairwise_of_forall fun _ _ => le_rfl

/-- There are as many entries as members. -/
theorem length_crowd (n : ℕ) (hn : n ≤ 2147483648) : (crowd n hn).entries.length = n := by
  simp [crowd]

/-- Behind the first `n` members of a crowd comes the one with the number `n + 1`. -/
theorem last_crowd (n : ℕ) (hn : n + 1 ≤ 2147483648) :
    ∃ e ∈ (crowd (n + 1) hn).entries.drop n, e.1.val = n + 1 := by
  have hlt : n < (crowd (n + 1) hn).entries.length := by
    rw [length_crowd]
    omega
  refine ⟨(crowd (n + 1) hn).entries[n], ?_, ?_⟩
  · rw [List.drop_eq_getElem_cons hlt]
    exact List.mem_cons_self
  · simp [crowd]

/-- A shop of the type. -/
def shopNumbered (id : ℕ) : Shop where
  id := id
  name := []
  typeId := 1
  images := []
  area := none
  address := []
  x := none
  y := none
  avgPrice := none
  score := none
  openHours := none

/-- **A page is the slice, for every index, exactly when its end is an `int` and Redis takes the latitude.** Past
that the end or the start wraps, and the call throws or answers with shops of another page; and a latitude that the
controller admits and Redis does not is an error on every page. -/
theorem nearby_pages {batch current : ℕ} {x y : Number} (hbatch : 0 < batch) (hint : batch ≤ 2147483647)
    (hcurrent : 1 ≤ current) (hmax : current ≤ 2147483647) (hx : between (-180) 180 x = true) :
    (∀ (near : ℤ → Number → Number → Neighbours) (redis : GeoOperations near) (table : ShopTable)
      (typePage : ℤ → ℤ → List Shop) (typeId : ℤ),
      queryShopByType batch redis table typePage typeId current (some x) (some y) =
        some (shopsOf table (slice (near typeId x y).entries ((current - 1) * batch) batch))) ↔
      current * batch ≤ 2147483647 ∧ geoLatitude y = true := by
  have hlatitude : geoPosition x y = geoLatitude y := by
    unfold geoPosition
    rw [hx, Bool.true_and]
  constructor
  · intro h
    have hposition : geoPosition x y = true := by
      rw [← Bool.not_eq_false]
      intro hno
      have hcode := queryShopByType_rejected (geoOf fun _ _ _ => crowd 0 (by omega)) batch
        ⟨[], List.nodup_nil⟩ (fun _ _ => []) 1 current hno
      rw [h] at hcode
      cases hcode
    refine ⟨?_, hlatitude ▸ hposition⟩
    by_contra hover
    have hproduct : (current - 1) * batch + batch = current * batch := by
      rw [← Nat.succ_mul, Nat.succ_eq_add_one, Nat.sub_add_cancel hcurrent]
    have hone : intOf ((current : ℤ) - 1) = ((current - 1 : ℕ) : ℤ) := by
      rw [← Nat.cast_one, ← Nat.cast_sub hcurrent]
      exact intOf_of_mem (by omega) (by omega)
    have hstop : (current : ℤ) * batch = (((current - 1) * batch : ℕ) : ℤ) + batch := by
      exact_mod_cast hproduct.symm
    have hquery := fun near table => queryShopByType_geoOf near batch table (fun _ _ => []) 1 current hposition
    have hstart : ((current - 1 : ℕ) : ℤ) * batch = (((current - 1) * batch : ℕ) : ℤ) :=
      (Nat.cast_mul ..).symm
    rw [hone, hstop, hstart] at hquery
    generalize hfirst : (current - 1) * batch = first at hquery hproduct h
    by_cases hbounds : 0 < intOf ((first : ℤ) + batch) ∧ 0 ≤ intOf (first : ℤ)
    · -- both bounds wrap into the same turn of the `int`s, below the page that was asked for
      have hwrap : intOf (first : ℤ) < intOf ((first : ℤ) + batch) ∧ intOf (first : ℤ) + 1 ≤ first ∧
          intOf (first : ℤ) < 2147483648 := by
        unfold intOf at *
        simp only [Int.bmod_def] at *
        omega
      obtain ⟨hlt, hbelow, hsmall⟩ := hwrap
      obtain ⟨start, hstart⟩ := Int.eq_ofNat_of_zero_le hbounds.2
      obtain ⟨stop, hstop'⟩ := Int.eq_ofNat_of_zero_le hbounds.1.le
      have hn : start + 1 ≤ 2147483648 := by omega
      have hcode := hquery (fun _ _ _ => crowd (start + 1) hn)
        ⟨[shopNumbered (start + 1)], List.nodup_singleton _⟩
      rw [h _ (geoOf _), if_pos hbounds, hstart, hstop', Int.toNat_natCast, Int.toNat_natCast,
        List.take_of_length_le (by rw [length_crowd]; omega)] at hcode
      -- the page lies past the last member, and the code answers with that member
      have hslice : slice (crowd (start + 1) hn).entries first batch = [] := by
        rw [slice_eq_nil hbatch, length_crowd]
        omega
      obtain ⟨e, he, hid⟩ := last_crowd start hn
      have hmem : (shopNumbered (start + 1), some e.2) ∈
          shopsOf ⟨[shopNumbered (start + 1)], List.nodup_singleton _⟩
            ((crowd (start + 1) hn).entries.drop start) := by
        refine List.mem_filterMap.mpr ⟨e, he, ?_⟩
        rw [(findKey_eq_some (ShopTable.keyedBy _)).mpr
          ⟨List.mem_singleton_self (shopNumbered (start + 1)), by rw [hid]; rfl⟩]
        rfl
      rw [← Option.some.inj hcode, hslice] at hmem
      cases hmem
    · have hcode := hquery (fun _ _ _ => crowd 0 (by omega)) ⟨[], List.nodup_nil⟩
      rw [h _ (geoOf _), if_neg hbounds] at hcode
      cases hcode
  · rintro ⟨hfits, hy'⟩ near redis table typePage typeId
    exact queryShopByType_eq redis table typePage typeId (hlatitude.trans hy') hbatch hcurrent hfits

/-- With 1000 shops a page, page 2147484 is the first that wraps, and at the pole page 1 fails, also for an index
without members. -/
theorem nearby_pages_fails :
    queryShopByType 1000 (geoOf fun _ _ _ => crowd 0 (by decide)) ⟨[], List.nodup_nil⟩ (fun _ _ => []) 1
        2147484 (some (.fin 0)) (some (.fin 0)) = none ∧
      queryShopByType 1000 (geoOf fun _ _ _ => crowd 0 (by decide)) ⟨[], List.nodup_nil⟩ (fun _ _ => []) 1
        1 (some (.fin 0)) (some (.fin 90)) = none := by
  constructor
  · rw [queryShopByType_geoOf _ _ _ _ _ _ (by decide +kernel)]
    exact if_neg (by decide)
  · exact queryShopByType_rejected _ _ _ _ _ _ (by decide +kernel)

/-- The second page of an index with five members, two on a page, when the third shop is no more. -/
theorem nearby_pages_second :
    queryShopByType 2 (geoOf fun _ _ _ => crowd 5 (by decide))
      ⟨[shopNumbered 1, shopNumbered 2, shopNumbered 4], by decide⟩ (fun _ _ => []) 1 (2 : ℕ) (some (.fin 113))
      (some (.fin 23)) = some [(shopNumbered 4, some 0)] := by
  rw [(nearby_pages (by decide) (by decide) (by decide) (by decide) (by decide)).mpr
    ⟨by decide, by decide +kernel⟩]
  rfl

end CampusHub.Shops
