import Mathlib.Data.List.Basic
import Mathlib.Data.List.Count
import Mathlib.Data.List.Nodup
import Mathlib.Data.List.Perm.Basic
import Mathlib.Data.List.Range
import Mathlib.Order.Lattice

/-!
# Pages of an ordered list

* `slice L o n` — `LIMIT n OFFSET o`.
* `inField`, `inField_eq` — `WHERE key IN (ids) ORDER BY FIELD(key, ids)`.
* `Ranking key xs L` — `L` is `xs` with the keys falling, ties in any order.
* `Separated key xs n` — some key parts the first `n` places from the rest; then the first `n` places of
  all rankings hold the same elements (`Ranking.take_perm`), and otherwise two rankings differ there
  (`Ranking.exists_swap`).

**What is proved.** Two statements about pages. Where all queries rank alike up to every cut, their pages
are a partition of the list (`pages_perm_take`); where two elements of one key meet at a cut, there are two
rankings that a database may answer with and that put different elements before the cut. And the idiom `IN
(..) ORDER BY FIELD(..)` answers the rows that are there in the order of the list (`inField_eq`).

**Proof route.** `filter_above` says that the elements above a bound are a prefix of every ranking, so where
a bound parts exactly `n` elements the prefixes agree as multisets. For the swap, the two neighbours at the
cut are exchanged in one ranking.

**Not here.** That a database chooses the same ranking twice is nowhere assumed.
-/

namespace CampusHub.Foundations.Slices

variable {α κ : Type*}

/-- `LIMIT n OFFSET o` -/
def slice (L : List α) (o n : ℕ) : List α := (L.drop o).take n

/-- A page is empty exactly when it starts behind the list. -/
theorem slice_eq_nil {L : List α} {o n : ℕ} (hn : 0 < n) : slice L o n = [] ↔ L.length ≤ o := by
  unfold slice
  rw [List.take_eq_nil_iff, List.drop_eq_nil_iff]
  omega

/-- The element at a place of the slice. -/
theorem mem_slice {L : List α} {o n i : ℕ} {a : α} (h : L[i]? = some a) (hlow : o ≤ i)
    (hhigh : i < o + n) : a ∈ slice L o n := by
  have hplace : (slice L o n)[i - o]? = some a := by
    unfold slice
    rw [List.getElem?_take_of_lt (by omega), List.getElem?_drop, Nat.add_sub_cancel' hlow, h]
  exact List.mem_of_getElem? hplace

/-- The first `o` places, then the slice after them. -/
theorem take_append_slice (L : List α) (o n : ℕ) : L.take o ++ slice L o n = L.take (o + n) :=
  (List.take_add ..).symm

/-- The first places, then cut at the front. -/
theorem drop_take (L : List α) (o n : ℕ) : (L.take (o + n)).drop o = slice L o n := by
  unfold slice
  rw [List.take_drop]

/-- What is left of the first `m` places starts with the next slice. -/
theorem drop_take_split (L : List α) {o n m : ℕ} (h : o + n ≤ m) :
    (L.take m).drop o = slice L o n ++ (L.take m).drop (o + n) := by
  have hslice : ((L.take m).drop o).take n = slice L o n := by
    unfold slice
    rw [List.drop_take, List.take_take, Nat.min_eq_left (by omega)]
  rw [← hslice, ← List.drop_drop, List.take_append_drop]

/-! ## Rows in the order of a list of keys -/

section field

variable [DecidableEq κ] (key : α → κ)

/-- `WHERE key IN (ids) ORDER BY FIELD(key, ids)` -/
def inField (rows : List α) (ids : List κ) : List α :=
  (rows.filter fun r => decide (key r ∈ ids)).mergeSort fun a b =>
    decide (ids.idxOf (key a) ≤ ids.idxOf (key b))

/-- The row of a key. -/
def findKey (rows : List α) (id : κ) : Option α := rows.find? fun r => decide (key r = id)

variable {key} {rows : List α} {ids : List κ} {id : κ} {r : α}

/-- The rows found are the rows whose key is one of those asked for. -/
theorem mem_inField : r ∈ inField key rows ids ↔ r ∈ rows ∧ key r ∈ ids := by
  unfold inField
  rw [List.mem_mergeSort, List.mem_filter, decide_eq_true_eq]

/-- Where keys are different, the row of a key is the one with this key. -/
theorem findKey_eq_some (hrows : (rows.map key).Nodup) :
    findKey key rows id = some r ↔ r ∈ rows ∧ key r = id := by
  unfold findKey
  constructor
  · intro h
    exact ⟨List.mem_of_find?_eq_some h, by simpa using List.find?_some h⟩
  · rintro ⟨hr, rfl⟩
    obtain ⟨r', hfind⟩ : ∃ r', (rows.find? fun s => decide (key s = key r)) = some r' := by
      rw [← Option.isSome_iff_exists, List.find?_isSome]
      exact ⟨r, hr, decide_eq_true rfl⟩
    have hkey : key r' = key r := by simpa using List.find?_some hfind
    rw [hfind, List.inj_on_of_nodup_map hrows (List.mem_of_find?_eq_some hfind) hr hkey]

/-- The rows of a list of keys are the rows whose key is in it. -/
theorem mem_filterMap_findKey (hrows : (rows.map key).Nodup) :
    r ∈ ids.filterMap (findKey key rows) ↔ r ∈ rows ∧ key r ∈ ids := by
  rw [List.mem_filterMap]
  constructor
  · rintro ⟨id, hid, hfind⟩
    obtain ⟨hr, rfl⟩ := (findKey_eq_some hrows).mp hfind
    exact ⟨hr, hid⟩
  · rintro ⟨hr, hid⟩
    exact ⟨key r, hid, (findKey_eq_some hrows).mpr ⟨hr, rfl⟩⟩

/-- The places of the keys in their list. -/
theorem pairwise_idxOf (hids : ids.Nodup) : ids.Pairwise fun a b => ids.idxOf a ≤ ids.idxOf b := by
  rw [List.pairwise_iff_getElem]
  intro i j hi hj hij
  rw [hids.idxOf_getElem, hids.idxOf_getElem]
  exact hij.le

/-- Of different keys, the rows that are there, in the order of the keys. -/
theorem inField_eq (hrows : (rows.map key).Nodup) (hids : ids.Nodup) :
    inField key rows ids = ids.filterMap (findKey key rows) := by
  have hkeys : ∀ {a b}, a ∈ rows → b ∈ rows → key a = key b → a = b :=
    fun ha hb h => List.inj_on_of_nodup_map hrows ha hb h
  have hperm : (rows.filter fun r => decide (key r ∈ ids)).Perm (ids.filterMap (findKey key rows)) := by
    rw [List.perm_ext_iff_of_nodup ((List.Nodup.of_map key hrows).filter _)]
    · intro r
      rw [mem_filterMap_findKey hrows, List.mem_filter, decide_eq_true_eq]
    · refine hids.filterMap ?_
      intro a b r ha hb
      exact ((findKey_eq_some hrows).mp ha).2.symm.trans ((findKey_eq_some hrows).mp hb).2
  have hstatement : (inField key rows ids).Pairwise fun a b =>
      decide (ids.idxOf (key a) ≤ ids.idxOf (key b)) = true := by
    unfold inField
    apply List.pairwise_mergeSort
    · intro a b c hab hbc
      simp only [decide_eq_true_eq] at *
      exact hab.trans hbc
    · intro a b
      simpa using le_total _ _
  have hlist : (ids.filterMap (findKey key rows)).Pairwise fun a b =>
      decide (ids.idxOf (key a) ≤ ids.idxOf (key b)) = true := by
    refine List.Pairwise.filterMap _ ?_ (pairwise_idxOf hids)
    intro a a' hle b hb b' hb'
    obtain ⟨-, rfl⟩ := (findKey_eq_some hrows).mp hb
    obtain ⟨-, rfl⟩ := (findKey_eq_some hrows).mp hb'
    exact decide_eq_true hle
  refine List.Perm.eq_of_pairwise ?_ hstatement hlist ((List.mergeSort_perm _ _).trans hperm)
  intro a b ha hb hab hba
  obtain ⟨ha, haids⟩ := List.mem_filter.mp (List.mem_mergeSort.mp ha)
  obtain ⟨hb, -⟩ := (mem_filterMap_findKey hrows).mp hb
  simp only [decide_eq_true_eq] at hab hba haids
  exact hkeys ha hb ((List.idxOf_inj haids).mp (le_antisymm hab hba))

end field

/-! ## Rankings with ties -/

section rankings

variable [LinearOrder κ] (key : α → κ)

/-- The elements in falling order of their keys. -/
structure Ranking (xs L : List α) : Prop where
  perm : L.Perm xs
  falling : L.Pairwise fun a b => key b ≤ key a

/-- Exactly `n` elements have a key above some bound. -/
def Separated (xs : List α) (n : ℕ) : Prop := ∃ c, xs.countP (fun a => c < key a) = n

variable {key} {xs L L' : List α} {n : ℕ}

/-- Elements in some falling order. -/
theorem exists_ranking (key : α → κ) (xs : List α) : ∃ L, Ranking key xs L := by
  refine ⟨xs.mergeSort fun a b => decide (key b ≤ key a), List.mergeSort_perm _ _, ?_⟩
  have hsorted : (xs.mergeSort fun a b => decide (key b ≤ key a)).Pairwise fun a b =>
      decide (key b ≤ key a) = true := by
    apply List.pairwise_mergeSort
    · intro a b c hab hbc
      simp only [decide_eq_true_eq] at *
      exact hbc.trans hab
    · intro a b
      simpa using le_total _ _
  exact hsorted.imp of_decide_eq_true

/-- The elements above a bound come first. -/
theorem filter_above {c : κ} (h : L.Pairwise fun a b => key b ≤ key a) :
    L.filter (fun a => c < key a) = L.take (L.countP fun a => c < key a) := by
  induction L with
  | nil => rfl
  | cons a L ih =>
    obtain ⟨ha, hL⟩ := List.pairwise_cons.mp h
    by_cases habove : c < key a
    · simp [habove, ih hL]
    · have hnone : ∀ b ∈ L, ¬ c < key b := fun b hb hc => habove (lt_of_lt_of_le hc (ha b hb))
      have hcount : (a :: L).countP (fun b => c < key b) = 0 := by
        rw [List.countP_eq_zero]
        intro b hb
        rcases List.mem_cons.mp hb with rfl | hb
        · simpa using habove
        · simpa using hnone b hb
      rw [hcount, List.take_zero, List.filter_eq_nil_iff]
      intro b hb
      rcases List.mem_cons.mp hb with rfl | hb
      · simpa using habove
      · simpa using hnone b hb

/-- At a place where a key parts them, all rankings agree on what comes before. -/
theorem Ranking.take_perm (h : Ranking key xs L) (h' : Ranking key xs L') (hn : Separated key xs n) :
    (L.take n).Perm (L'.take n) := by
  obtain ⟨c, hcount⟩ := hn
  have hL : L.filter (fun a => c < key a) = L.take n := by
    rw [filter_above h.falling, h.perm.countP_eq, hcount]
  have hL' : L'.filter (fun a => c < key a) = L'.take n := by
    rw [filter_above h'.falling, h'.perm.countP_eq, hcount]
  rw [← hL, ← hL']
  exact (h.perm.trans h'.perm.symm).filter _

/-- At any other place two elements of one key meet, and they may come in the other order. -/
theorem Ranking.exists_swap (h : Ranking key xs L) (hpos : 0 < n) (hlt : n < L.length)
    (hn : ¬ Separated key xs n) :
    ∃ A a b B, L = A ++ a :: b :: B ∧ A.length + 1 = n ∧ Ranking key xs (A ++ b :: a :: B) := by
  obtain ⟨A, rest, rfl, hA⟩ : ∃ A rest, L = A ++ rest ∧ A.length = n - 1 :=
    ⟨L.take (n - 1), L.drop (n - 1), (List.take_append_drop ..).symm, by simp; omega⟩
  rw [List.length_append] at hlt
  rcases rest with _ | ⟨a, _ | ⟨b, B⟩⟩
  · simp only [List.length_nil] at hlt
    omega
  · simp only [List.length_cons, List.length_nil] at hlt
    omega
  · refine ⟨A, a, b, B, rfl, by omega, ?_⟩
    obtain ⟨hfallA, hrest, hcross⟩ := List.pairwise_append.mp h.falling
    obtain ⟨hab, hrest⟩ := List.pairwise_cons.mp hrest
    obtain ⟨hb, hB⟩ := List.pairwise_cons.mp hrest
    -- a larger key of `a` than of `b` would part the first `n` places from the rest
    have htie : key a ≤ key b := by
      by_contra hlarger
      refine hn ⟨key b, ?_⟩
      have hfront : A.countP (fun x => key b < key x) = A.length := by
        rw [List.countP_eq_length]
        intro x hx
        simpa using lt_of_lt_of_le (not_le.mp hlarger) (hcross x hx a (by simp))
      have hback : (b :: B).countP (fun x => key b < key x) = 0 := by
        rw [List.countP_eq_zero]
        intro x hx
        rcases List.mem_cons.mp hx with rfl | hx
        · simp
        · simpa using hb x hx
      rw [← h.perm.countP_eq, List.countP_append, List.countP_cons, hback, hfront]
      simp only [not_le.mp hlarger, decide_true, if_true]
      omega
    refine ⟨?_, ?_⟩
    · exact (List.Perm.append_left A (List.Perm.swap a b B)).trans h.perm
    · rw [List.pairwise_append]
      refine ⟨hfallA, ?_, ?_⟩
      · rw [List.pairwise_cons, List.pairwise_cons]
        refine ⟨?_, fun x hx => hab x (by simp [hx]), hB⟩
        intro x hx
        rcases List.mem_cons.mp hx with rfl | hx
        · exact htie
        · exact hb x hx
      · intro x hx y hy
        refine hcross x hx y ?_
        simp only [List.mem_cons] at hy ⊢
        tauto

/-- Pages cut from lists chosen one by one, where the lists agree before and after each cut. -/
theorem pages_perm_take (L : List α) (orders : ℕ → List α) {k : ℕ}
    (hcuts : ∀ j < k, (L.take (j * n)).Perm ((orders j).take (j * n)) ∧
      (L.take ((j + 1) * n)).Perm ((orders j).take ((j + 1) * n))) :
    ((List.range k).flatMap fun j => slice (orders j) (j * n) n).Perm (L.take (k * n)) := by
  induction k with
  | zero => simp
  | succ k ih =>
    obtain ⟨hbefore, hafter⟩ := hcuts k (Nat.lt_succ_self k)
    have hpage : (orders k).take (k * n) ++ slice (orders k) (k * n) n =
        (orders k).take ((k + 1) * n) := by
      rw [take_append_slice, Nat.succ_mul]
    rw [List.range_succ, List.flatMap_append, List.flatMap_singleton]
    refine ((ih fun j hj => hcuts j (by omega)).append_right _).trans ?_
    refine (hbefore.append_right _).trans ?_
    rw [hpage]
    exact hafter.symm

end rankings

end CampusHub.Foundations.Slices
