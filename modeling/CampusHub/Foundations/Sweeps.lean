import Mathlib.Data.List.Basic
import Mathlib.Data.Set.Basic
import Mathlib.Data.Finset.Card

/-!
# Cursors over a changing set

A reader visits a set in some order, a page at a time, while the set changes between the pages. What
lies ahead of its cursor is a predicate.

* `PageOf` — a page: the first `n` members ahead of the cursor. `pageOf_take` cuts one from a sorted
  list, `PageOf.cut` and `PageOf.more_iff` are about a page that was read with one row more.
* `Sweep` — pages one after the other, each ahead of the pages before it.
* `Sweep.sorted`, `Sweep.complete`, `Sweep.card_le` — no member comes twice, a member that is there at
  every page is on one of them or still ahead, and full pages come to an end.

The set may change between two pages, and what a reader may then expect is stated here: pages never repeat a
member and go on in order (`Sweep.sorted`), and a member that is in the set whenever a page is cut is on
some page or still ahead of the last one (`Sweep.complete`); when the last page is not full nothing is ahead
(`Sweep.complete_of_short`).

**Proof route.** Induction on the pages. A page is described by what it leaves: every member of its set that
was ahead and is not on it comes behind all of it, so what is ahead of the next page is what is ahead of
this one and past its last member.

**Not here.** Members that come and go between two pages: they may be seen or not, and nothing is said of
them. How a cursor is represented is left to the users, too.
-/

namespace CampusHub.Foundations.Sweeps

variable {κ : Type*} (lt : κ → κ → Prop)

/-- The first `n` members of `S` ahead of the cursor. -/
structure PageOf (S : Set κ) (ahead : κ → Prop) (n : ℕ) (P : List κ) : Prop where
  mem : ∀ x ∈ P, x ∈ S ∧ ahead x
  sorted : P.Pairwise lt
  length_le : P.length ≤ n
  rest : ∀ x ∈ S, ahead x → x ∈ P ∨ P.length = n ∧ ∀ y ∈ P, lt y x

/-- Ahead of the cursor and of a page. -/
def past (ahead : κ → Prop) (P : List κ) (x : κ) : Prop := ahead x ∧ ∀ y ∈ P, lt y x

/-- Pages of `n`, each with the set that it was cut from. -/
def Sweep (n : ℕ) : (κ → Prop) → List (Set κ × List κ) → Prop
  | _, [] => True
  | ahead, (S, P) :: pages => PageOf lt S ahead n P ∧ Sweep n (past lt ahead P) pages

/-- The members on the pages. -/
def visited (pages : List (Set κ × List κ)) : List κ := pages.flatMap Prod.snd

section page

variable {lt} {S : Set κ} {ahead : κ → Prop} {n : ℕ} {P : List κ}

/-- A page cut from a sorted list of all that is ahead. -/
theorem pageOf_take_of {L : List κ} (hL : L.Pairwise lt) (hmem : ∀ x, x ∈ L ↔ x ∈ S ∧ ahead x) (n : ℕ) :
    PageOf lt S ahead n (L.take n) where
  mem x hx := (hmem x).mp (List.mem_of_mem_take hx)
  sorted := hL.sublist (List.take_sublist _ _)
  length_le := by
    rw [List.length_take]
    exact Nat.min_le_left _ _
  rest := by
    intro x hx hahead
    have hmem : x ∈ L := (hmem x).mpr ⟨hx, hahead⟩
    have hsorted := hL
    rw [← List.take_append_drop n L] at hmem hsorted
    rcases List.mem_append.mp hmem with hpage | hbehind
    · exact Or.inl hpage
    · refine Or.inr ⟨?_, fun y hy => (List.pairwise_append.mp hsorted).2.2 y hy x hbehind⟩
      have hlong : n < L.length := by
        by_contra hshort
        rw [List.drop_eq_nil_of_le (not_lt.mp hshort)] at hbehind
        exact absurd hbehind List.not_mem_nil
      rw [List.length_take]
      exact Nat.min_eq_left hlong.le

/-- A page cut from a sorted list. -/
theorem pageOf_take [DecidablePred ahead] {L : List κ} (hL : L.Pairwise lt) (n : ℕ) :
    PageOf lt {x | x ∈ L} ahead n ((L.filter ahead).take n) := by
  refine pageOf_take_of (hL.filter _) (fun x => ?_) n
  rw [List.mem_filter, decide_eq_true_iff]
  rfl

/-- The members on a page that is not full are all that is ahead. -/
theorem PageOf.mem_of_short (h : PageOf lt S ahead n P) (hshort : P.length < n) {x : κ} (hx : x ∈ S)
    (hahead : ahead x) : x ∈ P := by
  rcases h.rest x hx hahead with hmem | ⟨hfull, -⟩
  · exact hmem
  · omega

/-- Of a page with one row more, the first rows. -/
theorem PageOf.cut {R : List κ} (h : PageOf lt S ahead (n + 1) R) :
    PageOf lt S ahead n (R.take n) where
  mem x hx := h.mem x (List.mem_of_mem_take hx)
  sorted := h.sorted.sublist (List.take_sublist _ _)
  length_le := by
    rw [List.length_take]
    exact Nat.min_le_left _ _
  rest := by
    intro x hx hahead
    have hlength := h.length_le
    rcases h.rest x hx hahead with hmem | ⟨hfull, hlast⟩
    · have hsorted := h.sorted
      rw [← List.take_append_drop n R] at hmem hsorted
      rcases List.mem_append.mp hmem with hpage | hbehind
      · exact Or.inl hpage
      · refine Or.inr ⟨?_, fun y hy => (List.pairwise_append.mp hsorted).2.2 y hy x hbehind⟩
        have hlong : n < R.length := by
          by_contra hshort
          rw [List.drop_eq_nil_of_le (not_lt.mp hshort)] at hbehind
          exact absurd hbehind List.not_mem_nil
        rw [List.length_take]
        exact Nat.min_eq_left hlong.le
    · refine Or.inr ⟨?_, fun y hy => hlast y (List.mem_of_mem_take hy)⟩
      rw [List.length_take]
      omega

/-- The row more is there exactly when some member is still ahead. -/
theorem PageOf.more_iff [Std.Irrefl lt] {R : List κ} (h : PageOf lt S ahead (n + 1) R) :
    n < R.length ↔ ∃ x ∈ S, past lt ahead (R.take n) x := by
  constructor
  · intro hlong
    have hsplit : R = R.take n ++ R[n] :: R.drop (n + 1) := by
      rw [← List.drop_eq_getElem_cons hlong, List.take_append_drop]
    have hmem : R[n] ∈ R := List.getElem_mem hlong
    refine ⟨R[n], (h.mem _ hmem).1, (h.mem _ hmem).2, ?_⟩
    have hsorted := h.sorted
    rw [hsplit] at hsorted
    intro y hy
    exact (List.pairwise_append.mp hsorted).2.2 y hy R[n] List.mem_cons_self
  · rintro ⟨x, hx, hahead, hpast⟩
    by_contra hshort
    have hwhole : R.take n = R := List.take_of_length_le (not_lt.mp hshort)
    rw [hwhole] at hpast
    exact Std.Irrefl.irrefl x (hpast x (h.mem_of_short (by omega) hx hahead))

end page

section sweep

variable {lt} {n : ℕ}

/-- No member is visited twice, and all of them lie ahead of the start. -/
theorem Sweep.sorted {pages : List (Set κ × List κ)} {ahead : κ → Prop}
    (h : Sweep lt n ahead pages) : (visited pages).Pairwise lt ∧ ∀ x ∈ visited pages, ahead x := by
  induction pages generalizing ahead with
  | nil => exact ⟨List.Pairwise.nil, nofun⟩
  | cons page pages ih =>
    obtain ⟨S, P⟩ := page
    obtain ⟨hpage, hrest⟩ := h
    obtain ⟨hsorted, hahead⟩ := ih hrest
    have hvisited : visited ((S, P) :: pages) = P ++ visited pages := List.flatMap_cons
    rw [hvisited]
    refine ⟨List.pairwise_append.mpr ⟨hpage.sorted, hsorted, ?_⟩, ?_⟩
    · intro y hy x hx
      exact (hahead x hx).2 y hy
    · intro x hx
      rcases List.mem_append.mp hx with hx | hx
      · exact (hpage.mem x hx).2
      · exact (hahead x hx).1

/-- A member that is there at every page is on one of them, or ahead of them all. -/
theorem Sweep.complete {pages : List (Set κ × List κ)} {ahead : κ → Prop}
    (h : Sweep lt n ahead pages) {x : κ} (hahead : ahead x) (hx : ∀ page ∈ pages, x ∈ page.1) :
    x ∈ visited pages ∨ ∀ y ∈ visited pages, lt y x := by
  induction pages generalizing ahead with
  | nil => exact Or.inr nofun
  | cons page pages ih =>
    obtain ⟨S, P⟩ := page
    obtain ⟨hpage, hrest⟩ := h
    have hvisited : visited ((S, P) :: pages) = P ++ visited pages := List.flatMap_cons
    rw [hvisited]
    rcases hpage.rest x (hx _ List.mem_cons_self) hahead with hmem | ⟨-, hpast⟩
    · exact Or.inl (List.mem_append_left _ hmem)
    · rcases ih hrest ⟨hahead, hpast⟩ fun page hp => hx page (List.mem_cons_of_mem _ hp) with hmem | hlater
      · exact Or.inl (List.mem_append_right _ hmem)
      · right
        intro y hy
        rcases List.mem_append.mp hy with hy | hy
        · exact hpast y hy
        · exact hlater y hy

/-- When the last page is not full, such a member is on one of the pages. -/
theorem Sweep.complete_of_short {pages : List (Set κ × List κ)} {page : Set κ × List κ}
    {ahead : κ → Prop} (h : Sweep lt n ahead (pages ++ [page])) (hshort : page.2.length < n) {x : κ}
    (hahead : ahead x) (hx : ∀ p ∈ pages ++ [page], x ∈ p.1) : x ∈ visited (pages ++ [page]) := by
  induction pages generalizing ahead with
  | nil =>
    have hmem := h.1.mem_of_short hshort (hx page List.mem_cons_self) hahead
    exact List.mem_flatMap.mpr ⟨page, List.mem_cons_self, hmem⟩
  | cons first pages ih =>
    obtain ⟨S, P⟩ := first
    obtain ⟨hpage, hrest⟩ := h
    have hvisited : visited ((S, P) :: pages ++ [page]) = P ++ visited (pages ++ [page]) :=
      List.flatMap_cons
    rw [hvisited]
    rcases hpage.rest x (hx _ List.mem_cons_self) hahead with hmem | ⟨-, hpast⟩
    · exact List.mem_append_left _ hmem
    · have hlater := ih hrest ⟨hahead, hpast⟩ fun p hp => hx p (List.mem_cons_of_mem _ hp)
      exact List.mem_append_right _ hlater

/-- Full pages of members of one finite set are no more than the set allows. -/
theorem Sweep.card_le [Std.Irrefl lt] [DecidableEq κ] {pages : List (Set κ × List κ)}
    {ahead : κ → Prop} (h : Sweep lt n ahead pages) {K : Finset κ}
    (hK : ∀ page ∈ pages, ∀ x ∈ page.2, x ∈ K) (hfull : ∀ page ∈ pages, page.2.length = n) :
    n * pages.length ≤ K.card := by
  have hnodup : (visited pages).Nodup := by
    refine h.sorted.1.imp fun hlt => ?_
    rintro rfl
    exact Std.Irrefl.irrefl _ hlt
  have hlength : (visited pages).length = n * pages.length := by
    clear h hK hnodup
    induction pages with
    | nil => rfl
    | cons page pages ih =>
      have hvisited : visited (page :: pages) = page.2 ++ visited pages := List.flatMap_cons
      rw [hvisited, List.length_append, hfull page List.mem_cons_self,
        ih fun p hp => hfull p (List.mem_cons_of_mem _ hp), List.length_cons, Nat.mul_succ, Nat.add_comm]
  rw [← hlength, ← List.toFinset_card_of_nodup hnodup]
  refine Finset.card_le_card fun x hx => ?_
  obtain ⟨page, hpage, hmem⟩ := List.mem_flatMap.mp (List.mem_toFinset.mp hx)
  exact hK page hpage x hmem

end sweep

end CampusHub.Foundations.Sweeps
