import Mathlib.Data.Finset.Sort
import CampusHub.Content.Writers
import CampusHub.Foundations.Guards
import CampusHub.Foundations.Slices

/-!
# The pages of liked posts

* `queryHotBlog` — one page, cut from the order that its statement found.
* `hot_pages` — the pages hold every post once, for all orders that the statements may find, exactly when
  no two posts with one number of likes stand on both sides of a cut.

**Theorem** (`hot_pages`). Each page is cut from an order of its own, which the statement finds by falling
numbers of likes; posts with one number may stand in any order, and in another one at the next page. The
pages partition the visible posts for all such orders exactly when every post has an author with a row and
at every cut the likes part the posts: the ones before it have more likes than the ones behind it.

**Proof route.** Where the likes part the posts at a cut, both orders have the same posts before it
(`pages_agree`), so that the slices of different orders fit together. Where they do not, one order before
the cut and another one after it show one post twice (`separated_of_partition`). A post without an author
makes its page throw (`shownAll_cases`), so that a partition shows that every author has a row.

**Left out.** Changes of the posts and of their likes between two pages: the theorem is about the orders of
one table, since ties alone already spoil the pages.
-/

namespace CampusHub.Content

open CampusHub.Domain CampusHub.Foundations.Guards CampusHub.Foundations.Maps CampusHub.Foundations.Slices

/-- The fields of a `UserDTO` that a post shows. -/
structure UserDTO where
  nickName : Option Text
  icon : Option Text

/-- A post with the display data of its author, and whether the caller likes it. -/
structure ShownBlog where
  id : ℕ
  blog : Blog
  name : Option Text
  icon : Option Text
  isLike : Bool

/-- What a query of posts throws. -/
inductive Thrown where
  | refused (e : BusinessException)
  /-- `NullPointerException` -/
  | nullPointer
  /-- `NumberFormatException` -/
  | numberFormat
  deriving DecidableEq

/-- The post under an id, as a row. -/
def rowOf (t : Tables) (id : ℕ) : Option (ℕ × Blog) := (t.blogs.lookup id).map fun blog => (id, blog)

section pages

variable (t : Tables) (authors : ℕ → Option UserDTO) (likes : Likes) (viewer : Option ℤ)

/-- The posts that a generated `SELECT` sees: the logic delete adds `withdrawn = 0`. -/
def visibleIds : List ℕ :=
  (t.blogs.keys.sort (· ≤ ·)).filter fun id => (t.blogs.lookup id).any fun b => decide (b.withdrawn = 0)

/-- The place of a post in `ORDER BY liked DESC`: NULL is below every number. -/
def likedRank (id : ℕ) : ℕ :=
  match (t.blogs.lookup id).bind Blog.liked with
  | some n => n + 1
  | none => 0

/-- `queryBlogUser` and `isBlogLiked`. The fields of an author without a row cannot be read. Source:
`BlogServiceImpl.java` 124–129, 142–153. -/
def shown (row : ℕ × Blog) : Except Thrown ShownBlog := do
  let user ← getOr (authors row.2.userId) .nullPointer
  pure
    { id := row.1, blog := row.2, name := user.nickName, icon := user.icon
      isLike := viewer.any fun user => (likes row.1 user).isSome }

/-- The posts under the ids, one after the other, as far as the first that throws. -/
def shownAll (ids : List ℕ) : Except Thrown (List ShownBlog) :=
  (ids.filterMap (rowOf t)).mapM (shown authors likes viewer)

/-- `SystemConstants.MAX_PAGE_SIZE` -/
def maxPageSize : ℕ := 10

/-- `order` is the order of the rows that the statement found. Source: `BlogServiceImpl.java` 112–122. -/
def queryHotBlog (order : List ℕ) (current : ℕ) : Except Thrown (List ShownBlog) :=
  shownAll t authors likes viewer (slice order ((current - 1) * maxPageSize) maxPageSize)

variable {t authors likes viewer}

/-- A post is visible when it has a row that is not withdrawn. -/
theorem mem_visibleIds {id : ℕ} :
    id ∈ visibleIds t ↔ ∃ blog, t.blogs.lookup id = some blog ∧ blog.withdrawn = 0 := by
  unfold visibleIds
  rw [List.mem_filter, Finset.mem_sort, mem_keys_iff, Option.any_eq_true]
  simp only [decide_eq_true_eq]
  constructor
  · exact And.right
  · rintro ⟨blog, hblog, hvisible⟩
    exact ⟨⟨blog, hblog⟩, blog, hblog, hvisible⟩

/-- A visible post has a row. -/
theorem exists_of_visible {id : ℕ} (h : id ∈ visibleIds t) : ∃ blog, t.blogs.lookup id = some blog :=
  (mem_visibleIds.mp h).imp fun _ hblog => hblog.1

/-- No id comes twice. -/
theorem nodup_visibleIds : (visibleIds t).Nodup := (Finset.sort_nodup _ _).filter _

/-- Every one of the posts has an author with a row. -/
def Authored (t : Tables) (authors : ℕ → Option UserDTO) (ids : List ℕ) : Prop :=
  ∀ id ∈ ids, ∀ blog, t.blogs.lookup id = some blog → authors blog.userId ≠ none

/-- A post is shown exactly when its author has a row, and then under its own id. -/
theorem shown_cases (authors : ℕ → Option UserDTO) (likes : Likes) (viewer : Option ℤ)
    (row : ℕ × Blog) :
    (authors row.2.userId = none ∧ shown authors likes viewer row = .error .nullPointer) ∨
      authors row.2.userId ≠ none ∧ ∃ s, shown authors likes viewer row = .ok s ∧ s.id = row.1 := by
  unfold shown
  cases authors row.2.userId with
  | none => exact .inl ⟨rfl, rfl⟩
  | some user => exact .inr ⟨nofun, _, rfl, rfl⟩

/-- One post more in front. -/
theorem shownAll_cons {id : ℕ} {blog : Blog} (hblog : t.blogs.lookup id = some blog) (ids : List ℕ) :
    shownAll t authors likes viewer (id :: ids) = (do
      let s ← shown authors likes viewer (id, blog)
      let rest ← shownAll t authors likes viewer ids
      pure (s :: rest)) := by
  have hrow : rowOf t id = some (id, blog) := by
    unfold rowOf
    rw [hblog]
    rfl
  unfold shownAll
  rw [List.filterMap_cons_some hrow, List.mapM_cons]

/-- **Posts are shown all or none**: all of them, each once and in order, when every author has a row; and the
call throws when one has none. -/
theorem shownAll_cases (authors : ℕ → Option UserDTO) (likes : Likes) (viewer : Option ℤ)
    {ids : List ℕ} (h : ∀ id ∈ ids, ∃ blog, t.blogs.lookup id = some blog) :
    (Authored t authors ids ∧ ∃ list, shownAll t authors likes viewer ids = .ok list ∧
        list.map ShownBlog.id = ids) ∨
      (∃ id ∈ ids, ∃ blog, t.blogs.lookup id = some blog ∧ authors blog.userId = none) ∧
        shownAll t authors likes viewer ids = .error .nullPointer := by
  induction ids with
  | nil => exact .inl ⟨nofun, [], rfl, rfl⟩
  | cons id ids ih =>
    obtain ⟨blog, hblog⟩ := h id List.mem_cons_self
    rw [shownAll_cons hblog]
    rcases shown_cases authors likes viewer (id, blog) with
      ⟨hnone, hthrown⟩ | ⟨hsome, s, hs, hid⟩
    · rw [hthrown]
      exact .inr ⟨⟨id, List.mem_cons_self, blog, hblog, hnone⟩, rfl⟩
    · rw [hs]
      rcases ih fun id' hid' => h id' (List.mem_cons_of_mem id hid') with
        ⟨hauthored, list, hlist, hids⟩ | ⟨⟨id', hid', hmissing⟩, hthrown⟩
      · rw [hlist]
        refine .inl ⟨fun id' hid' blog' hblog' => ?_, s :: list, rfl, by rw [List.map_cons, hid, hids]⟩
        rcases List.mem_cons.mp hid' with rfl | hid'
        · obtain rfl := Option.some.inj (hblog.symm.trans hblog')
          exact hsome
        · exact hauthored id' hid' blog' hblog'
      · rw [hthrown]
        exact .inr ⟨⟨id', List.mem_cons_of_mem id hid', hmissing⟩, rfl⟩

/-- The posts of a page are there. -/
theorem exists_of_slice {order : List ℕ} (h : order.Perm (visibleIds t)) (start size : ℕ) :
    ∀ id ∈ slice order start size, ∃ blog, t.blogs.lookup id = some blog := by
  intro id hid
  exact exists_of_visible (h.mem_iff.mp (List.mem_of_mem_drop (List.mem_of_mem_take hid)))

/-- The ids of a page, when every author has a row. -/
theorem page_queryHotBlog (hauthored : Authored t authors (visibleIds t)) {order : List ℕ}
    (h : order.Perm (visibleIds t)) (current : ℕ) :
    ∃ page, queryHotBlog t authors likes viewer order current = .ok page ∧
      page.map ShownBlog.id = slice order ((current - 1) * maxPageSize) maxPageSize := by
  rcases shownAll_cases authors likes viewer
    (exists_of_slice h ((current - 1) * maxPageSize) maxPageSize) with ⟨-, hpage⟩ | ⟨⟨id, hid, blog, hblog, hnone⟩, -⟩
  · exact hpage
  · have hvisible : id ∈ visibleIds t := h.mem_iff.mp (List.mem_of_mem_drop (List.mem_of_mem_take hid))
    exact absurd hnone (hauthored id hvisible blog hblog)

/-- A page that is answered has the ids of its slice, and their authors have rows. -/
theorem ids_queryHotBlog {order : List ℕ} (h : order.Perm (visibleIds t)) {current : ℕ} {page : List ShownBlog}
    (hpage : queryHotBlog t authors likes viewer order current = .ok page) :
    page.map ShownBlog.id = slice order ((current - 1) * maxPageSize) maxPageSize ∧
      Authored t authors (slice order ((current - 1) * maxPageSize) maxPageSize) := by
  unfold queryHotBlog at hpage
  rcases shownAll_cases authors likes viewer
    (exists_of_slice h ((current - 1) * maxPageSize) maxPageSize) with ⟨hauthored, list, hlist, hids⟩ | ⟨-, hthrown⟩
  · obtain rfl := Except.ok.inj (hlist.symm.trans hpage)
    exact ⟨hids, hauthored⟩
  · rw [hthrown] at hpage
    cases hpage

/-- A page that is answered is empty when it starts behind the last post. -/
theorem page_eq_nil {order : List ℕ} (h : order.Perm (visibleIds t)) {j : ℕ} {page : List ShownBlog}
    (hpage : queryHotBlog t authors likes viewer order (j + 1) = .ok page) :
    page = [] ↔ (visibleIds t).length ≤ j * maxPageSize := by
  rw [← List.map_eq_nil_iff (f := ShownBlog.id), (ids_queryHotBlog h hpage).1, slice_eq_nil (by decide),
    Nat.add_sub_cancel, h.length_eq]

/-- The first `j` pages of two orders hold the same posts where the likes part them. -/
theorem pages_agree {L L' : List ℕ} (hL : Ranking (likedRank t) (visibleIds t) L)
    (hL' : Ranking (likedRank t) (visibleIds t) L') (j : ℕ)
    (h : 0 < j → j * maxPageSize < (visibleIds t).length →
      Separated (likedRank t) (visibleIds t) (j * maxPageSize)) :
    (L.take (j * maxPageSize)).Perm (L'.take (j * maxPageSize)) := by
  rcases Nat.eq_zero_or_pos j with rfl | hj
  · simp
  · by_cases hend : j * maxPageSize < (visibleIds t).length
    · exact hL.take_perm hL' (h hj hend)
    · have hlength := hL.perm.length_eq
      have hlength' := hL'.perm.length_eq
      rw [List.take_of_length_le (by omega), List.take_of_length_le (by omega)]
      exact hL.perm.trans hL'.perm.symm

/-- Every page is answered, and up to the first empty one every visible post comes once. -/
def Partition (t : Tables) (authors : ℕ → Option UserDTO) (likes : Likes) (viewer : Option ℤ)
    (orders : ℕ → List ℕ) : Prop :=
  ∃ (k : ℕ) (page : ℕ → List ShownBlog),
    queryHotBlog t authors likes viewer (orders (k + 1)) (k + 1) = .ok [] ∧
    (∀ j < k, queryHotBlog t authors likes viewer (orders (j + 1)) (j + 1) = .ok (page j) ∧ page j ≠ []) ∧
    (((List.range k).flatMap page).map ShownBlog.id).Perm (visibleIds t)

/-- The ids of the first pages. -/
theorem ids_pages {orders : ℕ → List ℕ} (horders : ∀ current, (orders current).Perm (visibleIds t)) {k : ℕ}
    {page : ℕ → List ShownBlog}
    (h : ∀ j < k, queryHotBlog t authors likes viewer (orders (j + 1)) (j + 1) = .ok (page j)) :
    ((List.range k).flatMap page).map ShownBlog.id =
      (List.range k).flatMap fun j => slice (orders (j + 1)) (j * maxPageSize) maxPageSize := by
  rw [List.map_flatMap]
  refine List.flatMap_congr fun j hj => ?_
  rw [(ids_queryHotBlog (horders _) (h j (List.mem_range.mp hj))).1, Nat.add_sub_cancel]

/-- With an author for every post and a number of likes that parts the posts at every cut, the pages are a
partition. -/
theorem partition_of_separated (hauthored : Authored t authors (visibleIds t))
    (h : ∀ m, 0 < m → m * maxPageSize < (visibleIds t).length →
      Separated (likedRank t) (visibleIds t) (m * maxPageSize))
    {orders : ℕ → List ℕ} (horders : ∀ current, Ranking (likedRank t) (visibleIds t) (orders current)) :
    Partition t authors likes viewer orders := by
  have hsize : maxPageSize = 10 := rfl
  have hanswered : ∀ j, ∃ page, queryHotBlog t authors likes viewer (orders (j + 1)) (j + 1) = .ok page ∧
      page.map ShownBlog.id = slice (orders (j + 1)) ((j + 1 - 1) * maxPageSize) maxPageSize := fun j =>
    page_queryHotBlog hauthored (horders (j + 1)).perm (j + 1)
  choose page hpage hids using hanswered
  have hempty : ∀ j, page j = [] ↔ (visibleIds t).length ≤ j * maxPageSize := fun j =>
    page_eq_nil (horders _).perm (hpage j)
  refine ⟨((visibleIds t).length + 9) / 10, page, ?_, fun j hj => ⟨hpage j, ?_⟩, ?_⟩
  · rw [hpage, (hempty _).mpr (by rw [hsize]; omega)]
  · rw [Ne, hempty, hsize]
    omega
  · rw [ids_pages (fun current => (horders current).perm) fun j _ => hpage j]
    refine (pages_perm_take (orders 0) (fun j => orders (j + 1)) ?_).trans ?_
    · intro j _
      exact ⟨pages_agree (horders 0) (horders (j + 1)) j (h j),
        pages_agree (horders 0) (horders (j + 1)) (j + 1) (h (j + 1))⟩
    · have hlength := (horders 0).perm.length_eq
      rw [List.take_of_length_le (by rw [hsize]; omega)]
      exact (horders 0).perm

/-- A partition shows every post, so that every author has a row. -/
theorem authored_of_partition {orders : ℕ → List ℕ} (horders : ∀ current, (orders current).Perm (visibleIds t))
    (h : Partition t authors likes viewer orders) : Authored t authors (visibleIds t) := by
  obtain ⟨k, page, -, hpages, hperm⟩ := h
  rw [ids_pages horders fun j hj => (hpages j hj).1] at hperm
  intro id hid
  obtain ⟨j, hj, hslice⟩ := List.mem_flatMap.mp (hperm.mem_iff.mpr hid)
  have hauthored := (ids_queryHotBlog (horders _) (hpages j (List.mem_range.mp hj)).1).2
  rw [Nat.add_sub_cancel] at hauthored
  exact hauthored id hslice

/-- Where two posts with one number of likes meet at a cut, one order before the cut and another after it
show one of them twice. -/
theorem separated_of_partition
    (h : ∀ orders : ℕ → List ℕ, (∀ current, Ranking (likedRank t) (visibleIds t) (orders current)) →
      Partition t authors likes viewer orders) {m : ℕ} (hm : 0 < m)
    (hend : m * maxPageSize < (visibleIds t).length) :
    Separated (likedRank t) (visibleIds t) (m * maxPageSize) := by
  have hsize : maxPageSize = 10 := rfl
  by_contra hties
  rw [hsize] at hend hties
  obtain ⟨L, hL⟩ := exists_ranking (likedRank t) (visibleIds t)
  obtain ⟨A, a, b, B, rfl, hA, hswap⟩ :=
    hL.exists_swap (by omega) (by rw [hL.perm.length_eq]; exact hend) hties
  have horders : ∀ current, Ranking (likedRank t) (visibleIds t)
      (if current ≤ m then A ++ a :: b :: B else A ++ b :: a :: B) := by
    intro current
    split
    · exact hL
    · exact hswap
  obtain ⟨k, page, hlast, hpages, hperm⟩ := h _ horders
  have hk : (visibleIds t).length ≤ k * maxPageSize := (page_eq_nil (horders _).perm hlast).mp rfl
  rw [hsize] at hk
  rw [ids_pages (fun current => (horders current).perm) fun j hj => (hpages j hj).1] at hperm
  obtain ⟨-, hdisjoint⟩ := List.nodup_flatMap.mp (hperm.nodup_iff.mpr nodup_visibleIds)
  have hpair := List.pairwise_iff_getElem.mp hdisjoint (m - 1) m (by simp; omega) (by simp; omega)
    (by omega)
  simp only [List.getElem_range, Function.onFun, Nat.sub_add_cancel hm, le_refl, if_true] at hpair
  rw [if_neg (by omega)] at hpair
  refine hpair (a := a) ?_ ?_
  · refine mem_slice (i := A.length) (by simp) ?_ ?_ <;> rw [hsize] <;> omega
  · refine mem_slice (i := A.length + 1) (by simp) ?_ ?_ <;> rw [hsize] <;> omega

end pages

/-- **The pages hold every visible post once**, whatever orders with falling likes their statements find,
exactly when every post has an author with a row, and at every cut some number of likes parts the posts before
it from the others. -/
theorem hot_pages (t : Tables) (authors : ℕ → Option UserDTO) (likes : Likes) (viewer : Option ℤ) :
    (∀ orders : ℕ → List ℕ, (∀ current, Ranking (likedRank t) (visibleIds t) (orders current)) →
      Partition t authors likes viewer orders) ↔
      Authored t authors (visibleIds t) ∧ ∀ m, 0 < m → m * maxPageSize < (visibleIds t).length →
        Separated (likedRank t) (visibleIds t) (m * maxPageSize) := by
  constructor
  · intro h
    obtain ⟨L, hL⟩ := exists_ranking (likedRank t) (visibleIds t)
    refine ⟨authored_of_partition (fun _ => hL.perm) (h (fun _ => L) fun _ => hL), fun m hm hend => ?_⟩
    exact separated_of_partition h hm hend
  · rintro ⟨hauthored, h⟩ orders horders
    exact partition_of_separated hauthored h horders

/-- Eleven posts that nobody likes. -/
def elevenPosts : Tables where
  blogs := (List.range 11).foldl (fun blogs id => blogs.insert id
    { shopId := none, userId := 1, title := [97], images := [], content := [97], liked := some 0
      comments := some 0, withdrawn := 0 }) ∅
  comments := ∅
  commentAudits := ∅
  replyAudits := ∅

/-- Two orders of eleven posts without likes show one post on both pages, and miss another. -/
theorem hot_pages_tied :
    ¬ ∀ orders : ℕ → List ℕ,
      (∀ current, Ranking (likedRank elevenPosts) (visibleIds elevenPosts) (orders current)) →
        Partition elevenPosts (fun _ => some ⟨none, none⟩) (fun _ _ => none) none orders := by
  intro h
  have hvisible : ∀ id ∈ elevenPosts.blogs.keys,
      (elevenPosts.blogs.lookup id).any (fun b => decide (b.withdrawn = 0)) = true := by decide
  have hrank : ∀ id ∈ elevenPosts.blogs.keys, likedRank elevenPosts id = 1 := by decide
  have hids : visibleIds elevenPosts = elevenPosts.blogs.keys.sort (· ≤ ·) :=
    List.filter_eq_self.mpr fun id hid => hvisible id ((Finset.mem_sort _).mp hid)
  have hlength : (visibleIds elevenPosts).length = 11 := by
    rw [hids, Finset.length_sort]
    decide
  obtain ⟨c, hc⟩ := separated_of_partition h (m := 1) Nat.one_pos (by rw [hlength]; decide)
  have hmem : ∀ id ∈ visibleIds elevenPosts, likedRank elevenPosts id = 1 := by
    intro id hid
    exact hrank id ((Finset.mem_sort _).mp (List.mem_filter.mp hid).1)
  by_cases habove : c < 1
  · rw [List.countP_eq_length.mpr fun id hid => by rw [hmem id hid]; exact decide_eq_true habove,
      hlength] at hc
    cases hc
  · rw [List.countP_eq_zero.mpr fun id hid => by rw [hmem id hid]; simpa using habove] at hc
    cases hc

end CampusHub.Content
