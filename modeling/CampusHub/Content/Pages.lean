import Mathlib.Data.Finset.Sort
import CampusHub.Content.Writers
import CampusHub.Foundations.Guards
import CampusHub.Foundations.Sweeps

/-!
# The lists of comments, replies and audits

* `Snapshot` — the tables as one read-only transaction sees them.
* `selectBelow`, `toPage` — the statement with its row more, and the cut.
* `listComments`, `listReplies`, `listHideAudits`, `listReplyHideAudits` — the four lists.
* `Walk` — a client that follows `nextBeforeId` until `hasNext` is false, while the tables change.

**Theorem** (`keyset_pages`). Each page of a list is read from a snapshot of its own, and anything may
commit between two pages. A walk of each of the four lists ends, in pages of 1 to 50 rows. No id comes
twice, a row that matched at the times of all pages is on one of them, and each page holds what matched in
its snapshot below the cursor, from the highest id down. Lists of comments and replies need that the post,
and the root of the replies, is shown at each page: otherwise a page is refused.

**Proof route.** The cursor is the last id of a page and the next page is strictly below it, so that a walk
is a sweep in the sense of `Foundations.Sweeps`: every id is passed once (`Walk.sweep`). It ends since the
cursors go down (`exists_last_page`). The four lists differ in their checks only, and `lists_comments` and
its three siblings reduce each to a `Listing`.

**Left out.** The names and icons of the users that the answers carry, which are read in other statements.
-/

namespace CampusHub.Content

open CampusHub.Domain CampusHub.Foundations.Decimal CampusHub.Foundations.Guards
open CampusHub.Foundations.Maps CampusHub.Foundations.Sweeps

/-! ## Snapshots -/

/-- The tables, with the audits under their own ids. -/
structure Snapshot where
  tables : Tables
  commentAudits : FiniteMap ℕ (ℕ × BlogCommentHideAudit)
  replyAudits : FiniteMap ℕ (ℕ × BlogReplyHideAudit)
  /-- `AUTO_INCREMENT` starts at 1. -/
  positive : ∀ id, id ∈ tables.comments.keys ∨ id ∈ commentAudits.keys ∨ id ∈ replyAudits.keys → 0 < id
  commentAudited : ∀ commentId audit, tables.commentAudits.lookup commentId = some audit ↔
    ∃ id, commentAudits.lookup id = some (commentId, audit)
  replyAudited : ∀ replyId audit, tables.replyAudits.lookup replyId = some audit ↔
    ∃ id, replyAudits.lookup id = some (replyId, audit)

/-- The ids of the rows that meet `p`. -/
def idsWhere {ρ : Type} (table : FiniteMap ℕ ρ) (p : ρ → Bool) : Finset ℕ :=
  selected (fun _ row => p row = true) table

/-- Below the cursor of a client. -/
def below (beforeId : Option ℕ) (id : ℕ) : Prop := ∀ b ∈ beforeId, id < b

instance (beforeId : Option ℕ) : DecidablePred (below beforeId) := fun id =>
  inferInstanceAs (Decidable (∀ b ∈ beforeId, id < b))

/-- `AND id < #{beforeId} ORDER BY id DESC LIMIT #{limit}`, the ids. -/
def idsBelow (ids : Finset ℕ) (beforeId : Option ℕ) (limit : ℕ) : List ℕ :=
  ((ids.sort (· ≥ ·)).filter (below beforeId)).take limit

/-- The rows of these ids. -/
def rowsOf {ρ : Type} (table : FiniteMap ℕ ρ) (ids : List ℕ) : List (ℕ × ρ) :=
  ids.filterMap fun id => (table.lookup id).map fun row => (id, row)

/-- `SELECT … WHERE p AND id < #{beforeId} ORDER BY id DESC LIMIT #{limit}` -/
def selectBelow {ρ : Type} (table : FiniteMap ℕ ρ) (p : ρ → Bool) (beforeId : Option ℕ) (limit : ℕ) :
    List (ℕ × ρ) :=
  rowsOf table (idsBelow (idsWhere table p) beforeId limit)

namespace Snapshot

variable (s : Snapshot)

/-- Source: `BlogCommentsMapper.xml` 10–12. -/
def findBlog (blogId : ℕ) : Option ℕ :=
  ((s.tables.blogs.lookup blogId).filter fun b => b.withdrawn = 0).map fun _ => blogId

/-- `blog_id = #{blogId} AND parent_id = 0 AND answer_id = 0 AND status = 0` -/
def shownComment (blogId : ℕ) (row : BlogComments) : Bool :=
  decide (row.blogId = blogId) && Level.firstLevel.fits row && decide (row.status = some 0)

/-- Source: `BlogCommentsMapper.xml` 145–151. -/
def findFirstLevelComments (blogId : ℕ) (beforeId : Option ℕ) (limit : ℕ) : List (ℕ × BlogComments) :=
  selectBelow s.tables.comments (shownComment blogId) beforeId limit

/-- `blog_id = #{blogId} AND parent_id = #{commentId} AND answer_id = #{commentId} AND status = 0` -/
def shownReply (blogId commentId : ℕ) (row : BlogComments) : Bool :=
  decide (row.blogId = blogId ∧ row.parentId = commentId ∧ row.answerId = commentId ∧
    row.status = some 0)

/-- Source: `BlogCommentsMapper.xml` 96–101. -/
def findDirectReplies (blogId commentId : ℕ) (beforeId : Option ℕ) (limit : ℕ) :
    List (ℕ × BlogComments) :=
  selectBelow s.tables.comments (shownReply blogId commentId) beforeId limit

/-- Source: `BlogCommentsMapper.xml` 89–95. -/
def findHideAuditsByBlog (blogId : ℕ) (beforeId : Option ℕ) (limit : ℕ) :
    List (ℕ × ℕ × BlogCommentHideAudit) :=
  selectBelow s.commentAudits (fun row => decide (row.2.blogId = blogId)) beforeId limit

/-- Source: `BlogCommentsMapper.xml` 111–117. -/
def findReplyHideAuditsByBlog (blogId : ℕ) (beforeId : Option ℕ) (limit : ℕ) :
    List (ℕ × ℕ × BlogReplyHideAudit) :=
  selectBelow s.replyAudits (fun row => decide (row.2.blogId = blogId)) beforeId limit

end Snapshot

/-! ## The four lists -/

/-- Source: `BlogCommentPageRequest.java` 11–20, `BlogCommentHideAuditPageRequest.java` 11–20. -/
structure PageRequest where
  beforeId : Option ℤ := none
  size : Option ℤ := some 20
  deriving DecidableEq

/-- The values of a request that meets its constraints. -/
def PageRequest.validated (request : Option PageRequest) : Option (Option ℕ × ℕ) := do
  let request ← request
  let size ← request.size.filter fun n => decide (1 ≤ n ∧ n ≤ 50)
  match request.beforeId with
  | none => pure (none, size.toNat)
  | some beforeId => if 0 < beforeId then pure (some beforeId.toNat, size.toNat) else none

/-- `BlogCommentPage`, `BlogCommentHideAuditPage` and `BlogReplyHideAuditPage`. -/
structure Page (ι : Type) where
  items : List ι
  hasNext : Bool
  nextBeforeId : Option String

/-- Source: `BlogCommentHideAuditResponse.java`, without the creation time. -/
structure BlogCommentHideAuditResponse where
  id : String
  commentId : String
  blogId : String
  operatorUserId : String
  reason : Text
  fromStatus : ℕ
  toStatus : ℕ

def BlogCommentHideAuditResponse.ofRow (id : ℕ) (row : ℕ × BlogCommentHideAudit) :
    BlogCommentHideAuditResponse :=
  ⟨decimal id, decimal row.1, decimal row.2.blogId, decimal row.2.operatorUserId, row.2.reason,
    row.2.fromStatus, row.2.toStatus⟩

/-- Source: `BlogReplyHideAuditResponse.java`, without the creation time. -/
structure BlogReplyHideAuditResponse where
  id : String
  replyId : String
  blogId : String
  rootCommentId : String
  operatorUserId : String
  reason : Text
  fromStatus : ℕ
  toStatus : ℕ

def BlogReplyHideAuditResponse.ofRow (id : ℕ) (row : ℕ × BlogReplyHideAudit) :
    BlogReplyHideAuditResponse :=
  ⟨decimal id, decimal row.1, decimal row.2.blogId, decimal row.2.rootCommentId,
    decimal row.2.operatorUserId, row.2.reason, row.2.fromStatus, row.2.toStatus⟩

/-- The cut of the rows, of which there may be one more. Source: `BlogCommentsServiceImpl.java` 320–324,
343–347, 353–360. -/
def toPage {ρ ι : Type} (item : ℕ → ρ → ι) (idOf : ι → String) (rows : List (ℕ × ρ)) (size : ℕ) :
    Page ι :=
  let hasNext := decide (size < rows.length)
  let items := (rows.take size).map fun row => item row.1 row.2
  { items := items, hasNext := hasNext
    nextBeforeId := if hasNext then items.getLast?.map idOf else none }

def refusal (code : ErrorCode) : BusinessException := { errorCode := code }

/-- Nothing for `db` when the database fails. Source: `BlogCommentsServiceImpl.java` 118–129. -/
def listComments (db : Option Snapshot) (blogId : Option ℤ) (request : Option PageRequest) :
    Except BusinessException (Page BlogCommentItem) := do
  let blogId ← getOr (positive blogId) (refusal .validationFailed)
  let (beforeId, size) ← getOr (PageRequest.validated request) (refusal .validationFailed)
  let s ← getOr db (refusal .internalError)
  let _ ← getOr (s.findBlog blogId) (refusal .notFound)
  pure (toPage toItem BlogCommentItem.id (s.findFirstLevelComments blogId beforeId (size + 1)) size)

/-- Source: `BlogCommentsServiceImpl.java` 100–116. -/
def listReplies (db : Option Snapshot) (commentId : Option ℤ) (request : Option PageRequest) :
    Except BusinessException (Page BlogCommentItem) := do
  let commentId ← getOr (positive commentId) (refusal .validationFailed)
  let (beforeId, size) ← getOr (PageRequest.validated request) (refusal .validationFailed)
  let s ← getOr db (refusal .internalError)
  let root ← getOr (s.tables.findVisibleRoot commentId) (refusal .notFound)
  let _ ← getOr (s.findBlog root.blogId) (refusal .notFound)
  pure (toPage toItem BlogCommentItem.id
    (s.findDirectReplies root.blogId commentId beforeId (size + 1)) size)

/-- Source: `BlogCommentsServiceImpl.java` 309–329. -/
def listHideAudits (db : Option Snapshot) (blogId : Option ℤ) (request : Option PageRequest)
    (user : Option ℤ) : Except BusinessException (Page BlogCommentHideAuditResponse) := do
  let blogId ← getOr (positive blogId) (refusal .validationFailed)
  let (beforeId, size) ← getOr (PageRequest.validated request) (refusal .validationFailed)
  let _ ← getOr (positive user) (refusal .authenticationFailed)
  let s ← getOr db (refusal .internalError)
  pure (toPage BlogCommentHideAuditResponse.ofRow BlogCommentHideAuditResponse.id
    (s.findHideAuditsByBlog blogId beforeId (size + 1)) size)

/-- Source: `BlogCommentsServiceImpl.java` 331–351. -/
def listReplyHideAudits (db : Option Snapshot) (blogId : Option ℤ) (request : Option PageRequest)
    (user : Option ℤ) : Except BusinessException (Page BlogReplyHideAuditResponse) := do
  let blogId ← getOr (positive blogId) (refusal .validationFailed)
  let (beforeId, size) ← getOr (PageRequest.validated request) (refusal .validationFailed)
  let _ ← getOr (positive user) (refusal .authenticationFailed)
  let s ← getOr db (refusal .internalError)
  pure (toPage BlogReplyHideAuditResponse.ofRow BlogReplyHideAuditResponse.id
    (s.findReplyHideAuditsByBlog blogId beforeId (size + 1)) size)

/-! ## The rows of a statement -/

/-- The ids of the rows that match. -/
theorem mem_idsWhere {ρ : Type} {table : FiniteMap ℕ ρ} {p : ρ → Bool} {id : ℕ} :
    id ∈ idsWhere table p ↔ ∃ row, table.lookup id = some row ∧ p row = true :=
  mem_selected

/-- The rows below the cursor, from the highest id down. -/
theorem pageOf_idsBelow (ids : Finset ℕ) (beforeId : Option ℕ) (limit : ℕ) :
    PageOf (· > ·) (ids : Set ℕ) (below beforeId) limit (idsBelow ids beforeId limit) := by
  have hsorted : (ids.sort (· ≥ ·)).Pairwise (· > ·) := by
    have hnodup := ids.sort_nodup (· ≥ ·)
    refine (ids.pairwise_sort (· ≥ ·)).imp₂ ?_ hnodup
    intro a b hge hne
    exact lt_of_le_of_ne hge (Ne.symm hne)
  have h : PageOf (· > ·) {x | x ∈ ids.sort (· ≥ ·)} (below beforeId) limit
      (((ids.sort (· ≥ ·)).filter fun id => decide (below beforeId id)).take limit) :=
    pageOf_take hsorted limit
  have hset : {x | x ∈ ids.sort (· ≥ ·)} = (ids : Set ℕ) := by
    ext x
    simp
  rwa [hset] at h

/-- Every id has its row. -/
theorem map_fst_rowsOf {ρ : Type} {table : FiniteMap ℕ ρ} {ids : List ℕ}
    (h : ∀ id ∈ ids, ∃ row, table.lookup id = some row) : (rowsOf table ids).map Prod.fst = ids := by
  induction ids with
  | nil => rfl
  | cons id ids ih =>
    obtain ⟨row, hrow⟩ := h id List.mem_cons_self
    have ih := ih fun id' hid' => h id' (List.mem_cons_of_mem id hid')
    unfold rowsOf at *
    rw [List.filterMap_cons_some (b := (id, row)) (by rw [hrow]; rfl), List.map_cons, ih]

/-- The first rows are the rows of the first ids. -/
theorem take_rowsOf {ρ : Type} {table : FiniteMap ℕ ρ} {ids : List ℕ}
    (h : ∀ id ∈ ids, ∃ row, table.lookup id = some row) (n : ℕ) :
    (rowsOf table ids).take n = rowsOf table (ids.take n) := by
  induction ids generalizing n with
  | nil => simp [rowsOf]
  | cons id ids ih =>
    obtain ⟨row, hrow⟩ := h id List.mem_cons_self
    have ih := ih fun id' hid' => h id' (List.mem_cons_of_mem id hid')
    cases n with
    | zero => rfl
    | succ n =>
      unfold rowsOf at *
      rw [List.filterMap_cons_some (b := (id, row)) (by rw [hrow]; rfl), List.take_succ_cons,
        List.take_succ_cons, ih, List.filterMap_cons_some (b := (id, row)) (by rw [hrow]; rfl)]

/-! ## Walks -/

/-- A list: rows of one table that match, and their items. -/
structure Listing (ρ ι : Type) where
  table : Snapshot → FiniteMap ℕ ρ
  matching : ρ → Bool
  item : ℕ → ρ → ι
  idOf : ι → String
  idOf_item : ∀ id row, idOf (item id row) = decimal id
  positive : ∀ (s : Snapshot) id, id ∈ (table s).keys → 0 < id

namespace Listing

variable {ρ ι : Type} (l : Listing ρ ι) (s : Snapshot) (beforeId : Option ℕ) (size : ℕ)

/-- The ids that match. -/
def ids : Finset ℕ := idsWhere (l.table s) l.matching

/-- The answer. -/
def page : Page ι :=
  toPage l.item l.idOf (selectBelow (l.table s) l.matching beforeId (size + 1)) size

/-- The ids on the page. -/
def pageIds : List ℕ := (idsBelow (l.ids s) beforeId (size + 1)).take size

variable {l s beforeId size}

/-- An id that is selected has a row. -/
theorem exists_of_idsBelow {limit id : ℕ} (h : id ∈ idsBelow (l.ids s) beforeId limit) :
    ∃ row, (l.table s).lookup id = some row := by
  obtain ⟨row, hrow, -⟩ := mem_idsWhere.mp ((pageOf_idsBelow _ _ _).mem id h).1
  exact ⟨row, hrow⟩

/-- There are as many rows as ids. -/
theorem length_selectBelow (limit : ℕ) :
    (selectBelow (l.table s) l.matching beforeId limit).length =
      (idsBelow (l.ids s) beforeId limit).length := by
  have h := congrArg List.length
    (map_fst_rowsOf fun id (hid : id ∈ idsBelow (l.ids s) beforeId limit) => exists_of_idsBelow hid)
  rwa [List.length_map] at h

/-- The items of a page are made of the rows of its ids. -/
theorem items_page : (l.page s beforeId size).items =
    (rowsOf (l.table s) (l.pageIds s beforeId size)).map fun row => l.item row.1 row.2 := by
  have h := take_rowsOf (fun id (hid : id ∈ idsBelow (l.ids s) beforeId (size + 1)) =>
    exists_of_idsBelow hid) size
  exact congrArg (List.map fun row => l.item row.1 row.2) h

/-- There is a next page when the statement found one row more. -/
theorem hasNext_page : (l.page s beforeId size).hasNext = true ↔
    size < (idsBelow (l.ids s) beforeId (size + 1)).length := by
  rw [← length_selectBelow]
  exact decide_eq_true_iff

/-- The items are under the ids of the page, in their order. -/
theorem map_idOf_items : (l.page s beforeId size).items.map l.idOf =
    (l.pageIds s beforeId size).map decimal := by
  have hrows := map_fst_rowsOf fun id (hid : id ∈ l.pageIds s beforeId size) =>
    exists_of_idsBelow (List.mem_of_mem_take hid)
  rw [items_page, List.map_map]
  conv_rhs => rw [← hrows, List.map_map]
  refine List.map_congr_left fun row _ => ?_
  exact l.idOf_item row.1 row.2

/-- The cursor that a page hands out. -/
theorem nextBeforeId_page (h : (l.page s beforeId size).hasNext = true) :
    (l.page s beforeId size).nextBeforeId = (l.pageIds s beforeId size).getLast?.map decimal := by
  have hdef : (l.page s beforeId size).nextBeforeId = if (l.page s beforeId size).hasNext then
      (l.page s beforeId size).items.getLast?.map l.idOf else none := rfl
  rw [hdef, if_pos h, ← List.getLast?_map, map_idOf_items, List.getLast?_map]

/-- The ids on a page are the first below the cursor. -/
theorem pageOf_pageIds :
    PageOf (· > ·) (l.ids s : Set ℕ) (below beforeId) size (l.pageIds s beforeId size) :=
  (pageOf_idsBelow _ _ _).cut

/-- There is a next page exactly when some row that matches lies behind this one. -/
theorem hasNext_iff : (l.page s beforeId size).hasNext = true ↔
    ∃ id ∈ l.ids s, past (· > ·) (below beforeId) (l.pageIds s beforeId size) id := by
  rw [hasNext_page]
  exact (pageOf_idsBelow _ _ _).more_iff

/-- A page with a next one is not empty. -/
theorem exists_last (hsize : 0 < size) (h : (l.page s beforeId size).hasNext = true) :
    ∃ last, (l.pageIds s beforeId size).getLast? = some last := by
  have hlong := hasNext_page.mp h
  have hne : l.pageIds s beforeId size ≠ [] := by
    unfold pageIds
    rw [Ne, List.take_eq_nil_iff]
    rintro (hzero | hnil)
    · omega
    · rw [hnil] at hlong
      exact absurd hlong (Nat.not_lt_zero _)
  exact ⟨_, List.getLast?_eq_getLast_of_ne_nil hne⟩

/-- Behind a page is below its last id. -/
theorem past_iff {last : ℕ} (hlast : (l.pageIds s beforeId size).getLast? = some last) (id : ℕ) :
    past (· > ·) (below beforeId) (l.pageIds s beforeId size) id ↔ id < last := by
  have hpage : PageOf (· > ·) (l.ids s : Set ℕ) (below beforeId) size (l.pageIds s beforeId size) :=
    pageOf_pageIds
  have hmem := List.mem_of_getLast? hlast
  constructor
  · rintro ⟨-, hall⟩
    exact hall last hmem
  · intro hid
    refine ⟨fun b hb => hid.trans ((hpage.mem last hmem).2 b hb), ?_⟩
    intro y hy
    obtain ⟨front, hfront⟩ := List.getLast?_eq_some_iff.mp hlast
    have hsorted := hpage.sorted
    rw [hfront] at hsorted hy
    rcases List.mem_append.mp hy with hy | hy
    · exact hid.trans ((List.pairwise_append.mp hsorted).2.2 y hy last (List.mem_singleton_self _))
    · rw [List.mem_singleton.mp hy]
      exact hid

/-- What a client may rely on of one page. -/
structure Faithful (l : Listing ρ ι) (s : Snapshot) (size : ℕ) (ids : List ℕ) (page : Page ι) :
    Prop where
  items : page.items = (rowsOf (l.table s) ids).map fun row => l.item row.1 row.2
  named : page.items.map l.idOf = ids.map decimal
  matching : ∀ id ∈ ids, id ∈ l.ids s
  short : page.items.length ≤ size
  hasNext : page.hasNext = true ↔ ∃ last, ids.getLast? = some last ∧ ∃ id ∈ l.ids s, id < last
  next : page.hasNext = true → page.nextBeforeId = ids.getLast?.map decimal

/-- Every page is such a page. -/
theorem faithful_page (hsize : 0 < size) :
    Faithful l s size (l.pageIds s beforeId size) (l.page s beforeId size) where
  items := items_page
  named := map_idOf_items
  matching id hid := (pageOf_pageIds.mem id hid).1
  short := by
    have h : ((l.page s beforeId size).items.map l.idOf).length =
        ((l.pageIds s beforeId size).map decimal).length := congrArg List.length map_idOf_items
    rw [List.length_map, List.length_map] at h
    rw [h]
    exact pageOf_pageIds.length_le
  hasNext := by
    constructor
    · intro h
      obtain ⟨last, hlast⟩ := exists_last hsize h
      obtain ⟨id, hid, hpast⟩ := hasNext_iff.mp h
      exact ⟨last, hlast, id, hid, (past_iff hlast id).mp hpast⟩
    · rintro ⟨last, hlast, id, hid, hlt⟩
      exact hasNext_iff.mpr ⟨id, hid, (past_iff hlast id).mpr hlt⟩
  next := nextBeforeId_page

end Listing

/-- The pages of a walk are right: each page is, no id comes twice, and a row that matches all the while is
on one of them. -/
def Listing.Complete {ρ ι : Type} (l : Listing ρ ι) (snap : ℕ → Snapshot) (size n : ℕ)
    (page : ℕ → Page ι) : Prop :=
  ∃ ids : ℕ → List ℕ, (∀ k ≤ n, Listing.Faithful l (snap k) size (ids k) (page k)) ∧
    ((List.range (n + 1)).flatMap ids).Pairwise (· > ·) ∧
    ∀ id, (∀ k ≤ n, id ∈ l.ids (snap k)) → id ∈ (List.range (n + 1)).flatMap ids

/-- A client that starts without a cursor and follows `nextBeforeId` until `hasNext` is false. Page `k` is
read from `snap k`. -/
structure Walk {ι : Type} (list : Snapshot → PageRequest → Except BusinessException (Page ι))
    (snap : ℕ → Snapshot) (size n : ℕ) (beforeId : ℕ → Option ℕ) (page : ℕ → Page ι) : Prop where
  start : beforeId 0 = none
  answered : ∀ k ≤ n, list (snap k) ⟨(beforeId k).map (↑), some size⟩ = .ok (page k)
  follows : ∀ k < n, (page k).hasNext = true ∧ (page k).nextBeforeId = (beforeId (k + 1)).map decimal
  ends : (page n).hasNext = false

section walk

variable {ρ ι : Type} {l : Listing ρ ι}
  {list : Snapshot → PageRequest → Except BusinessException (Page ι)} {snap : ℕ → Snapshot}
  {size n : ℕ} {beforeId : ℕ → Option ℕ} {page : ℕ → Page ι}

/-- The list answers with the pages of the listing. -/
def Lists (list : Snapshot → PageRequest → Except BusinessException (Page ι)) (l : Listing ρ ι)
    (visible : Snapshot → Prop) : Prop :=
  ∀ s beforeId size, visible s → (∀ b ∈ beforeId, 0 < b) → 1 ≤ size → size ≤ 50 →
    list s ⟨beforeId.map (↑), some (size : ℕ)⟩ = .ok (l.page s beforeId size)

variable {visible : Snapshot → Prop}

/-- The ids on a page are positive. -/
theorem positive_of_mem_pageIds {s : Snapshot} {b : Option ℕ} {id : ℕ} (h : id ∈ l.pageIds s b size) :
    0 < id := by
  obtain ⟨row, hrow⟩ := Listing.exists_of_idsBelow (List.mem_of_mem_take h)
  exact l.positive s id (mem_keys_iff.mpr ⟨row, hrow⟩)

/-- A page of a walk. -/
theorem Walk.page_eq (h : Walk list snap size n beforeId page) (hlist : Lists list l visible)
    (hvisible : ∀ k, visible (snap k)) (hlow : 1 ≤ size) (hhigh : size ≤ 50) {k : ℕ} (hk : k ≤ n)
    (hpositive : ∀ b ∈ beforeId k, 0 < b) : page k = l.page (snap k) (beforeId k) size :=
  Except.ok.inj ((h.answered k hk).symm.trans (hlist _ _ _ (hvisible k) hpositive hlow hhigh))

/-- The cursor after it. -/
theorem Walk.cursor_eq (h : Walk list snap size n beforeId page) (hlist : Lists list l visible)
    (hvisible : ∀ k, visible (snap k)) (hlow : 1 ≤ size) (hhigh : size ≤ 50) {k : ℕ} (hk : k < n)
    (hpositive : ∀ b ∈ beforeId k, 0 < b) :
    beforeId (k + 1) = (l.pageIds (snap k) (beforeId k) size).getLast? := by
  obtain ⟨hnext, hcursor⟩ := h.follows k hk
  rw [h.page_eq hlist hvisible hlow hhigh hk.le hpositive] at hnext hcursor
  rw [Listing.nextBeforeId_page hnext] at hcursor
  exact (Option.map_injective decimal_injective hcursor).symm

/-- The cursors of a walk are positive. -/
theorem Walk.positive (h : Walk list snap size n beforeId page) (hlist : Lists list l visible)
    (hvisible : ∀ k, visible (snap k)) (hlow : 1 ≤ size) (hhigh : size ≤ 50) (k : ℕ) (hk : k ≤ n) :
    ∀ b ∈ beforeId k, 0 < b := by
  induction k with
  | zero =>
    rw [h.start]
    nofun
  | succ k ih =>
    intro b hb
    rw [h.cursor_eq hlist hvisible hlow hhigh hk (ih (by omega))] at hb
    exact positive_of_mem_pageIds (List.mem_of_getLast? hb)

/-- The pages of a walk, from page `k` on, sweep what is below its cursor. -/
theorem Walk.sweep (h : Walk list snap size n beforeId page) (hlist : Lists list l visible)
    (hvisible : ∀ k, visible (snap k)) (hlow : 1 ≤ size) (hhigh : size ≤ 50) (m : ℕ) :
    ∀ k, k + m ≤ n + 1 → Sweep (· > ·) size (below (beforeId k)) ((List.range' k m).map fun j =>
      ((l.ids (snap j) : Set ℕ), l.pageIds (snap j) (beforeId j) size)) := by
  induction m with
  | zero => exact fun _ _ => trivial
  | succ m ih =>
    intro k hk
    refine ⟨Listing.pageOf_pageIds, ?_⟩
    cases m with
    | zero => trivial
    | succ m =>
      have hlt : k < n := by omega
      have hpositive := h.positive hlist hvisible hlow hhigh k hlt.le
      have hcursor := h.cursor_eq hlist hvisible hlow hhigh hlt hpositive
      have hnext := (h.follows k hlt).1
      rw [h.page_eq hlist hvisible hlow hhigh hlt.le hpositive] at hnext
      obtain ⟨last, hlast⟩ := Listing.exists_last hlow hnext
      have hahead : past (· > ·) (below (beforeId k)) (l.pageIds (snap k) (beforeId k) size) =
          below (beforeId (k + 1)) := by
        funext id
        rw [hcursor, hlast, eq_iff_iff, Listing.past_iff hlast]
        simp [below]
      rw [hahead]
      exact ih (k + 1) (by omega)

/-- The pages of a walk are right. -/
theorem Walk.faithful (h : Walk list snap size n beforeId page) (hlist : Lists list l visible)
    (hvisible : ∀ k, visible (snap k)) (hlow : 1 ≤ size) (hhigh : size ≤ 50) :
    Listing.Complete l snap size n page := by
  have hpositive := h.positive hlist hvisible hlow hhigh
  have hsweep := h.sweep hlist hvisible hlow hhigh (n + 1) 0 (by omega)
  have hvisited : visited ((List.range' 0 (n + 1)).map fun j =>
      ((l.ids (snap j) : Set ℕ), l.pageIds (snap j) (beforeId j) size)) =
      (List.range (n + 1)).flatMap fun j => l.pageIds (snap j) (beforeId j) size := by
    rw [visited, List.flatMap_map, List.range_eq_range']
  refine ⟨fun k => l.pageIds (snap k) (beforeId k) size, ?_, ?_, ?_⟩
  · intro k hk
    rw [h.page_eq hlist hvisible hlow hhigh hk (hpositive k hk)]
    exact Listing.faithful_page hlow
  · rw [← hvisited]
    exact hsweep.sorted.1
  · intro id hid
    rw [← hvisited]
    have hstart : below (beforeId 0) id := by
      rw [h.start]
      nofun
    have hthere : ∀ page ∈ (List.range' 0 (n + 1)).map fun j =>
        ((l.ids (snap j) : Set ℕ), l.pageIds (snap j) (beforeId j) size), id ∈ page.1 := by
      intro page hpage
      obtain ⟨j, hj, rfl⟩ := List.mem_map.mp hpage
      have hj := List.mem_range'_1.mp hj
      exact hid j (by omega)
    rcases hsweep.complete hstart hthere with hmem | hlater
    · exact hmem
    · -- a row behind all pages would have given the last one a next page
      exfalso
      have hlast := h.ends
      rw [h.page_eq hlist hvisible hlow hhigh le_rfl (hpositive n le_rfl), ← Bool.not_eq_true] at hlast
      have hmem : ∀ j ≤ n, ∀ y ∈ l.pageIds (snap j) (beforeId j) size, id < y := by
        intro j hj y hy
        refine hlater y ?_
        rw [hvisited]
        exact List.mem_flatMap.mpr ⟨j, List.mem_range.mpr (by omega), hy⟩
      refine hlast (Listing.hasNext_iff.mpr ⟨id, hid n le_rfl, ?_, hmem n le_rfl⟩)
      cases n with
      | zero => exact hstart
      | succ n =>
        have hcursor := h.cursor_eq hlist hvisible hlow hhigh (Nat.lt_succ_self n)
          (hpositive n (Nat.le_succ n))
        intro b hb
        rw [hcursor] at hb
        exact hmem n (Nat.le_succ n) b (List.mem_of_getLast? hb)

/-- The cursors of a client. -/
def cursors (l : Listing ρ ι) (snap : ℕ → Snapshot) (size : ℕ) : ℕ → Option ℕ
  | 0 => none
  | k + 1 => (l.pageIds (snap k) (cursors l snap size k) size).getLast?

/-- The cursors that the client would use are positive. -/
theorem positive_of_cursors (k : ℕ) : ∀ b ∈ cursors l snap size k, 0 < b := by
  intro b hb
  cases k with
  | zero => nomatch hb
  | succ k => exact positive_of_mem_pageIds (List.mem_of_getLast? hb)

/-- The cursors go down, so some page is the last one. -/
theorem exists_last_page (hsize : 0 < size) :
    ∃ n, (l.page (snap n) (cursors l snap size n) size).hasNext = false := by
  by_contra hnever
  push Not at hnever
  have hmore : ∀ k, (l.page (snap k) (cursors l snap size k) size).hasNext = true := fun k =>
    Bool.eq_true_of_not_eq_false (hnever k)
  have hdown : ∀ b k, cursors l snap size k = some b → False := by
    intro b
    induction b using Nat.strong_induction_on with
    | h b ih =>
      intro k hk
      obtain ⟨last, hlast⟩ := Listing.exists_last hsize (hmore k)
      have hbelow := (Listing.pageOf_pageIds.mem last (List.mem_of_getLast? hlast)).2
      exact ih last (hbelow b hk) (k + 1) hlast
  obtain ⟨last, hlast⟩ := Listing.exists_last hsize (hmore 0)
  exact hdown last 1 hlast

/-- The walk ends. -/
theorem exists_walk (hlist : Lists list l visible) (hvisible : ∀ k, visible (snap k)) (hlow : 1 ≤ size)
    (hhigh : size ≤ 50) : ∃ n beforeId page, Walk list snap size n beforeId page := by
  have hends : ∃ n, (l.page (snap n) (cursors l snap size n) size).hasNext = false :=
    exists_last_page hlow
  have hmore : ∀ k < Nat.find hends,
      (l.page (snap k) (cursors l snap size k) size).hasNext = true := fun k hk =>
    Bool.eq_true_of_not_eq_false (Nat.find_min hends hk)
  refine ⟨Nat.find hends, cursors l snap size, fun k => l.page (snap k) (cursors l snap size k) size,
    ⟨rfl, ?_, ?_, Nat.find_spec hends⟩⟩
  · exact fun k _ => hlist _ _ _ (hvisible k) (positive_of_cursors k) hlow hhigh
  · exact fun k hk => ⟨hmore k hk, Listing.nextBeforeId_page (hmore k hk)⟩

end walk

/-! ## The lists are such lists -/

/-- What a client gets that walks a list: the walk ends, and the pages of every walk are right. -/
def Walkable {ρ ι : Type} (list : Snapshot → PageRequest → Except BusinessException (Page ι))
    (l : Listing ρ ι) (snap : ℕ → Snapshot) (size : ℕ) : Prop :=
  (∃ n beforeId page, Walk list snap size n beforeId page) ∧
    ∀ n beforeId page, Walk list snap size n beforeId page → l.Complete snap size n page

/-- What holds of a list that answers with the pages of a listing. -/
theorem walkable_of_lists {ρ ι : Type} {l : Listing ρ ι} {snap : ℕ → Snapshot} {size : ℕ}
    {list : Snapshot → PageRequest → Except BusinessException (Page ι)} {visible : Snapshot → Prop}
    (hlist : Lists list l visible) (hvisible : ∀ k, visible (snap k)) (hlow : 1 ≤ size)
    (hhigh : size ≤ 50) : Walkable list l snap size :=
  ⟨exists_walk hlist hvisible hlow hhigh, fun _ _ _ h => h.faithful hlist hvisible hlow hhigh⟩

/-- The first-level comments of a post. -/
def commentsOf (blogId : ℕ) : Listing BlogComments BlogCommentItem where
  table s := s.tables.comments
  matching := Snapshot.shownComment blogId
  item := toItem
  idOf := BlogCommentItem.id
  idOf_item _ _ := rfl
  positive s id hid := s.positive id (Or.inl hid)

/-- The direct replies to a comment. -/
def repliesOf (blogId commentId : ℕ) : Listing BlogComments BlogCommentItem where
  table s := s.tables.comments
  matching := Snapshot.shownReply blogId commentId
  item := toItem
  idOf := BlogCommentItem.id
  idOf_item _ _ := rfl
  positive s id hid := s.positive id (Or.inl hid)

/-- The audits of hidden comments of a post. -/
def hideAuditsOf (blogId : ℕ) : Listing (ℕ × BlogCommentHideAudit) BlogCommentHideAuditResponse where
  table s := s.commentAudits
  matching := fun row => decide (row.2.blogId = blogId)
  item := BlogCommentHideAuditResponse.ofRow
  idOf := BlogCommentHideAuditResponse.id
  idOf_item _ _ := rfl
  positive s id hid := s.positive id (Or.inr (Or.inl hid))

/-- The audits of hidden replies below a post. -/
def replyHideAuditsOf (blogId : ℕ) : Listing (ℕ × BlogReplyHideAudit) BlogReplyHideAuditResponse where
  table s := s.replyAudits
  matching := fun row => decide (row.2.blogId = blogId)
  item := BlogReplyHideAuditResponse.ofRow
  idOf := BlogReplyHideAuditResponse.id
  idOf_item _ _ := rfl
  positive s id hid := s.positive id (Or.inr (Or.inr hid))

/-- The request of a client that follows the pages passes validation. -/
theorem validated_follow {beforeId : Option ℕ} {size : ℕ} (hpositive : ∀ b ∈ beforeId, 0 < b)
    (hlow : 1 ≤ size) (hhigh : size ≤ 50) :
    PageRequest.validated (some ⟨beforeId.map (↑), some (size : ℕ)⟩) = some (beforeId, size) := by
  have hsize : (1 : ℤ) ≤ size ∧ (size : ℤ) ≤ 50 := by omega
  unfold PageRequest.validated
  cases beforeId with
  | none => simp [Option.filter, hsize]
  | some b =>
    have hb : 0 < b := hpositive b rfl
    simp [Option.filter, hsize, hb]

/-- The list of comments answers with pages of the first-level comments, where the post is shown. -/
theorem lists_comments {blogId : ℕ} (hid : 0 < blogId) :
    Lists (fun s request => listComments (some s) (some blogId) (some request)) (commentsOf blogId)
      fun s => s.findBlog blogId ≠ none := by
  intro s beforeId size hblog hpositive hlow hhigh
  obtain ⟨found, hfound⟩ := Option.ne_none_iff_exists'.mp hblog
  beta_reduce
  unfold listComments
  rw [positive_natCast hid, validated_follow hpositive hlow hhigh]
  simp only [getOr_some_bind, hfound]
  rfl

/-- The list of replies answers with pages of the replies, where root and post are shown. -/
theorem lists_replies {blogId commentId : ℕ} (hid : 0 < commentId) :
    Lists (fun s request => listReplies (some s) (some commentId) (some request))
      (repliesOf blogId commentId)
      fun s => s.findBlog blogId ≠ none ∧
        (s.tables.findVisibleRoot commentId).map (·.blogId) = some blogId := by
  rintro s beforeId size ⟨hblog, hroot⟩ hpositive hlow hhigh
  obtain ⟨found, hfound⟩ := Option.ne_none_iff_exists'.mp hblog
  obtain ⟨root, hfoundRoot, rfl⟩ := Option.map_eq_some_iff.mp hroot
  beta_reduce
  unfold listReplies
  rw [positive_natCast hid, validated_follow hpositive hlow hhigh]
  simp only [getOr_some_bind, hfoundRoot, hfound]
  rfl

/-- The list of audits answers with pages of the audits of comments. -/
theorem lists_hideAudits {blogId user : ℕ} (hid : 0 < blogId) (huser : 0 < user) :
    Lists (fun s request => listHideAudits (some s) (some blogId) (some request) (some user))
      (hideAuditsOf blogId) fun _ => True := by
  intro s beforeId size _ hpositive hlow hhigh
  beta_reduce
  unfold listHideAudits
  rw [positive_natCast hid, positive_natCast huser, validated_follow hpositive hlow hhigh]
  rfl

/-- The list of audits of replies answers with pages of those. -/
theorem lists_replyHideAudits {blogId user : ℕ} (hid : 0 < blogId) (huser : 0 < user) :
    Lists (fun s request => listReplyHideAudits (some s) (some blogId) (some request) (some user))
      (replyHideAuditsOf blogId) fun _ => True := by
  intro s beforeId size _ hpositive hlow hhigh
  beta_reduce
  unfold listReplyHideAudits
  rw [positive_natCast hid, positive_natCast huser, validated_follow hpositive hlow hhigh]
  rfl

/-- The four lists page by their ids, whatever commits between two pages, as long as the post stays visible,
and the comment whose replies are listed. -/
theorem keyset_pages {blogId commentId user size : ℕ} (hblog : 0 < blogId) (hcomment : 0 < commentId)
    (huser : 0 < user) (hlow : 1 ≤ size) (hhigh : size ≤ 50) (snap : ℕ → Snapshot) :
    ((∀ k, (snap k).findBlog blogId ≠ none) →
      Walkable (fun s request => listComments (some s) (some blogId) (some request))
        (commentsOf blogId) snap size) ∧
    ((∀ k, (snap k).findBlog blogId ≠ none ∧
        ((snap k).tables.findVisibleRoot commentId).map (·.blogId) = some blogId) →
      Walkable (fun s request => listReplies (some s) (some commentId) (some request))
        (repliesOf blogId commentId) snap size) ∧
    Walkable (fun s request => listHideAudits (some s) (some blogId) (some request) (some user))
      (hideAuditsOf blogId) snap size ∧
    Walkable (fun s request => listReplyHideAudits (some s) (some blogId) (some request) (some user))
      (replyHideAuditsOf blogId) snap size := by
  refine ⟨fun hvisible => ?_, fun hvisible => ?_, ?_, ?_⟩
  · exact walkable_of_lists (lists_comments hblog) hvisible hlow hhigh
  · exact walkable_of_lists (lists_replies hcomment) hvisible hlow hhigh
  · exact walkable_of_lists (lists_hideAudits hblog huser) (fun _ => trivial) hlow hhigh
  · exact walkable_of_lists (lists_replyHideAudits hblog huser) (fun _ => trivial) hlow hhigh

/-- The comments `5` to `8` of post `1`, of which `6` has this status, and three replies to comment `5`. -/
def commentRows (status : ℕ) : FiniteMap ℕ BlogComments :=
  ([(5, ⟨2, 1, 0, 0, [], none, some 0⟩), (6, ⟨3, 1, 0, 0, [], none, some status⟩),
    (7, ⟨2, 1, 0, 0, [], none, some 0⟩), (8, ⟨4, 1, 0, 0, [], none, some 0⟩),
    (9, ⟨3, 1, 5, 5, [], none, some 0⟩), (10, ⟨4, 1, 5, 5, [], none, some 0⟩),
    (11, ⟨3, 1, 5, 5, [], none, some 0⟩)] : List (ℕ × BlogComments)).foldl
    (fun rows row => rows.insert row.1 row.2) ∅

/-- One post with four comments. -/
def fourComments : Snapshot where
  tables :=
    { blogs := Finmap.singleton 1 ⟨none, 1, [], [], [], none, none, 0⟩
      comments := commentRows 0
      commentAudits := ∅
      replyAudits := ∅ }
  commentAudits := ∅
  replyAudits := ∅
  positive := by
    rintro id (hid | hid | hid)
    · have hall : ∀ id ∈ (commentRows 0).keys, 0 < id := by decide
      exact hall id hid
    · exact absurd hid (Finset.notMem_empty id)
    · exact absurd hid (Finset.notMem_empty id)
  commentAudited commentId audit := by simp
  replyAudited replyId audit := by simp

/-- The audit of the hide of comment `6`. -/
def sixAudit : BlogCommentHideAudit := ⟨1, 1, [], 0, 2⟩

/-- The same post after comment `6` is hidden. -/
def sixHidden : Snapshot where
  tables :=
    { blogs := Finmap.singleton 1 ⟨none, 1, [], [], [], none, none, 0⟩
      comments := commentRows 2
      commentAudits := Finmap.singleton 6 sixAudit
      replyAudits := ∅ }
  commentAudits := Finmap.singleton 1 (6, sixAudit)
  replyAudits := ∅
  positive := by
    rintro id (hid | hid | hid)
    · have hall : ∀ id ∈ (commentRows 2).keys, 0 < id := by decide
      exact hall id hid
    · obtain ⟨row, hrow⟩ := mem_keys_iff.mp hid
      have hone := (eq_of_lookup_singleton hrow).1
      omega
    · exact absurd hid (Finset.notMem_empty id)
  commentAudited commentId audit := by
    constructor
    · intro h
      obtain ⟨rfl, rfl⟩ := eq_of_lookup_singleton h
      exact ⟨1, Finmap.lookup_singleton_eq⟩
    · rintro ⟨id, h⟩
      obtain ⟨-, h⟩ := eq_of_lookup_singleton h
      rw [Prod.mk.injEq] at h
      rw [h.1, h.2, Finmap.lookup_singleton_eq]
  replyAudited replyId audit := by simp

/-- Comment `6` is hidden between the first page and the second. -/
def hiddenBetween : ℕ → Snapshot
  | 0 => fourComments
  | _ + 1 => sixHidden

/-- The post is shown at every page. -/
theorem visible_hiddenBetween (k : ℕ) : (hiddenBetween k).findBlog 1 ≠ none := by
  cases k with
  | zero => exact (by decide : fourComments.findBlog 1 ≠ none)
  | succ k => exact (by decide : sixHidden.findBlog 1 ≠ none)

/-- What the statement selects of ids that are listed from the highest down. -/
theorem idsBelow_toFinset {ids : List ℕ} (hsorted : ids.Pairwise (· > ·)) (beforeId : Option ℕ) (limit : ℕ) :
    idsBelow ids.toFinset beforeId limit = (ids.filter (below beforeId)).take limit := by
  have hsort : ids.toFinset.sort (· ≥ ·) = ids :=
    (List.toFinset_sort (· ≥ ·) (hsorted.imp ne_of_gt)).mpr (hsorted.imp le_of_lt)
  rw [idsBelow, hsort]

/-- Before the hide the first two comments are on the page, and there is more. -/
theorem page_fourComments : (commentsOf 1).pageIds fourComments none 2 = [8, 7] ∧
    ((commentsOf 1).page fourComments none 2).hasNext = true := by
  have hids : (commentsOf 1).ids fourComments = [8, 7, 6, 5].toFinset := by decide
  constructor
  · rw [Listing.pageIds, hids, idsBelow_toFinset (by decide)]
    decide
  · rw [Listing.hasNext_page, hids, idsBelow_toFinset (by decide)]
    decide

/-- After it only comment `5` is left below comment `7`. -/
theorem page_sixHidden : (commentsOf 1).pageIds sixHidden (some 7) 2 = [5] ∧
    ((commentsOf 1).page sixHidden (some 7) 2).hasNext = false := by
  have hids : (commentsOf 1).ids sixHidden = [8, 7, 5].toFinset := by decide
  constructor
  · rw [Listing.pageIds, hids, idsBelow_toFinset (by decide)]
    decide
  · rw [← Bool.not_eq_true, Listing.hasNext_page, hids, idsBelow_toFinset (by decide)]
    decide

/-- The walk of the comments in pages of two. -/
theorem walk_hiddenBetween :
    Walk (fun s request => listComments (some s) (some (1 : ℕ)) (some request)) hiddenBetween 2 1
      (fun k => if k = 0 then none else some 7)
      (fun k => (commentsOf 1).page (hiddenBetween k) (if k = 0 then none else some 7) 2) where
  start := rfl
  answered := by
    intro k _
    refine lists_comments Nat.one_pos _ _ 2 (visible_hiddenBetween k) ?_ (by decide) (by decide)
    cases k with
    | zero => nofun
    | succ k =>
      rintro b ⟨⟩
      decide
  follows := by
    intro k hk
    obtain rfl := Nat.lt_one_iff.mp hk
    obtain ⟨hids, hnext⟩ := page_fourComments
    refine ⟨hnext, (Listing.nextBeforeId_page hnext).trans ?_⟩
    rw [hids]
    rfl
  ends := page_sixHidden.2

/-- Two comments a page: the first page shows the comments `8` and `7`, the second, after the hide, comment `5`
alone. The replies to comment `5` are walked in pages of two as well. -/
theorem keyset_pages_hideBetween :
    (∃ page, Walk (fun s request => listComments (some s) (some (1 : ℕ)) (some request)) hiddenBetween 2 1
        (fun k => if k = 0 then none else some 7) page ∧
      (page 0).items.map BlogCommentItem.id = ["8", "7"] ∧
      (page 1).items.map BlogCommentItem.id = ["5"] ∧
      (commentsOf 1).Complete hiddenBetween 2 1 page) ∧
    Walkable (fun s request => listReplies (some s) (some (5 : ℕ)) (some request)) (repliesOf 1 5)
      hiddenBetween 2 := by
  have h := @keyset_pages 1 5 1 2 (by decide) (by decide) (by decide) (by decide) (by decide) hiddenBetween
  have hroot : ∀ k, ((hiddenBetween k).tables.findVisibleRoot 5).map (·.blogId) = some 1 := by
    rintro (_ | k)
    · exact (by decide : (fourComments.tables.findVisibleRoot 5).map (·.blogId) = some 1)
    · exact (by decide : (sixHidden.tables.findVisibleRoot 5).map (·.blogId) = some 1)
  refine ⟨⟨_, walk_hiddenBetween, ?_, ?_, (h.1 visible_hiddenBetween).2 _ _ _ walk_hiddenBetween⟩,
    h.2.1 fun k => ⟨visible_hiddenBetween k, hroot k⟩⟩
  · have hnamed : ((commentsOf 1).page fourComments none 2).items.map (commentsOf 1).idOf = _ :=
      Listing.map_idOf_items
    rw [page_fourComments.1] at hnamed
    exact hnamed.trans (by decide)
  · have hnamed : ((commentsOf 1).page sixHidden (some 7) 2).items.map (commentsOf 1).idOf = _ :=
      Listing.map_idOf_items
    rw [page_sixHidden.1] at hnamed
    exact hnamed.trans (by decide)

end CampusHub.Content
