import CampusHub.Content.Writers

/-!
# What each writer does alone

* `Tables.countIn`, `Tables.countOut` — a new comment, and a comment that is shown no more, each with the
  counter of its post.
* `Call.region` — the post that a call works on.
* `Effect` — all that a call can do to the tables; `effect_of_alone` says so of the programs.

`effect_of_alone` is the specification of all nine writers at once: when a call that runs alone succeeds,
the tables change by one of the effects of its call, which carries what the program has checked on the way.
A comment is added and counted, is shown no more and counted out, with an audit or without; a post is
changed in one of three ways; or nothing changes. All later statements about the writers go by these cases.

**Proof route.** A program that succeeds is read statement by statement, each of which answered what the
next step needs (`acts_orRefuse_ok`, `acts_ite_ok`). A row that was found before the lock is the row that is
locked, since nobody comes between (`eq_of_lockComment`).

**Left out.** Calls that fail: they change nothing, by `acts_error`.
-/

namespace CampusHub.Content

open CampusHub.Domain CampusHub.Foundations.Maps CampusHub.Foundations.Transactions

namespace Tables

/-- The comment is new, and its post counts it. -/
def countIn (t : Tables) (id : ℕ) (row : BlogComments) (blog : Blog) : Tables :=
  { t with
    comments := t.comments.insert id row
    blogs := t.blogs.insert row.blogId { blog with comments := some (blog.comments.getD 0 + 1) } }

/-- The comment is shown no more, and its post does not count it. -/
def countOut (t : Tables) (id : ℕ) (row : BlogComments) (blog : Blog) (status : ℕ) : Tables :=
  { t with
    comments := t.comments.insert id { row with status := some status }
    blogs := t.blogs.insert row.blogId { blog with comments := some (decremented blog.comments) } }

end Tables

namespace Tables

variable {t : Tables}

/-- A comment of a post is a row that belongs to it. -/
theorem commentOf_eq_some {blogId id : ℕ} {row : BlogComments} :
    t.commentOf blogId id = some row ↔ t.comments.lookup id = some row ∧ row.blogId = blogId := by
  simp [commentOf, Option.filter_eq_some_iff]

/-- A post that was locked as visible is there and shown. -/
theorem exists_of_lockVisibleBlog {blogId n : ℕ} (h : (t.lockVisibleBlog blogId).value = some n) :
    ∃ blog, t.blogs.lookup blogId = some blog ∧ blog.withdrawn = 0 := by
  simp only [lockVisibleBlog, lockBlogWhere, Option.map_eq_some_iff, Option.filter_eq_some_iff,
    decide_eq_true_eq] at h
  obtain ⟨blog, ⟨hblog, hvisible⟩, -⟩ := h
  exact ⟨blog, hblog, hvisible⟩

/-- An update that touches a row. -/
theorem exists_of_updateBlog {id : ℕ} {p : Blog → Bool} {f : Blog → Blog}
    (h : (t.updateBlog id p f).value = 1) : ∃ row, t.blogs.lookup id = some row ∧ p row = true ∧
      (t.updateBlog id p f).write = fun s => { s with blogs := s.blogs.insert id (f row) } := by
  unfold updateBlog at h ⊢
  split at h
  · rename_i row hrow
    simp only [Option.filter_eq_some_iff] at hrow
    exact ⟨row, hrow.1, hrow.2, rfl⟩
  · cases h

/-- A write to a status touched a row: it was shown and met the condition. -/
theorem exists_of_updateStatus {id blogId status : ℕ} {p : BlogComments → Bool}
    (h : (t.updateStatus id blogId p status).value = 1) :
    ∃ row, t.comments.lookup id = some row ∧ row.blogId = blogId ∧ p row = true ∧
      row.status = some 0 ∧ (t.updateStatus id blogId p status).write =
        fun s => { s with comments := s.comments.insert id { row with status := some status } } := by
  unfold updateStatus at h ⊢
  split at h
  · rename_i row hrow
    simp only [Option.filter_eq_some_iff, commentOf_eq_some, Bool.and_eq_true,
      decide_eq_true_eq] at hrow
    obtain ⟨⟨hrow, hblog⟩, hp, hstatus⟩ := hrow
    exact ⟨row, hrow, hblog, hp, hstatus, rfl⟩
  · cases h

/-- A counter that went up is that of a post that is shown. -/
theorem exists_of_incrementCommentCount {blogId : ℕ}
    (h : (t.incrementCommentCount blogId).value = some 1) :
    ∃ row, t.blogs.lookup blogId = some row ∧ row.withdrawn = 0 ∧
      (t.incrementCommentCount blogId).write = fun s => { s with
        blogs := s.blogs.insert blogId { row with comments := some (row.comments.getD 0 + 1) } } := by
  unfold incrementCommentCount at h ⊢
  split at h
  · rename_i row hrow
    simp only [Option.filter_eq_some_iff, decide_eq_true_eq] at hrow
    unfold bump at h ⊢
    split at h
    · rename_i n hn
      split at hn
      · obtain rfl := Option.some.inj hn
        exact ⟨row, hrow.1, hrow.2, rfl⟩
      · cases hn
    · cases h
  · cases h

/-- An audit that was inserted is the first of its comment. -/
theorem exists_of_insertFirstLevelHideAudit {commentId blogId operator n : ℕ} {reason : Text}
    (h : (t.insertFirstLevelHideAudit commentId blogId operator reason).value = some n) :
    t.commentAudits.lookup commentId = none ∧
      (t.insertFirstLevelHideAudit commentId blogId operator reason).write = fun s => { s with
        commentAudits := s.commentAudits.insert commentId ⟨blogId, operator, reason, 0, 2⟩ } := by
  unfold insertFirstLevelHideAudit at h ⊢
  split at h
  · cases h
  · rename_i hnone
    rw [if_neg hnone]
    exact ⟨Option.not_isSome_iff_eq_none.mp hnone, rfl⟩

/-- An audit that was inserted is the first of its reply. -/
theorem exists_of_insertDirectReplyHideAudit {replyId blogId rootId operator n : ℕ} {reason : Text}
    (h : (t.insertDirectReplyHideAudit replyId blogId rootId operator reason).value = some n) :
    t.replyAudits.lookup replyId = none ∧
      (t.insertDirectReplyHideAudit replyId blogId rootId operator reason).write = fun s => { s with
        replyAudits := s.replyAudits.insert replyId ⟨blogId, rootId, operator, reason, 0, 2⟩ } := by
  unfold insertDirectReplyHideAudit at h ⊢
  split at h
  · cases h
  · rename_i hnone
    rw [if_neg hnone]
    exact ⟨Option.not_isSome_iff_eq_none.mp hnone, rfl⟩

end Tables

/-- The post that a call works on: the one it names, or that of the comment it names. -/
def Call.region (c : Call) (t : Tables) : Option ℕ :=
  let ofComment (id : Option ℤ) := (positive id).bind fun id => (t.comments.lookup id).map (·.blogId)
  match c with
  | createComment request _ _ => (BlogCommentCreateRequest.validated request).map (·.1)
  | createReply commentId _ _ _ => ofComment commentId
  | withdrawReply replyId _ => ofComment replyId
  | withdrawComment commentId _ => ofComment commentId
  | hideComment commentId _ _ => ofComment commentId
  | hideReply replyId _ _ => ofComment replyId
  | withdrawBlog id _ => positive id
  | editBlog id _ _ => positive id
  | likeBlog id _ _ => positive id

/-- The call that withdraws a comment or a reply. -/
def Level.withdrawal : Level → Option ℤ → Option ℤ → Call
  | .directReply => .withdrawReply
  | .firstLevel => .withdrawComment

/-- **What a call can do** to the tables. -/
inductive Effect (c : Call) (t : Tables) : Tables → Prop where
  | none : Effect c t t
  /-- A comment or reply comes to a post that is shown, a reply under a root that is shown. -/
  | add {id : ℕ} {row : BlogComments} {blog : Blog}
      (hid : c.generated = some id) (hregion : c.region t = some row.blogId)
      (hblog : t.blogs.lookup row.blogId = some blog) (hvisible : blog.withdrawn = 0)
      (hstatus : row.status = some 0)
      (hparent : Level.firstLevel.fits row = true ∨ ∃ root, row.answerId = row.parentId ∧
        0 < row.parentId ∧ t.findVisibleRoot row.parentId = some root ∧ root.blogId = row.blogId) :
      Effect c t (t.countIn id row blog)
  /-- The author of a comment withdraws it. -/
  | withdraw {id userId : ℕ} {level : Level} {row : BlogComments} {blog : Blog} (hid : 0 < id)
      (huser : 0 < userId) (hcall : c = level.withdrawal (some id) (some userId))
      (hrow : t.findOwned level id userId = some row) (hstatus : row.status = some 0)
      (hblog : t.blogs.lookup row.blogId = some blog) :
      Effect c t (t.countOut id row blog 3)
  /-- An administrator hides a comment that has no audit. -/
  | hideComment {id operator : ℕ} {request : Option BlogCommentHideRequest} {reason : Text}
      {row : BlogComments} {blog : Blog} (hid : 0 < id)
      (hcall : c = .hideComment (some id) request (some operator))
      (hreason : BlogCommentHideRequest.validated request = some reason)
      (hrow : t.findModeratableFirstLevelComment id = some row) (hstatus : row.status = some 0)
      (hblog : t.blogs.lookup row.blogId = some blog) (haudit : t.commentAudits.lookup id = none) :
      Effect c t { t.countOut id row blog 2 with
        commentAudits := t.commentAudits.insert id ⟨row.blogId, operator, reason, 0, 2⟩ }
  /-- An administrator hides a reply that has no audit. -/
  | hideReply {id operator : ℕ} {request : Option BlogCommentHideRequest} {reason : Text}
      {row : BlogComments} {blog : Blog} (hid : 0 < id)
      (hcall : c = .hideReply (some id) request (some operator))
      (hreason : BlogCommentHideRequest.validated request = some reason)
      (hrow : t.findModeratableDirectReply id = some row) (hstatus : row.status = some 0)
      (hblog : t.blogs.lookup row.blogId = some blog)
      (hroot : ∃ root, t.comments.lookup row.parentId = some root ∧ root.blogId = row.blogId ∧
        Level.firstLevel.fits root = true) (haudit : t.replyAudits.lookup id = none) :
      Effect c t { t.countOut id row blog 2 with
        replyAudits := t.replyAudits.insert id ⟨row.blogId, row.parentId, operator, reason, 0, 2⟩ }
  /-- A post that is shown is withdrawn, edited or liked. -/
  | blog {id : ℕ} {blog blog' : Blog} (hregion : c.region t = some id)
      (hblog : t.blogs.lookup id = some blog) (hvisible : blog.withdrawn = 0)
      (hkept : blog'.userId = blog.userId ∧ blog'.shopId = blog.shopId ∧
        blog'.comments = blog.comments) :
      Effect c t { t with blogs := t.blogs.insert id blog' }

/-! ## The writers of comments -/

section comments

variable {t t' : Tables} {a : Option BlogCommentItem}

/-- A program that succeeds, read statement by statement. -/
theorem effect_addComment {id : ℕ} {comment : BlogComments}
    (h : (addComment id comment).Alone t (.ok a) t') :
    ∃ blog, t.blogs.lookup comment.blogId = some blog ∧ blog.withdrawn = 0 ∧
      t' = t.countIn id comment blog := by
  simp only [addComment, Txn.Alone, acts_orRefuse_ok, acts_ite_ok, one_on_bind, oneOrFail_on_bind,
    Txn.acts_exec, Txn.read_bind, Txn.acts_select, Txn.pure_eq, Txn.acts_ok] at h
  obtain ⟨-, n, hn, rfl, stored, -, -, ht'⟩ := h
  obtain ⟨blog, hblog, hvisible, hwrite⟩ := Tables.exists_of_incrementCommentCount hn
  rw [hwrite] at ht'
  exact ⟨blog, hblog, hvisible, ht'⟩

/-- A row that was found is the one that is locked afterwards, if nobody comes between. -/
theorem eq_of_lockComment {id blogId : ℕ} {p : BlogComments → Bool} {row current : BlogComments}
    (hrow : t.comments.lookup id = some row) (h : (t.lockComment id blogId p).value = some current) :
    current = row ∧ p row = true := by
  simp only [Tables.lockComment, Option.filter_eq_some_iff, Tables.commentOf_eq_some, hrow,
    Option.some.injEq] at h
  obtain ⟨⟨rfl, -⟩, hp⟩ := h
  exact ⟨rfl, hp⟩

/-- The status of a row that is not the one the caller wants is `0`. -/
theorem status_eq_zero {row : BlogComments} {n : ℕ} (h : row.status = some 0 ∨ row.status = some n)
    (hn : row.status ≠ some n) : row.status = some 0 :=
  h.resolve_right hn

/-- What a user finds of his own: it is shown or withdrawn. -/
theorem exists_of_findOwned {level : Level} {id userId : ℕ} {row : BlogComments}
    (h : t.findOwned level id userId = some row) :
    t.comments.lookup id = some row ∧ row.userId = userId ∧ level.fits row = true ∧
      (row.status = some 0 ∨ row.status = some 3) := by
  simp only [Tables.findOwned, Option.filter_eq_some_iff, Bool.and_eq_true, decide_eq_true_eq] at h
  exact ⟨h.1, h.2.1.1, h.2.1.2, h.2.2⟩

/-- What a moderator finds: it is shown or hidden. -/
theorem exists_of_findModeratable {level : Level} {id : ℕ} {row : BlogComments}
    (h : t.findModeratable level id = some row) :
    t.comments.lookup id = some row ∧ level.fits row = true ∧
      (row.status = some 0 ∨ row.status = some 2) := by
  simp only [Tables.findModeratable, Option.filter_eq_some_iff, Bool.and_eq_true,
    decide_eq_true_eq] at h
  exact ⟨h.1, h.2.1, h.2.2⟩

/-- A root that is found is a first-level comment that is shown. -/
theorem exists_of_findVisibleRoot {id : ℕ} {row : BlogComments} (h : t.findVisibleRoot id = some row) :
    t.comments.lookup id = some row ∧ Level.firstLevel.fits row = true ∧ row.status = some 0 := by
  simp only [Tables.findVisibleRoot, Option.filter_eq_some_iff, Bool.and_eq_true,
    decide_eq_true_eq] at h
  exact ⟨h.1, h.2.1, h.2.2⟩

/-- Creating a comment adds it to its post and counts it. -/
theorem effect_createComment {request : Option BlogCommentCreateRequest} {user : Option ℤ} {id : ℕ}
    (h : (createComment request user id).Alone t (.ok a) t') :
    Effect (.createComment request user id) t t' := by
  simp only [createComment, Txn.Alone, acts_orRefuse_ok, found_on_bind, Txn.acts_exec] at h
  obtain ⟨valid, hvalid, userId, -, -, -, hadd⟩ := h
  obtain ⟨blog, hblog, hvisible, rfl⟩ := effect_addComment hadd
  exact .add rfl (by simp [Call.region, hvalid]) hblog hvisible rfl (.inl rfl)

/-- Creating a reply adds it to the post of its root and counts it. -/
theorem effect_createReply {commentId : Option ℤ} {request : Option BlogCommentReplyRequest}
    {user : Option ℤ} {id : ℕ} (h : (createReply commentId request user id).Alone t (.ok a) t') :
    Effect (.createReply commentId request user id) t t' := by
  simp only [createReply, Txn.Alone, acts_orRefuse_ok, found_read_bind, found_on_bind,
    Txn.acts_select, Txn.acts_exec] at h
  obtain ⟨rootId, hrootId, content, -, userId, -, root, hroot, -, -, -, -, hadd⟩ := h
  obtain ⟨blog, hblog, hvisible, rfl⟩ := effect_addComment hadd
  have hlookup := (exists_of_findVisibleRoot hroot).1
  refine .add rfl ?_ hblog hvisible rfl (.inr ⟨root, rfl, (exists_of_positive hrootId).1, hroot, rfl⟩)
  simp only [id_eq] at hlookup
  simp [Call.region, hrootId, hlookup]

/-- Both writes that take a comment off its post. -/
theorem countOut_of {id blogId status : ℕ} {p : BlogComments → Bool} {row : BlogComments}
    (hrow : t.comments.lookup id = some row)
    (hstatus : (t.updateStatus id blogId p status).value = 1)
    (hcount : (Tables.decrementCommentCount ((t.updateStatus id blogId p status).write t) blogId).value = 1) :
    row.blogId = blogId ∧ ∃ blog, t.blogs.lookup row.blogId = some blog ∧
      (Tables.decrementCommentCount ((t.updateStatus id blogId p status).write t) blogId).write
        ((t.updateStatus id blogId p status).write t) = t.countOut id row blog status := by
  obtain ⟨row', hrow', rfl, -, -, hwrite⟩ := Tables.exists_of_updateStatus hstatus
  obtain rfl := Option.some.inj (hrow.symm.trans hrow')
  obtain ⟨blog, hblog, -, hwrite'⟩ := Tables.exists_of_updateBlog hcount
  rw [hwrite] at hblog
  refine ⟨rfl, blog, hblog, ?_⟩
  rw [Tables.decrementCommentCount, hwrite', hwrite]
  rfl

/-- Withdrawing a comment or a reply. -/
theorem effect_withdrawOwned (level : Level) {id user : Option ℤ}
    (h : (withdrawOwned level id user).Alone t (.ok a) t') : Effect (level.withdrawal id user) t t' := by
  simp only [withdrawOwned, Txn.Alone, acts_orRefuse_ok, found_read_bind, found_on_bind,
    Txn.acts_select, Txn.acts_exec, id_eq, Function.comp_apply] at h
  obtain ⟨commentId, hid, userId, huser, row, hrow, -, -, current, hcurrent, h⟩ := h
  obtain ⟨hlookup, -, -, hstatus⟩ := exists_of_findOwned hrow
  obtain ⟨rfl, -⟩ := eq_of_lockComment hlookup hcurrent
  rw [(exists_of_positive hid).2, (exists_of_positive huser).2]
  split at h
  · rw [h.2]
    exact .none
  · rename_i hopen
    simp only [one_on_bind, Txn.acts_exec, acts_ite_ok, Txn.pure_eq, Txn.acts_ok] at h
    obtain ⟨hwithdraw, hdecrement, -, rfl⟩ := h
    obtain ⟨-, blog, hblog, hout⟩ := countOut_of hlookup hwithdraw hdecrement
    have heffect := Effect.withdraw (t := t) (exists_of_positive hid).1 (exists_of_positive huser).1
      rfl hrow (status_eq_zero hstatus hopen) hblog
    rw [← hout] at heffect
    exact heffect

/-- The end of both hides: either the row is hidden and nothing changes, or it is shown and all three
writes succeed. -/
theorem exists_of_hideLocked {β : Type} {id blogId : ℕ} {p : BlogComments → Bool} {auditRow : Row}
    {row : BlogComments} {audit : Tables → Answer Tables (Option β)}
    {insertAudit : Tables → Answer Tables (Option ℕ)} (hrow : t.comments.lookup id = some row)
    (haudit : ∀ s u, (audit s).write u = u)
    (h : (hideLocked blogId row (.on auditRow audit)
      (.on (.comment id) fun t => t.updateStatus id blogId p 2)
      (.on auditRow insertAudit)).Alone t (.ok a) t') :
    row.status = some 2 ∧ t' = t ∨ row.status ≠ some 2 ∧ row.blogId = blogId ∧
      ∃ blog, t.blogs.lookup row.blogId = some blog ∧ (insertAudit (t.countOut id row blog 2)).value = some 1 ∧
        t' = (insertAudit (t.countOut id row blog 2)).write (t.countOut id row blog 2) := by
  unfold hideLocked Txn.Alone at h
  split at h
  · rename_i hhidden
    simp only [found_on_bind, Txn.acts_exec, acts_orRefuse_ok, Txn.pure_eq, Txn.acts_ok] at h
    obtain ⟨-, -, -, ht'⟩ := h
    exact .inl ⟨hhidden, ht'.trans (haudit _ _)⟩
  · rename_i hopen
    simp only [one_on_bind, oneOrFail_on_bind, Txn.acts_exec, acts_ite_ok, acts_orRefuse_ok,
      Txn.pure_eq, Txn.acts_ok] at h
    obtain ⟨hhide, hdecrement, n, hn, rfl, -, ht'⟩ := h
    obtain ⟨hblogId, blog, hblog, hout⟩ := countOut_of hrow hhide hdecrement
    refine .inr ⟨hopen, hblogId, blog, hblog, ?_, ?_⟩
    · rw [← hout]
      exact hn
    · rw [ht', ← hout]
      rfl

/-- Hiding a comment counts it out with an audit, or changes nothing when it is hidden. -/
theorem effect_hideComment {commentId : Option ℤ} {request : Option BlogCommentHideRequest}
    {user : Option ℤ} (h : (hideComment commentId request user).Alone t (.ok a) t') :
    Effect (.hideComment commentId request user) t t' := by
  simp only [hideComment, Txn.Alone, acts_orRefuse_ok, found_read_bind, found_on_bind,
    Txn.acts_select, Txn.acts_exec, id_eq, Function.comp_apply] at h
  obtain ⟨id, hid, reason, hreason, operator, hoperator, row, hrow, -, -, current, hcurrent, h⟩ := h
  obtain ⟨hlookup, -, hstatus⟩ := exists_of_findModeratable hrow
  obtain ⟨rfl, -⟩ := eq_of_lockComment hlookup hcurrent
  rw [(exists_of_positive hid).2, (exists_of_positive hoperator).2]
  rcases exists_of_hideLocked hlookup (fun s u => rfl) h with
    ⟨-, rfl⟩ | ⟨hopen, -, blog, hblog, haudit, rfl⟩
  · exact .none
  · obtain ⟨hnone, hwrite⟩ := Tables.exists_of_insertFirstLevelHideAudit haudit
    rw [hwrite]
    exact .hideComment (exists_of_positive hid).1 rfl hreason hrow (status_eq_zero hstatus hopen) hblog hnone

/-- Hiding a reply counts it out with an audit, or changes nothing when it is hidden. -/
theorem effect_hideReply {replyId : Option ℤ} {request : Option BlogCommentHideRequest}
    {user : Option ℤ} (h : (hideReply replyId request user).Alone t (.ok a) t') :
    Effect (.hideReply replyId request user) t t' := by
  simp only [hideReply, Txn.Alone, acts_orRefuse_ok, found_read_bind, found_on_bind,
    Txn.acts_select, Txn.acts_exec, id_eq, Function.comp_apply] at h
  obtain ⟨id, hid, reason, hreason, operator, hoperator, row, hrow, -, -, n, hn, current, hcurrent,
    h⟩ := h
  obtain ⟨hlookup, -, hstatus⟩ := exists_of_findModeratable hrow
  have hroot : ∃ root, t.comments.lookup row.parentId = some root ∧ root.blogId = row.blogId ∧
      Level.firstLevel.fits root = true := by
    simp only [Tables.lockDirectReplyRoot, Option.map_eq_some_iff, Option.filter_eq_some_iff,
      Tables.commentOf_eq_some] at hn
    obtain ⟨root, ⟨⟨hroot, hblog⟩, hfits⟩, -⟩ := hn
    exact ⟨root, hroot, hblog, hfits⟩
  obtain ⟨rfl, -⟩ := eq_of_lockComment hlookup hcurrent
  rw [(exists_of_positive hid).2, (exists_of_positive hoperator).2]
  rcases exists_of_hideLocked hlookup (fun s u => rfl) h with
    ⟨-, rfl⟩ | ⟨hopen, -, blog, hblog, haudit, rfl⟩
  · exact .none
  · obtain ⟨hnone, hwrite⟩ := Tables.exists_of_insertDirectReplyHideAudit haudit
    rw [hwrite]
    exact .hideReply (exists_of_positive hid).1 rfl hreason hrow (status_eq_zero hstatus hopen) hblog
      hroot hnone

end comments

/-! ## The writers of posts -/

section posts

variable {t t' : Tables} {a : Option BlogCommentItem} {id user : Option ℤ}

/-- An update of a post that is shown. -/
theorem effect_updateBlog {c : Call} {blogId : ℕ} {p : Blog → Bool} {f : Blog → Blog}
    (hregion : c.region t = some blogId) (hp : ∀ b, p b = true → b.withdrawn = 0)
    (hf : ∀ b, (f b).userId = b.userId ∧ (f b).shopId = b.shopId ∧ (f b).comments = b.comments) :
    Effect c t ((t.updateBlog blogId p f).write t) := by
  unfold Tables.updateBlog
  split
  · rename_i blog hblog
    simp only [Option.filter_eq_some_iff] at hblog
    exact .blog hregion hblog.1 (hp blog hblog.2) (hf blog)
  · exact .none

/-- Withdrawing a post withdraws it, or changes nothing when it is withdrawn. -/
theorem effect_withdrawBlog (h : (withdrawBlog id user).Alone t (.ok a) t') :
    Effect (.withdrawBlog id user) t t' := by
  simp only [withdrawBlog, Txn.Alone, acts_orRefuse_ok, found_on_bind, Txn.acts_exec, id_eq] at h
  obtain ⟨blogId, hid, userId, -, stored, hstored, h⟩ := h
  split at h
  · cases h.1
  split at h
  · rw [h.2]
    exact .none
  · simp only [one_on_bind, Txn.acts_exec, acts_ite_ok, Txn.pure_eq, Txn.acts_ok] at h
    obtain ⟨-, -, rfl⟩ := h
    exact effect_updateBlog hid (fun b hb => (of_decide_eq_true hb).2) fun b => ⟨rfl, rfl, rfl⟩

/-- Editing a post writes the fields of the request into a post that is shown. -/
theorem effect_editBlog {request : Option BlogEditRequest}
    (h : (editBlog id request user).Alone t (.ok a) t') : Effect (.editBlog id request user) t t' := by
  simp only [editBlog, Txn.Alone, acts_orRefuse_ok, found_on_bind, Txn.acts_exec, id_eq] at h
  obtain ⟨blogId, hid, edit, -, userId, -, stored, hstored, h⟩ := h
  split at h
  · cases h.1
  split at h
  · cases h.1
  split at h
  · rw [h.2]
    exact .none
  · simp only [one_on_bind, Txn.acts_exec, acts_ite_ok, Txn.pure_eq, Txn.acts_ok] at h
    obtain ⟨-, -, rfl⟩ := h
    exact effect_updateBlog hid (fun b hb => (of_decide_eq_true hb).2) fun b => ⟨rfl, rfl, rfl⟩

/-- The counter of likes of a post that is shown. -/
theorem effect_incrementLiked {c : Call} {blogId : ℕ} (hregion : c.region t = some blogId) :
    Effect c t ((t.incrementLiked blogId).write t) := by
  unfold Tables.incrementLiked
  split
  · rename_i blog hblog
    simp only [Option.filter_eq_some_iff, decide_eq_true_eq] at hblog
    split
    · exact .none
    · exact .none
    · exact .blog hregion hblog.1 hblog.2 ⟨rfl, rfl, rfl⟩
  · exact .none

/-- Liking a post writes its counter, if anything. -/
theorem effect_likeBlog {now : ℕ} (h : (likeBlog id user now).Alone t (.ok a) t') :
    Effect (.likeBlog id user now) t t' := by
  simp only [likeBlog, Txn.Alone, acts_orRefuse_ok, found_on_bind, Txn.acts_exec, id_eq] at h
  obtain ⟨blogId, hid, blog, -, h⟩ := h
  cases user with
  | none => cases h.1
  | some userId =>
    simp only [Txn.command_bind, Txn.acts_send] at h
    obtain ⟨score, h⟩ := h
    -- whatever Redis answers last, the tables are those that the update left
    split at h
    · rw [like_bind, Txn.acts_exec] at h
      split at h
      · cases h.1
      · have ht' : t' = (t.incrementLiked blogId).write t := by
          split at h
          · obtain ⟨-, -, ht'⟩ := h
            exact ht'
          · exact h.2
        rw [ht']
        exact effect_incrementLiked hid
    · rw [unlike_bind, Txn.acts_exec] at h
      have ht' : t' = (t.decrementLiked blogId).write t := by
        split at h
        · obtain ⟨-, -, ht'⟩ := h
          exact ht'
        · exact h.2
      rw [ht']
      exact effect_updateBlog hid (fun b hb => (of_decide_eq_true hb).1) fun b => ⟨rfl, rfl, rfl⟩

end posts

/-- **What a program does alone** is one of the effects of its call. -/
theorem effect_of_alone {c : Call} {t t' : Tables} {r : Except Failure (Option BlogCommentItem)}
    (h : c.program.Alone t r t') : Effect c t t' := by
  cases r with
  | error e =>
    rw [Txn.acts_error h]
    exact .none
  | ok a =>
    cases c with
    | createComment => exact effect_createComment h
    | createReply => exact effect_createReply h
    | withdrawReply => exact effect_withdrawOwned .directReply h
    | withdrawComment => exact effect_withdrawOwned .firstLevel h
    | hideComment => exact effect_hideComment h
    | hideReply => exact effect_hideReply h
    | withdrawBlog => exact effect_withdrawBlog h
    | editBlog => exact effect_editBlog h
    | likeBlog => exact effect_likeBlog h

end CampusHub.Content
