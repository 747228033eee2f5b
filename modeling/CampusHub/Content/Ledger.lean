import CampusHub.Content.Interleavings

/-!
# The counter of comments and the audits

* `Tables.shown`, `Counted` — the comments of a post that are shown, and that every post counts them.
* `Booked` — what the audit tables hold of a comment.
* `Shift` — the calls that move the status of a comment, and where to.
* `comment_ledger` — what holds of counters, statuses and audits after any run.

A comment that was hidden before there were audits keeps its status and never gets one.

**Theorem** (`comment_ledger`). From tables whose posts count their comments and which hold no audits, after
every interleaving of the nine writers: posts count their comments and no counter is lowered at zero; a
status moves at most once; a comment that was not hidden from the start is hidden exactly if it has its one
audit; an audit names the operator and the reason of the call that hid its comment; and whoever may withdraw
or hide a comment that was moved can do it again, which changes nothing.

**Proof route.** Every statement is about one call first: `counted_effect`, `shift_of_effect` and
`audited_effect` go by the effects of `Content.Effects`. A run commits its calls one at a time, so
`Sound.tables_invariant` carries the counters and the books along, and `exists_of_moved` finds the commit
that moved a status. The repeated calls are programs that run alone to their end (`acts_given`,
`acts_found_read`, `acts_found_on`).

**Left out.** The comments that were hidden before there were audits: nothing is said of who hid them.
-/

namespace CampusHub.Content

open CampusHub.Domain CampusHub.Foundations CampusHub.Foundations.Maps
  CampusHub.Foundations.Transactions

/-! ## The counter -/

/-- The comments and replies of a post that are shown. -/
def Tables.shown (t : Tables) (b : ℕ) : ℕ :=
  (selected (fun _ row => row.blogId = b ∧ row.status = some 0) t.comments).card

/-- Every post counts the comments and replies that are shown. -/
def Counted (t : Tables) : Prop :=
  ∀ b blog, t.blogs.lookup b = some blog → blog.comments = some (t.shown b)

section counter

variable {t : Tables} {id status : ℕ} {row : BlogComments} {blog : Blog}

/-- A new comment is one more of its post, and none of another one. -/
theorem shown_countIn (hnew : t.comments.lookup id = none) (hstatus : row.status = some 0) (b : ℕ) :
    (t.countIn id row blog).shown b = if b = row.blogId then t.shown b + 1 else t.shown b := by
  have hgone : ∀ p : BlogComments → Prop, ∀ w, t.comments.lookup id = some w → ¬ p w := by
    intro p w hw
    rw [hnew] at hw
    cases hw
  split
  · rename_i hb
    exact card_selected_insert_of_gained (hgone _) ⟨hb.symm, hstatus⟩
  · rename_i hb
    exact congrArg Finset.card (selected_insert_of_not (hgone _) fun h => hb h.1.symm)

/-- A comment that was shown and is not any more is one less. -/
theorem shown_countOut (hrow : t.comments.lookup id = some row) (hopen : row.status = some 0)
    (hstatus : status ≠ 0) (b : ℕ) :
    (t.countOut id row blog status).shown b + (if b = row.blogId then 1 else 0) = t.shown b := by
  have hmoved : ¬ (row.blogId = b ∧ some status = some 0) := fun h => hstatus (Option.some.inj h.2)
  split
  · rename_i hb
    exact card_selected_insert_of_lost hrow ⟨hb.symm, hopen⟩ hmoved
  · rename_i hb
    refine congrArg Finset.card (selected_insert_of_not (fun w hw h => hb ?_) hmoved)
    rw [hrow] at hw
    rw [Option.some.inj hw, h.1]

/-- The counter goes up with a new comment. -/
theorem counted_countIn (h : Counted t) (hnew : t.comments.lookup id = none)
    (hstatus : row.status = some 0) (hblog : t.blogs.lookup row.blogId = some blog) :
    Counted (t.countIn id row blog) := by
  intro b blog' hblog'
  rw [shown_countIn hnew hstatus]
  simp only [Tables.countIn, lookup_insert_eq] at hblog'
  split at hblog'
  · rename_i hb
    obtain rfl := Option.some.inj hblog'
    rw [if_pos hb, hb, h _ _ hblog]
    rfl
  · rename_i hb
    rw [if_neg hb]
    exact h b blog' hblog'

/-- It goes down with a comment that is taken off. -/
theorem counted_countOut (h : Counted t) (hrow : t.comments.lookup id = some row)
    (hopen : row.status = some 0) (hstatus : status ≠ 0)
    (hblog : t.blogs.lookup row.blogId = some blog) : Counted (t.countOut id row blog status) := by
  intro b blog' hblog'
  have hshown : (t.countOut id row blog status).shown b + _ = _ := shown_countOut hrow hopen hstatus b
  simp only [Tables.countOut, lookup_insert_eq] at hblog'
  split at hblog'
  · rename_i hb
    obtain rfl := Option.some.inj hblog'
    rw [if_pos hb] at hshown
    subst hb
    rw [h _ _ hblog]
    simp only [Tables.decremented, Option.getD_some, Option.some.injEq]
    split <;> omega
  · rename_i hb
    rw [if_neg hb, Nat.add_zero] at hshown
    rw [hshown]
    exact h b blog' hblog'

/-- **Every call keeps the counters.** -/
theorem counted_effect {c : Call} {t' : Tables} (hready : contentRegions.Ready c t)
    (heffect : Effect c t t') (h : Counted t) : Counted t' := by
  cases heffect with
  | none => exact h
  | add hid _ hblog _ hstatus _ => exact counted_countIn h (hready _ hid).2 hstatus hblog
  | withdraw _ _ _ hrow hstatus hblog =>
    exact counted_countOut h (exists_of_findOwned hrow).1 hstatus (by decide) hblog
  | hideComment _ _ _ hrow hstatus hblog _ =>
    exact counted_countOut h (exists_of_findModeratable hrow).1 hstatus (by decide) hblog
  | hideReply _ _ _ hrow hstatus hblog _ _ =>
    exact counted_countOut h (exists_of_findModeratable hrow).1 hstatus (by decide) hblog
  | @blog id old new hregion hblog hvisible hkept =>
    intro b blog' hblog'
    simp only [lookup_insert_eq] at hblog'
    split at hblog'
    · rename_i hb
      obtain rfl := Option.some.inj hblog'
      rw [hkept.2.2, hb]
      exact h _ _ hblog
    · exact h b blog' hblog'

end counter

/-! ## Moves of a status -/

/-- The calls that move a comment `id` that is shown, and the status that they give it. -/
inductive Shift (c : Call) (id : ℕ) (row : BlogComments) : ℕ → Prop where
  | withdrawn {level : Level} (hcall : c = level.withdrawal (some id) (some row.userId))
      (hfits : level.fits row = true) : Shift c id row 3
  | hidden {operator : ℕ} {request : Option BlogCommentHideRequest} {reason : Text}
      (hcall : c = .hideComment (some id) request (some operator))
      (hreason : BlogCommentHideRequest.validated request = some reason)
      (hfits : Level.firstLevel.fits row = true) : Shift c id row 2
  | replyHidden {operator : ℕ} {request : Option BlogCommentHideRequest} {reason : Text}
      (hcall : c = .hideReply (some id) request (some operator))
      (hreason : BlogCommentHideRequest.validated request = some reason)
      (hfits : Level.directReply.fits row = true) : Shift c id row 2

/-- Whether a call may move a comment does not depend on the status. -/
theorem Shift.congr {c : Call} {id n : ℕ} {row : BlogComments} (h : Shift c id row n)
    (status : Option ℕ) : Shift c id { row with status := status } n := by
  cases h with
  | @withdrawn level hcall hfits =>
    refine .withdrawn hcall ?_
    cases level <;> exact hfits
  | hidden hcall hreason hfits => exact .hidden hcall hreason hfits
  | replyHidden hcall hreason hfits => exact .replyHidden hcall hreason hfits

section shifts

variable {c : Call} {t t' : Tables} {id : ℕ} {row row' : BlogComments}

/-- A write to the status of a comment moves no other. -/
theorem eq_of_shift {i status : ℕ} {old : BlogComments} (hrow : t.comments.lookup id = some row)
    (hi : t.comments.lookup i = some old)
    (hrow' : (t.comments.insert i { old with status := some status }).lookup id = some row')
    (hne : row'.status ≠ row.status) : i = id ∧ old = row ∧ row'.status = some status := by
  rw [lookup_insert_eq] at hrow'
  split at hrow'
  · rename_i hid
    rw [← hid] at hi
    obtain rfl := Option.some.inj (hi.symm.trans hrow)
    obtain rfl := Option.some.inj hrow'
    exact ⟨hid.symm, rfl, rfl⟩
  · obtain rfl := Option.some.inj (hrow.symm.trans hrow')
    exact absurd rfl hne

/-- **A status moves** once, by one of the calls that may, and the counter of the post goes down. -/
theorem shift_of_effect (hready : contentRegions.Ready c t) (heffect : Effect c t t')
    (hrow : t.comments.lookup id = some row) (hrow' : t'.comments.lookup id = some row')
    (hne : row'.status ≠ row.status) :
    0 < id ∧ row.status = some 0 ∧ (∃ n, row'.status = some n ∧ Shift c id row n) ∧
      (row'.status = some 3 → 0 < row.userId) ∧
      ∃ blog, t.blogs.lookup row.blogId = some blog ∧
        t'.blogs.lookup row.blogId = some { blog with comments := some (Tables.decremented blog.comments) } := by
  cases heffect with
  | none =>
    obtain rfl := Option.some.inj (hrow.symm.trans hrow')
    exact absurd rfl hne
  | @add i new blog hid _ _ _ _ _ =>
    simp only [Tables.countIn, lookup_insert_eq] at hrow'
    split at hrow'
    · rename_i hi
      rw [hi, (hready _ hid).2] at hrow
      cases hrow
    · obtain rfl := Option.some.inj (hrow.symm.trans hrow')
      exact absurd rfl hne
  | @withdraw i userId level old blog hid huser hcall hold hstatus hblog =>
    obtain ⟨hlookup, rfl, hfits, -⟩ := exists_of_findOwned hold
    obtain ⟨rfl, rfl, hto⟩ := eq_of_shift hrow hlookup hrow' hne
    exact ⟨hid, hstatus, ⟨3, hto, .withdrawn hcall hfits⟩, fun _ => huser, blog, hblog,
      Finmap.lookup_insert _⟩
  | @hideComment i operator request reason old blog hid hcall hreason hold hstatus hblog _ =>
    obtain ⟨hlookup, hfits, -⟩ := exists_of_findModeratable hold
    obtain ⟨rfl, rfl, hto⟩ := eq_of_shift hrow hlookup hrow' hne
    refine ⟨hid, hstatus, ⟨2, hto, .hidden hcall hreason hfits⟩, fun h => ?_, blog, hblog,
      Finmap.lookup_insert _⟩
    rw [hto] at h
    cases h
  | @hideReply i operator request reason old blog hid hcall hreason hold hstatus hblog _ _ =>
    obtain ⟨hlookup, hfits, -⟩ := exists_of_findModeratable hold
    obtain ⟨rfl, rfl, hto⟩ := eq_of_shift hrow hlookup hrow' hne
    refine ⟨hid, hstatus, ⟨2, hto, .replyHidden hcall hreason hfits⟩, fun h => ?_, blog, hblog,
      Finmap.lookup_insert _⟩
    rw [hto] at h
    cases h
  | blog =>
    obtain rfl := Option.some.inj (hrow.symm.trans hrow')
    exact absurd rfl hne

end shifts

/-! ## The audits -/

/-- What the audit tables hold of a comment; `legacy` says that it was hidden from the start. -/
structure Booked (legacy : Prop) (row : Option BlogComments) (audit : Option BlogCommentHideAudit)
    (replyAudit : Option BlogReplyHideAudit) : Prop where
  kept : legacy → ∃ r, row = some r ∧ r.status = some 2
  hidden : ∀ r, row = some r → r.status = some 2 → ¬ legacy →
    (Level.firstLevel.fits r = true ∧ replyAudit = none ∧
      ∃ a, audit = some a ∧ a.blogId = r.blogId ∧ a.fromStatus = 0 ∧ a.toStatus = 2) ∨
    (Level.directReply.fits r = true ∧ audit = none ∧
      ∃ a, replyAudit = some a ∧ a.blogId = r.blogId ∧ a.rootCommentId = r.parentId ∧
        a.fromStatus = 0 ∧ a.toStatus = 2)
  other : (∀ r, row = some r → r.status = some 2 → legacy) → audit = none ∧ replyAudit = none

/-- The audit tables hold what they should of every comment; `legacy` are the comments that were hidden
from the start. -/
def Audited (legacy : ℕ → Prop) (t : Tables) : Prop :=
  ∀ id, Booked (legacy id) (t.comments.lookup id) (t.commentAudits.lookup id) (t.replyAudits.lookup id)

section audits

variable {c : Call} {t t' : Tables} {legacy : ℕ → Prop} {id : ℕ} {row : BlogComments}

/-- A comment that is not hidden, before and after. -/
theorem Booked.write {l : Prop} {old : Option BlogComments} {audit : Option BlogCommentHideAudit}
    {replyAudit : Option BlogReplyHideAudit} (h : Booked l old audit replyAudit)
    (hold : ∀ r, old = some r → r.status ≠ some 2) (hrow : row.status ≠ some 2) :
    Booked l (some row) audit replyAudit where
  kept hl := by
    obtain ⟨r, hr, hstatus⟩ := h.kept hl
    exact absurd hstatus (hold r hr)
  hidden r hr hstatus := by
    obtain rfl := Option.some.inj hr
    exact absurd hstatus hrow
  other _ := h.other fun r hr hstatus => absurd hstatus (hold r hr)

/-- A comment that is shown has no audit and is no legacy. -/
theorem Booked.shown {l : Prop} {audit : Option BlogCommentHideAudit}
    {replyAudit : Option BlogReplyHideAudit} (h : Booked l (some row) audit replyAudit)
    (hrow : row.status = some 0) : ¬ l ∧ audit = none ∧ replyAudit = none := by
  have hnot : row.status ≠ some 2 := by
    rw [hrow]
    decide
  refine ⟨fun hl => ?_, h.other fun r hr hstatus => ?_⟩
  · obtain ⟨r, hr, hstatus⟩ := h.kept hl
    obtain rfl := Option.some.inj hr
    exact hnot hstatus
  · obtain rfl := Option.some.inj hr
    exact absurd hstatus hnot

/-- **Every call keeps the books.** -/
theorem audited_effect (hready : contentRegions.Ready c t) (heffect : Effect c t t')
    (h : Audited legacy t) : Audited legacy t' := by
  intro id
  cases heffect with
  | none => exact h id
  | @add i new blog hid _ _ _ hstatus _ =>
    simp only [Tables.countIn, lookup_insert_eq]
    split
    · rename_i hi
      subst hi
      refine (h id).write (fun r hr => ?_) ?_
      · rw [(hready _ hid).2] at hr
        cases hr
      · rw [hstatus]
        decide
    · exact h id
  | @withdraw i userId level old blog _ _ hcall hold hstatus hblog =>
    have hlookup := (exists_of_findOwned hold).1
    simp only [Tables.countOut, lookup_insert_eq]
    split
    · rename_i hi
      subst hi
      refine (h id).write (fun r hr => ?_) (by simp)
      obtain rfl := Option.some.inj (hlookup.symm.trans hr)
      rw [hstatus]
      decide
    · exact h id
  | @hideComment i operator request reason old blog _ hcall hreason hold hstatus hblog _ =>
    obtain ⟨hlookup, hfits, -⟩ := exists_of_findModeratable hold
    simp only [Tables.countOut, lookup_insert_eq]
    split
    · rename_i hi
      subst hi
      have hbooked := h id
      rw [hlookup] at hbooked
      obtain ⟨hl, -, hreply⟩ := hbooked.shown hstatus
      refine ⟨fun hl' => absurd hl' hl, fun r hr _ _ => .inl ?_, fun hno => absurd (hno _ rfl rfl) hl⟩
      obtain rfl := Option.some.inj hr
      exact ⟨hfits, hreply, _, rfl, rfl, rfl, rfl⟩
    · exact h id
  | @hideReply i operator request reason old blog _ hcall hreason hold hstatus hblog _ _ =>
    obtain ⟨hlookup, hfits, -⟩ := exists_of_findModeratable hold
    simp only [Tables.countOut, lookup_insert_eq]
    split
    · rename_i hi
      subst hi
      have hbooked := h id
      rw [hlookup] at hbooked
      obtain ⟨hl, haudit, -⟩ := hbooked.shown hstatus
      refine ⟨fun hl' => absurd hl' hl, fun r hr _ _ => .inr ?_, fun hno => absurd (hno _ rfl rfl) hl⟩
      obtain rfl := Option.some.inj hr
      exact ⟨hfits, haudit, _, rfl, rfl, rfl, rfl, rfl⟩
    · exact h id
  | blog => exact h id

/-- The call that brings an audit of a first-level comment, and what it finds. -/
theorem hidden_of_effect (heffect : Effect c t t') {a : BlogCommentHideAudit}
    (ha : t.commentAudits.lookup id ≠ some a) (ha' : t'.commentAudits.lookup id = some a) :
    0 < id ∧ (∃ request, c = .hideComment (some id) request (some a.operatorUserId) ∧
      BlogCommentHideRequest.validated request = some a.reason) ∧
    ∃ row, t.comments.lookup id = some row ∧ row.status = some 0 ∧
      t'.comments.lookup id = some { row with status := some 2 } ∧
      ∃ blog, t.blogs.lookup row.blogId = some blog := by
  cases heffect with
  | @hideComment i operator request reason old blog hid hcall hreason hold hstatus hblog _ =>
    rw [lookup_insert_eq] at ha'
    split at ha'
    · rename_i hi
      subst hi
      obtain rfl := Option.some.inj ha'
      exact ⟨hid, ⟨request, hcall, hreason⟩, old, (exists_of_findModeratable hold).1, hstatus,
        Finmap.lookup_insert _, blog, hblog⟩
    · exact absurd ha' ha
  | _ => exact absurd ha' ha

/-- The call that brings an audit of a reply, and what it finds. -/
theorem replyHidden_of_effect (heffect : Effect c t t') {a : BlogReplyHideAudit}
    (ha : t.replyAudits.lookup id ≠ some a) (ha' : t'.replyAudits.lookup id = some a) :
    0 < id ∧ (∃ request, c = .hideReply (some id) request (some a.operatorUserId) ∧
      BlogCommentHideRequest.validated request = some a.reason) ∧
    ∃ row, t.comments.lookup id = some row ∧ row.status = some 0 ∧
      t'.comments.lookup id = some { row with status := some 2 } ∧
      (∃ blog, t.blogs.lookup row.blogId = some blog) ∧
      ∃ root, t.comments.lookup row.parentId = some root ∧ root.blogId = row.blogId ∧
        Level.firstLevel.fits root = true := by
  cases heffect with
  | @hideReply i operator request reason old blog hid hcall hreason hold hstatus hblog hroot _ =>
    rw [lookup_insert_eq] at ha'
    split at ha'
    · rename_i hi
      subst hi
      obtain rfl := Option.some.inj ha'
      exact ⟨hid, ⟨request, hcall, hreason⟩, old, (exists_of_findModeratable hold).1, hstatus,
        Finmap.lookup_insert _, ⟨blog, hblog⟩, hroot⟩
    · exact absurd ha' ha
  | _ => exact absurd ha' ha

end audits

/-! ## Repeated calls -/

/-- The call succeeds and changes nothing. -/
def Call.Repeats (c : Call) (t : Tables) : Prop :=
  ∀ r t', c.program.Alone t r t' ↔ r = .ok none ∧ t' = t

/-- The call that hides a comment or a reply. -/
def Level.hiding : Level → Option ℤ → Option BlogCommentHideRequest → Option ℤ → Call
  | .directReply => .hideReply
  | .firstLevel => .hideComment

section steps

variable {β : Type} {r : Except Failure (Option BlogCommentItem)} {t t' : Tables} {v : β}
  {k : β → ContentTxn (Option BlogCommentItem)} {value : Option β} {code : ErrorCode}

/-- A value that is there is passed on. -/
theorem acts_given (h : value = some v) :
    (orRefuse value code >>= k).Acts id t r t' ↔ (k v).Acts id t r t' := by
  rw [h]
  rfl

/-- A read that finds its row passes it on. -/
theorem acts_found_read {query : Tables → Option β} (h : query t = some v) :
    (found (.read query) >>= k).Acts id t r t' ↔ (k v).Acts id t r t' := by
  rw [found_read_bind, Txn.acts_select, id_eq, h]
  rfl

/-- A locking read that finds its row passes it on, and writes nothing. -/
theorem acts_found_on {name : Row} {statement : Tables → Answer Tables (Option β)}
    (hwrite : (statement t).write = id) (h : (statement t).value = some v) :
    (found (.on name statement) >>= k).Acts id t r t' ↔ (k v).Acts id t r t' := by
  rw [found_on_bind, Txn.acts_exec, id_eq, h, hwrite]
  rfl

end steps

section repeats

variable {t : Tables} {id : ℕ} {row : BlogComments} {blog : Blog}

/-- A post that is there is locked. -/
theorem lockBlog_value (hblog : t.blogs.lookup row.blogId = some blog) :
    (t.lockBlog row.blogId).value = some row.blogId := by
  simp [Tables.lockBlog, Tables.lockBlogWhere, hblog]

/-- A comment is found under its post. -/
theorem lockComment_value {p : BlogComments → Bool} (hrow : t.comments.lookup id = some row)
    (hp : p row = true) : (t.lockComment id row.blogId p).value = some row := by
  simp [Tables.lockComment, Tables.commentOf, hrow, Option.filter_some, hp]

/-- **The author withdraws again.** -/
theorem repeats_withdrawal {level : Level} (hid : 0 < id) (huser : 0 < row.userId)
    (hrow : t.comments.lookup id = some row) (hfits : level.fits row = true)
    (hstatus : row.status = some 3) (hblog : t.blogs.lookup row.blogId = some blog) :
    (level.withdrawal (some id) (some row.userId)).Repeats t := by
  intro r t'
  have hprogram : (level.withdrawal (some id) (some row.userId)).program =
      withdrawOwned level (some id) (some row.userId) := by
    cases level <;> rfl
  have hfound : t.findOwned level id row.userId = some row := by
    simp [Tables.findOwned, hrow, Option.filter_some, hfits, hstatus]
  have hlocked : (t.lockOwned level id row.blogId row.userId).value = some row :=
    lockComment_value hrow (by simp [hfits, hstatus])
  rw [hprogram]
  unfold withdrawOwned Txn.Alone
  rw [acts_given (positive_natCast hid), acts_given (positive_natCast huser), acts_found_read hfound,
    acts_found_on rfl (lockBlog_value hblog), acts_found_on rfl hlocked, if_pos hstatus]
  rfl

/-- **An administrator hides a comment again**, whoever hid it. -/
theorem repeats_hideComment {operator : ℕ} {request : Option BlogCommentHideRequest} {reason : Text}
    {a : BlogCommentHideAudit} (hid : 0 < id) (hoperator : 0 < operator)
    (hreason : BlogCommentHideRequest.validated request = some reason)
    (hrow : t.comments.lookup id = some row) (hfits : Level.firstLevel.fits row = true)
    (hstatus : row.status = some 2) (hblog : t.blogs.lookup row.blogId = some blog)
    (haudit : t.commentAudits.lookup id = some a) (hblogId : a.blogId = row.blogId)
    (hfrom : a.fromStatus = 0) (hto : a.toStatus = 2) :
    (Call.hideComment (some id) request (some operator)).Repeats t := by
  intro r t'
  have hfound : t.findModeratableFirstLevelComment id = some row := by
    simp [Tables.findModeratableFirstLevelComment, Tables.findModeratable, hrow, Option.filter_some,
      hfits, hstatus]
  have hlocked : (t.lockModeratableFirstLevelComment id row.blogId).value = some row :=
    lockComment_value hrow (by simp [hfits, hstatus])
  have hbooked : (t.findFirstLevelHideAudit id row.blogId).value = some a := by
    simp [Tables.findFirstLevelHideAudit, haudit, Option.filter_some, hblogId, hfrom, hto]
  unfold Call.program hideComment Txn.Alone
  rw [acts_given (positive_natCast hid), acts_given hreason, acts_given (positive_natCast hoperator),
    acts_found_read hfound]
  dsimp only
  rw [acts_found_on rfl (lockBlog_value hblog), acts_found_on rfl hlocked, hideLocked, if_pos hstatus,
    acts_found_on rfl hbooked]
  rfl

/-- **An administrator hides a reply again**, whoever hid it. -/
theorem repeats_hideReply {operator : ℕ} {request : Option BlogCommentHideRequest} {reason : Text}
    {a : BlogReplyHideAudit} {root : BlogComments} (hid : 0 < id) (hoperator : 0 < operator)
    (hreason : BlogCommentHideRequest.validated request = some reason)
    (hrow : t.comments.lookup id = some row) (hfits : Level.directReply.fits row = true)
    (hstatus : row.status = some 2) (hblog : t.blogs.lookup row.blogId = some blog)
    (hroot : t.comments.lookup row.parentId = some root) (hrootBlog : root.blogId = row.blogId)
    (hrootFits : Level.firstLevel.fits root = true)
    (haudit : t.replyAudits.lookup id = some a) (hblogId : a.blogId = row.blogId)
    (hrootId : a.rootCommentId = row.parentId) (hfrom : a.fromStatus = 0) (hto : a.toStatus = 2) :
    (Call.hideReply (some id) request (some operator)).Repeats t := by
  intro r t'
  have hfound : t.findModeratableDirectReply id = some row := by
    simp [Tables.findModeratableDirectReply, Tables.findModeratable, hrow, Option.filter_some, hfits,
      hstatus]
  have hlockedRoot : (t.lockDirectReplyRoot row.parentId row.blogId).value = some row.parentId := by
    simp [Tables.lockDirectReplyRoot, Tables.commentOf, hroot, Option.filter_some, hrootBlog, hrootFits]
  have hlocked : (t.lockModeratableDirectReply id row.blogId row.parentId).value = some row := by
    simp only [Level.fits, decide_eq_true_eq] at hfits
    exact lockComment_value hrow (by simp [Tables.repliesTo, hfits, hstatus])
  have hbooked : (t.findDirectReplyHideAudit id row.blogId row.parentId).value = some a := by
    simp [Tables.findDirectReplyHideAudit, haudit, Option.filter_some, hblogId, hrootId, hfrom, hto]
  unfold Call.program hideReply Txn.Alone
  rw [acts_given (positive_natCast hid), acts_given hreason, acts_given (positive_natCast hoperator),
    acts_found_read hfound]
  dsimp only
  rw [acts_found_on rfl (lockBlog_value hblog), acts_found_on rfl hlockedRoot,
    acts_found_on rfl hlocked, hideLocked, if_pos hstatus, acts_found_on rfl hbooked]
  rfl

end repeats

/-! ## Runs -/

/-- A comment that is hidden in the tables. -/
def Tables.Hidden (t : Tables) (id : ℕ) : Prop :=
  ∃ row, t.comments.lookup id = some row ∧ row.status = some 2

/-- A comment has one audit: of first-level comments in one table, of replies in the other. -/
def Tables.AuditedOnce (t : Tables) (id : ℕ) (row : BlogComments) : Prop :=
  if row.parentId = 0 then (t.commentAudits.lookup id).isSome ∧ t.replyAudits.lookup id = none
  else (t.replyAudits.lookup id).isSome ∧ t.commentAudits.lookup id = none

/-- One step of the run `as` commits the call `c`, which succeeds, and hides the comment. -/
def HiddenBy (s : Tables) (likes : Likes) (as : List (Act Call)) (id : ℕ) (c : Call) : Prop :=
  ∃ as₁ i as₂ x row, as = as₁ ++ .run i :: as₂ ∧ (contentRun s likes as).calls[i]? = some c ∧
    (contentRun s likes (as₁ ++ [.run i])).results i = some (.ok x) ∧
    (contentRun s likes as₁).tables.comments.lookup id = some row ∧ row.status = some 0 ∧
    (contentRun s likes (as₁ ++ [.run i])).tables.comments.lookup id =
      some { row with status := some 2 }

section runs

variable {s : Tables} {likes : Likes} {as : List (Act Call)} {id : ℕ} {row row' : BlogComments}

/-- Every run keeps the counters. -/
theorem counted_run (h : Counted s) : Counted (contentRun s likes as).tables :=
  (sound_initial s likes).tables_invariant content_disciplined
    (fun _ _ _ _ hready halone => counted_effect hready (effect_of_alone halone)) as h

/-- Every run keeps the books, of which the legacy are the comments hidden at the start. -/
theorem audited_run
    (hnone : ∀ id, s.commentAudits.lookup id = none ∧ s.replyAudits.lookup id = none) :
    Audited s.Hidden (contentRun s likes as).tables := by
  refine (sound_initial s likes).tables_invariant content_disciplined
    (fun _ _ _ _ hready halone => audited_effect hready (effect_of_alone halone)) as fun id => ?_
  exact ⟨fun h => h, fun r hr hstatus hnot => absurd ⟨r, hr, hstatus⟩ hnot, fun _ => hnone id⟩

/-- A comment that was shown and is not any more was moved by a commit, and its post is there. -/
theorem exists_of_moved (bs : List (Act Call))
    (hrow : (contentRun s likes as).tables.comments.lookup id = some row)
    (hopen : row.status = some 0)
    (hrow' : (contentRun s likes (as ++ bs)).tables.comments.lookup id = some row')
    (hmoved : row'.status ≠ some 0) : 0 < id ∧ (row'.status = some 3 → 0 < row'.userId) ∧
      (∃ c n, row'.status = some n ∧ Shift c id row' n) ∧
      ∃ blog, (contentRun s likes (as ++ bs)).tables.blogs.lookup row'.blogId = some blog := by
  have hsound := contentRun_sound s likes as
  rw [contentRun_append] at hrow' ⊢
  obtain ⟨bs₁, i, bs₂, c, x, rfl, -, hready, hbefore, ⟨u', hu', hmoved'⟩, halone, -⟩ :=
    hsound.exists_commit content_disciplined
      (P := fun t => ∃ r, t.comments.lookup id = some r ∧ r.status ≠ some 0) bs
      (fun ⟨r, hr, hne⟩ => hne (by rw [Option.some.inj (hr.symm.trans hrow), hopen]))
      ⟨row', hrow', hmoved⟩
  obtain ⟨u, hu, hbecomes, -⟩ := (hsound.evolves content_disciplined bs₁).comments id row hrow
  have hshown : u.status = some 0 := by
    by_contra hne
    exact hbefore ⟨u, hu, hne⟩
  obtain ⟨hid, -, ⟨n, hn, hshift⟩, huser, blog, -, hblog⟩ :=
    shift_of_effect hready (effect_of_alone halone) hu hu' (fun h => hmoved' (h.trans hshown))
  -- after the move the comment stays, and so does its post
  have hlater : Evolves (Runs.run (World.step contentSystem) (contentRun s likes as)
      (bs₁ ++ [.run i])).tables (Runs.run (World.step contentSystem) (contentRun s likes as)
      (bs₁ ++ .run i :: bs₂)).tables := by
    rw [show bs₁ ++ Act.run i :: bs₂ = (bs₁ ++ [.run i]) ++ bs₂ by simp,
      Runs.run_append _ _ (bs₁ ++ [Act.run i])]
    exact (hsound.run content_disciplined _).evolves content_disciplined bs₂
  obtain ⟨last, hlast, -, hstays⟩ := hlater.comments id u' hu'
  obtain rfl := Option.some.inj (hrow'.symm.trans hlast)
  obtain ⟨last, hlast, hbecomes', -⟩ :=
    (hsound.evolves content_disciplined (bs₁ ++ .run i :: bs₂)).comments id row hrow
  obtain rfl := Option.some.inj (hrow'.symm.trans hlast)
  have hstatus : row'.status = some n := by
    rcases hstays with hstays | ⟨h, -⟩
    · rw [hstays, hn]
    · exact absurd h hmoved'
  have hsame : row' = { u with status := row'.status } := by rw [hbecomes', hbecomes]
  refine ⟨hid, fun h => ?_, ⟨c, n, hstatus, ?_⟩, ?_⟩
  · rw [hsame]
    exact huser (by rw [hn, ← hstatus, h])
  · rw [hsame]
    exact hshift.congr _
  · obtain ⟨blog', hblog', -⟩ := hlater.blogs _ _ hblog
    rw [hsame]
    exact ⟨blog', hblog'⟩

/-- The author of a comment that was withdrawn withdraws it again. -/
theorem withdrawn_again (bs : List (Act Call))
    (hrow : (contentRun s likes as).tables.comments.lookup id = some row)
    (hopen : row.status = some 0)
    (hrow' : (contentRun s likes (as ++ bs)).tables.comments.lookup id = some row')
    (hwithdrawn : row'.status = some 3) : ∃ level : Level, level.fits row' = true ∧
      (level.withdrawal (some id) (some row'.userId)).Repeats (contentRun s likes (as ++ bs)).tables := by
  obtain ⟨hid, huser, ⟨c, n, hn, hshift⟩, blog, hblog⟩ :=
    exists_of_moved bs hrow hopen hrow' (by rw [hwithdrawn]; decide)
  obtain rfl := Option.some.inj (hwithdrawn.symm.trans hn)
  cases hshift with
  | @withdrawn level hcall hfits =>
    exact ⟨level, hfits, repeats_withdrawal hid (huser hwithdrawn) hrow' hfits hwithdrawn hblog⟩

/-- The audit of a first-level comment names the operator and the reason of the call that hid it. -/
theorem hiddenBy_of_audit {a : BlogCommentHideAudit} (hnone : s.commentAudits.lookup id = none)
    (ha : (contentRun s likes as).tables.commentAudits.lookup id = some a) :
    ∃ request, BlogCommentHideRequest.validated request = some a.reason ∧
      HiddenBy s likes as id (.hideComment (some id) request (some a.operatorUserId)) := by
  obtain ⟨as₁, i, as₂, c, x, rfl, hc, hready, hbefore, hafter, halone, hresult⟩ :=
    (sound_initial s likes).exists_commit content_disciplined
      (P := fun t => t.commentAudits.lookup id = some a) as
      (fun h => by rw [show s.commentAudits.lookup id = some a from h] at hnone; cases hnone) ha
  obtain ⟨-, ⟨request, rfl, hreason⟩, row, hrow, hopen, hhidden, -⟩ :=
    hidden_of_effect (effect_of_alone halone) hbefore hafter
  exact ⟨request, hreason, as₁, i, as₂, x, row, rfl, hc, hresult, hrow, hopen, hhidden⟩

/-- The audit of a reply names the operator and the reason of the call that hid it, and its root is
there. -/
theorem hiddenBy_of_replyAudit {a : BlogReplyHideAudit} (hnone : s.replyAudits.lookup id = none)
    (ha : (contentRun s likes as).tables.replyAudits.lookup id = some a) :
    (∃ request, BlogCommentHideRequest.validated request = some a.reason ∧
      HiddenBy s likes as id (.hideReply (some id) request (some a.operatorUserId))) ∧
    ∀ row, (contentRun s likes as).tables.comments.lookup id = some row →
      ∃ root, (contentRun s likes as).tables.comments.lookup row.parentId = some root ∧
        root.blogId = row.blogId ∧ Level.firstLevel.fits root = true := by
  obtain ⟨as₁, i, as₂, c, x, rfl, hc, hready, hbefore, hafter, halone, hresult⟩ :=
    (sound_initial s likes).exists_commit content_disciplined
      (P := fun t => t.replyAudits.lookup id = some a) as
      (fun h => by rw [show s.replyAudits.lookup id = some a from h] at hnone; cases hnone) ha
  obtain ⟨-, ⟨request, rfl, hreason⟩, row, hrow, hopen, hhidden, -, root, hroot, hblog, hfits⟩ :=
    replyHidden_of_effect (effect_of_alone halone) hbefore hafter
  refine ⟨⟨request, hreason, as₁, i, as₂, x, row, rfl, hc, hresult, hrow, hopen, hhidden⟩,
    fun last hlast => ?_⟩
  have hlater := contentRun_evolves s likes as₁ (.run i :: as₂)
  obtain ⟨_, hrow', hbecomes, -⟩ := hlater.comments id row hrow
  obtain rfl := Option.some.inj (hlast.symm.trans hrow')
  obtain ⟨root', hroot', hrootBecomes, -⟩ := hlater.comments _ root hroot
  rw [hbecomes]
  refine ⟨root', hroot', ?_, ?_⟩
  · rw [hrootBecomes]
    exact hblog
  · rw [hrootBecomes]
    exact hfits

/-- What `HiddenBy` says of the comment afterwards. -/
theorem HiddenBy.post {c : Call} (h : HiddenBy s likes as id c)
    (hrow : (contentRun s likes as).tables.comments.lookup id = some row)
    (hhidden : row.status = some 2) :
    0 < id ∧ ∃ blog, (contentRun s likes as).tables.blogs.lookup row.blogId = some blog := by
  obtain ⟨as₁, i, as₂, x, before, rfl, -, -, hbefore, hopen, -⟩ := h
  obtain ⟨hid, -, -, hblog⟩ :=
    exists_of_moved (.run i :: as₂) hbefore hopen hrow (by rw [hhidden]; decide)
  exact ⟨hid, hblog⟩

/-- Any administrator hides a comment again that was hidden in this run. -/
theorem hidden_again
    (hnone : ∀ id, s.commentAudits.lookup id = none ∧ s.replyAudits.lookup id = none)
    (hrow : (contentRun s likes as).tables.comments.lookup id = some row)
    (hhidden : row.status = some 2) (hnew : ¬ s.Hidden id) : ∃ level : Level, level.fits row = true ∧
      ∀ request reason (operator : ℕ), BlogCommentHideRequest.validated request = some reason →
        0 < operator → (level.hiding (some id) request (some operator)).Repeats
          (contentRun s likes as).tables := by
  rcases (audited_run hnone id).hidden row hrow hhidden hnew with
    ⟨hfits, -, a, ha, hblogId, hfrom, hto⟩ | ⟨hfits, -, a, ha, hblogId, hrootId, hfrom, hto⟩
  · obtain ⟨_, -, hby⟩ := hiddenBy_of_audit (hnone id).1 ha
    obtain ⟨hid, blog, hblog⟩ := hby.post hrow hhidden
    exact ⟨.firstLevel, hfits, fun request reason operator hreason hoperator =>
      repeats_hideComment hid hoperator hreason hrow hfits hhidden hblog ha hblogId hfrom hto⟩
  · obtain ⟨⟨_, -, hby⟩, hroot⟩ := hiddenBy_of_replyAudit (hnone id).2 ha
    obtain ⟨hid, blog, hblog⟩ := hby.post hrow hhidden
    obtain ⟨root, hroot, hrootBlog, hrootFits⟩ := hroot row hrow
    exact ⟨.directReply, hfits, fun request reason operator hreason hoperator =>
      repeats_hideReply hid hoperator hreason hrow hfits hhidden hblog hroot hrootBlog hrootFits ha
        hblogId hrootId hfrom hto⟩

/-- A comment that was not hidden from the start is hidden if it has one audit, and only then has any. -/
theorem hidden_iff_audited
    (hnone : ∀ id, s.commentAudits.lookup id = none ∧ s.replyAudits.lookup id = none)
    (hrow : (contentRun s likes as).tables.comments.lookup id = some row) (hnew : ¬ s.Hidden id) :
    (row.status = some 2 ↔ (contentRun s likes as).tables.AuditedOnce id row) ∧
      (row.status ≠ some 2 → (contentRun s likes as).tables.commentAudits.lookup id = none ∧
        (contentRun s likes as).tables.replyAudits.lookup id = none) := by
  have hbooked := (audited_run hnone : Audited s.Hidden (contentRun s likes as).tables) id
  have hother : row.status ≠ some 2 → (contentRun s likes as).tables.commentAudits.lookup id = none ∧
      (contentRun s likes as).tables.replyAudits.lookup id = none := by
    refine fun hne => hbooked.other fun r hr hstatus => ?_
    obtain rfl := Option.some.inj (hrow.symm.trans hr)
    exact absurd hstatus hne
  refine ⟨⟨fun hhidden => ?_, fun honce => ?_⟩, hother⟩
  · rcases hbooked.hidden row hrow hhidden hnew with ⟨hfits, hreply, a, ha, -⟩ | ⟨hfits, haudit, a, ha, -⟩
    · simp only [Level.fits, decide_eq_true_eq] at hfits
      rw [Tables.AuditedOnce, if_pos hfits.1, ha]
      exact ⟨rfl, hreply⟩
    · simp only [Level.fits, decide_eq_true_eq] at hfits
      rw [Tables.AuditedOnce, if_neg (Nat.ne_of_gt hfits.1), ha]
      exact ⟨rfl, haudit⟩
  · by_contra hne
    obtain ⟨haudit, hreply⟩ := hother hne
    unfold Tables.AuditedOnce at honce
    split at honce
    · rw [haudit] at honce
      exact absurd honce.1 (by decide)
    · rw [hreply] at honce
      exact absurd honce.1 (by decide)

/-- A step that takes a comment off its post lowers a counter that was positive. -/
theorem counter_of_step (hcounted : Counted s) (a : Act Call)
    (hrow : (contentRun s likes as).tables.comments.lookup id = some row)
    (hrow' : (contentRun s likes (as ++ [a])).tables.comments.lookup id = some row')
    (hne : row'.status ≠ row.status) : ∃ blog blog' n,
      (contentRun s likes as).tables.blogs.lookup row.blogId = some blog ∧
      (contentRun s likes (as ++ [a])).tables.blogs.lookup row.blogId = some blog' ∧
      blog.comments = some (n + 1) ∧ blog'.comments = some n := by
  rw [contentRun_append] at hrow' ⊢
  rcases (contentRun_sound s likes as).tables a with hsame | ⟨i, c, x, rfl, -, hready, halone, -⟩
  · rw [Runs.run_cons, Runs.run_nil, hsame, hrow] at hrow'
    obtain rfl := Option.some.inj hrow'
    exact absurd rfl hne
  · obtain ⟨-, hopen, -, -, blog, hblog, hblog'⟩ :=
      shift_of_effect hready (effect_of_alone halone) hrow hrow' hne
    have hcount := (counted_run hcounted : Counted (contentRun s likes as).tables) _ _ hblog
    -- the comment itself is counted
    have hpos : 0 < (contentRun s likes as).tables.shown row.blogId :=
      Finset.card_pos.mpr ⟨id, mem_selected.mpr ⟨row, hrow, rfl, hopen⟩⟩
    obtain ⟨n, hn⟩ := Nat.exists_eq_add_of_lt hpos
    rw [Nat.zero_add] at hn
    rw [hn] at hcount
    refine ⟨blog, _, n, hblog, hblog', hcount, ?_⟩
    rw [hcount]
    simp [Tables.decremented]

end runs

/-- **Counters, statuses and audits after any run** from tables whose posts count their comments and
which have no audits. Posts count their comments and replies, and no counter is ever lowered at zero; a
status moves once, to withdrawn or hidden; a comment that was not hidden from the start is hidden exactly
if it has its one audit, and one that was keeps its status and gets none; an audit names the operator and
the reason of the call that hid the comment; and who may withdraw or hide a comment that was moved does so
again without a change. -/
theorem comment_ledger {s : Tables} (hcounted : Counted s)
    (hnone : ∀ id, s.commentAudits.lookup id = none ∧ s.replyAudits.lookup id = none)
    (likes : Likes) (as : List (Act Call)) :
    Counted (contentRun s likes as).tables ∧
    (∀ a id row row', (contentRun s likes as).tables.comments.lookup id = some row →
      (contentRun s likes (as ++ [a])).tables.comments.lookup id = some row' →
      row'.status ≠ row.status → ∃ blog blog' n,
        (contentRun s likes as).tables.blogs.lookup row.blogId = some blog ∧
        (contentRun s likes (as ++ [a])).tables.blogs.lookup row.blogId = some blog' ∧
        blog.comments = some (n + 1) ∧ blog'.comments = some n) ∧
    (∀ bs id row, (contentRun s likes as).tables.comments.lookup id = some row →
      ∃ row', (contentRun s likes (as ++ bs)).tables.comments.lookup id = some row' ∧
        Moves row.status row'.status) ∧
    (∀ id row, (contentRun s likes as).tables.comments.lookup id = some row → ¬ s.Hidden id →
      (row.status = some 2 ↔ (contentRun s likes as).tables.AuditedOnce id row) ∧
        (row.status ≠ some 2 → (contentRun s likes as).tables.commentAudits.lookup id = none ∧
          (contentRun s likes as).tables.replyAudits.lookup id = none)) ∧
    (∀ id, s.Hidden id → (contentRun s likes as).tables.Hidden id ∧
      (contentRun s likes as).tables.commentAudits.lookup id = none ∧
      (contentRun s likes as).tables.replyAudits.lookup id = none) ∧
    (∀ id a, (contentRun s likes as).tables.commentAudits.lookup id = some a →
      ∃ request, BlogCommentHideRequest.validated request = some a.reason ∧
        HiddenBy s likes as id (.hideComment (some id) request (some a.operatorUserId))) ∧
    (∀ id a, (contentRun s likes as).tables.replyAudits.lookup id = some a →
      ∃ request, BlogCommentHideRequest.validated request = some a.reason ∧
        HiddenBy s likes as id (.hideReply (some id) request (some a.operatorUserId))) ∧
    (∀ bs id row row', (contentRun s likes as).tables.comments.lookup id = some row →
      row.status = some 0 →
      (contentRun s likes (as ++ bs)).tables.comments.lookup id = some row' →
      row'.status = some 3 → ∃ level : Level, level.fits row' = true ∧
        (level.withdrawal (some id) (some row'.userId)).Repeats
          (contentRun s likes (as ++ bs)).tables) ∧
    (∀ id row, (contentRun s likes as).tables.comments.lookup id = some row →
      row.status = some 2 → ¬ s.Hidden id → ∃ level : Level, level.fits row = true ∧
        ∀ request reason (operator : ℕ), BlogCommentHideRequest.validated request = some reason →
          0 < operator → (level.hiding (some id) request (some operator)).Repeats
            (contentRun s likes as).tables) := by
  refine ⟨counted_run hcounted, fun a id row row' => counter_of_step hcounted a,
    fun bs id row hrow => ?_, fun id row hrow hnew => hidden_iff_audited hnone hrow hnew,
    fun id hlegacy => ?_, fun id a ha => hiddenBy_of_audit (hnone id).1 ha,
    fun id a ha => (hiddenBy_of_replyAudit (hnone id).2 ha).1,
    fun bs id row row' => withdrawn_again bs, fun id row hrow => hidden_again hnone hrow⟩
  · obtain ⟨row', hrow', -, hmoves⟩ := (contentRun_evolves s likes as bs).comments id row hrow
    exact ⟨row', hrow', hmoves⟩
  · have hbooked := (audited_run hnone : Audited s.Hidden (contentRun s likes as).tables) id
    exact ⟨hbooked.kept hlegacy, hbooked.other fun _ _ _ => hlegacy⟩

/-- A post of user 4 with one comment by user 5, with the given counter and status. -/
def onePost (comments status : ℕ) : Tables where
  blogs := Finmap.singleton 1 ⟨none, 4, [], [], [], some 0, some comments, 0⟩
  comments := Finmap.singleton 7 ⟨5, 1, 0, 0, [], some 0, some status⟩
  commentAudits := ∅
  replyAudits := ∅

/-- A comment that was hidden before there were audits has none, from the start on. -/
theorem comment_ledger_legacy : Counted (onePost 0 2) ∧
    (∀ id, (onePost 0 2).commentAudits.lookup id = none ∧ (onePost 0 2).replyAudits.lookup id = none) ∧
    ∃ row, (contentRun (onePost 0 2) (fun _ _ => none) []).tables.comments.lookup 7 = some row ∧
      row.status = some 2 ∧
      ¬ (contentRun (onePost 0 2) (fun _ _ => none) []).tables.AuditedOnce 7 row := by
  refine ⟨fun b blog hblog => ?_, fun id => ⟨rfl, rfl⟩, _, rfl, rfl, nofun⟩
  obtain ⟨rfl, rfl⟩ := eq_of_lookup_singleton hblog
  rfl

/-- A run in which the author withdraws the only comment of a post leaves the counter right. -/
theorem comment_ledger_withdrawal : Counted (contentRun (onePost 1 0) (fun _ _ => none)
    (.start (.withdrawComment (some 7) (some 5)) :: List.replicate 6 (.run 0))).tables := by
  refine (comment_ledger (fun b blog hblog => ?_) (fun id => ⟨rfl, rfl⟩) _ _).1
  obtain ⟨rfl, rfl⟩ := eq_of_lookup_singleton hblog
  rfl

end CampusHub.Content
