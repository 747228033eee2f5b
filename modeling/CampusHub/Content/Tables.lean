import CampusHub.Content.Requests
import CampusHub.Foundations.Maps
import CampusHub.Foundations.Transactions

/-!
# The tables of posts, comments and audits

* `Blog`, `BlogComments`, `BlogCommentHideAudit`, `BlogReplyHideAudit` — the rows.
* `Tables` — the four tables, and `Row`, the names of their rows.
* `lockVisibleBlog`, … — the statements of `BlogCommentsMapper.xml` and `BlogMapper.xml`, under their
  names. `held` says whether the row that a statement locks is there.

The statements are translated with their `WHERE` conditions as they stand in the mappers, one definition for
each, under its name; statements that differ in one condition share a definition with a parameter. A
statement answers a value, a change of the tables, and whether the row that it locks is there. Deleted rows
do not occur: the service withdraws and hides, and so do these tables.

An `UPDATE` that finds its row but would change it to a value that its column cannot hold fails, which is
why some answers are optional; what the programs make of a failed statement is in `Content.Writers`.

**Left out.** The creation times, which nothing compares, and the indexes that make the statements fast.
-/

namespace CampusHub.Content

open CampusHub.Foundations.Maps CampusHub.Foundations.Transactions

/-- A row of `tb_blog`. Source: `hmdp.sql` 24–36, `V006`, `V010`. -/
structure Blog where
  shopId : Option ℤ
  userId : ℕ
  title : Text
  images : Text
  content : Text
  liked : Option ℕ
  comments : Option ℕ
  withdrawn : ℕ
  deriving DecidableEq

/-- A row of `tb_blog_comments`. Source: `hmdp.sql` 50–62. -/
structure BlogComments where
  userId : ℕ
  blogId : ℕ
  parentId : ℕ
  answerId : ℕ
  content : Text
  liked : Option ℕ
  status : Option ℕ
  deriving DecidableEq

/-- A row of `tb_blog_comment_hide_audit`, under its unique `comment_id`. Source: `V008` 5–16. -/
structure BlogCommentHideAudit where
  blogId : ℕ
  operatorUserId : ℕ
  reason : Text
  fromStatus : ℕ
  toStatus : ℕ
  deriving DecidableEq

/-- A row of `tb_blog_reply_hide_audit`, under its unique `reply_id`. Source: `V013` 5–17. -/
structure BlogReplyHideAudit where
  blogId : ℕ
  rootCommentId : ℕ
  operatorUserId : ℕ
  reason : Text
  fromStatus : ℕ
  toStatus : ℕ
  deriving DecidableEq

/-- The committed rows. -/
structure Tables where
  blogs : FiniteMap ℕ Blog
  comments : FiniteMap ℕ BlogComments
  commentAudits : FiniteMap ℕ BlogCommentHideAudit
  replyAudits : FiniteMap ℕ BlogReplyHideAudit

/-- The names of the rows. -/
inductive Row where
  | blog (id : ℕ)
  | comment (id : ℕ)
  | commentAudit (commentId : ℕ)
  | replyAudit (replyId : ℕ)
  deriving DecidableEq

/-- The largest value of an `INT UNSIGNED` column. -/
def uintMax : ℕ := 4294967295

/-- What tells a first-level comment from a direct reply: `parent_id = 0 AND answer_id = 0`, and
`parent_id > 0 AND answer_id = parent_id`. -/
inductive Level where
  | firstLevel
  | directReply
  deriving DecidableEq

def Level.fits : Level → BlogComments → Bool
  | .firstLevel, row => row.parentId = 0 ∧ row.answerId = 0
  | .directReply, row => 0 < row.parentId ∧ row.answerId = row.parentId

namespace Tables

variable (t : Tables)

/-- The row of a comment if it belongs to the post. -/
def commentOf (blogId id : ℕ) : Option BlogComments :=
  (t.comments.lookup id).filter fun row => row.blogId = blogId

/-! ## Plain reads -/

/-- Source: `BlogCommentsMapper.xml` 16–19. -/
def findVisibleRoot (commentId : ℕ) : Option BlogComments :=
  (t.comments.lookup commentId).filter fun row =>
    Level.firstLevel.fits row && decide (row.status = some 0)

/-- A comment of a user that is shown or that the user withdrew. -/
def findOwned (level : Level) (id userId : ℕ) : Option BlogComments :=
  (t.comments.lookup id).filter fun row =>
    decide (row.userId = userId) && level.fits row &&
      decide (row.status = some 0 ∨ row.status = some 3)

/-- Source: `BlogCommentsMapper.xml` 20–24. -/
def findOwnedDirectReply (replyId userId : ℕ) : Option BlogComments :=
  t.findOwned .directReply replyId userId

/-- Source: `BlogCommentsMapper.xml` 46–50. -/
def findOwnedFirstLevelComment (commentId userId : ℕ) : Option BlogComments :=
  t.findOwned .firstLevel commentId userId

/-- A comment that is shown or hidden. -/
def findModeratable (level : Level) (id : ℕ) : Option BlogComments :=
  (t.comments.lookup id).filter fun row =>
    level.fits row && decide (row.status = some 0 ∨ row.status = some 2)

/-- Source: `BlogCommentsMapper.xml` 62–65. -/
def findModeratableFirstLevelComment (commentId : ℕ) : Option BlogComments :=
  t.findModeratable .firstLevel commentId

/-- Source: `BlogCommentsMapper.xml` 102–105. -/
def findModeratableDirectReply (replyId : ℕ) : Option BlogComments :=
  t.findModeratable .directReply replyId

/-- `BaseMapper.selectById`. -/
def selectById (id : ℕ) : Option BlogComments := t.comments.lookup id

/-! ## Statements on a post -/

/-- A statement on a post that changes nothing. -/
def lockBlogWhere {β : Type} (id : ℕ) (value : Option Blog → β) : Answer Tables β where
  value := value (t.blogs.lookup id)
  held := (t.blogs.lookup id).isSome

/-- `UPDATE tb_blog SET … WHERE id = #{id} AND …`, and the number of rows. -/
def updateBlog (id : ℕ) (p : Blog → Bool) (f : Blog → Blog) : Answer Tables ℕ :=
  match (t.blogs.lookup id).filter p with
  | some row =>
    { value := 1, write := fun s => { s with blogs := s.blogs.insert id (f row) }, held := true }
  | none => { value := 0, held := (t.blogs.lookup id).isSome }

/-- Source: `BlogCommentsMapper.xml` 4–6. -/
def lockVisibleBlog (blogId : ℕ) : Answer Tables (Option ℕ) :=
  t.lockBlogWhere blogId fun row => (row.filter fun b => b.withdrawn = 0).map fun _ => blogId

/-- Source: `BlogCommentsMapper.xml` 7–9. -/
def lockBlog (blogId : ℕ) : Answer Tables (Option ℕ) :=
  t.lockBlogWhere blogId fun row => row.map fun _ => blogId

/-- A counter and one more, if the column can hold it. -/
def bump (n : ℕ) : Option ℕ := if n < uintMax then some (n + 1) else none

/-- Source: `BlogCommentsMapper.xml` 13–15. A counter out of range fails the statement. -/
def incrementCommentCount (blogId : ℕ) : Answer Tables (Option ℕ) :=
  match (t.blogs.lookup blogId).filter fun b => b.withdrawn = 0 with
  | some row =>
    match bump (row.comments.getD 0) with
    | some n =>
      { value := some 1
        write := fun s => { s with blogs := s.blogs.insert blogId { row with comments := some n } }
        held := true }
    | none => { value := none, held := true }
  | none => { value := some 0, held := (t.blogs.lookup blogId).isSome }

/-- `CASE WHEN COALESCE(comments, 0) > 0 THEN comments - 1 ELSE 0 END`. -/
def decremented (comments : Option ℕ) : ℕ :=
  if 0 < comments.getD 0 then comments.getD 0 - 1 else 0

/-- Source: `BlogCommentsMapper.xml` 36–40. -/
def decrementCommentCount (blogId : ℕ) : Answer Tables ℕ :=
  t.updateBlog blogId (fun _ => true) fun row => { row with comments := some (decremented row.comments) }

/-- Source: `BlogMapper.xml` 4–7. -/
def findBlogForAuthorEdit (id : ℕ) : Answer Tables (Option Blog) :=
  t.lockBlogWhere id fun row => row.filter fun b => b.withdrawn = 0

/-- Source: `BlogMapper.xml` 8–11. -/
def editBlogFields (id userId : ℕ) (title images content : Text) : Answer Tables ℕ :=
  t.updateBlog id (fun row => decide (row.userId = userId ∧ row.withdrawn = 0)) fun row =>
    { row with title := title, images := images, content := content }

/-- Source: `BlogMapper.xml` 12–14. -/
def findBlogForAuthorWithdrawal (id : ℕ) : Answer Tables (Option Blog) :=
  t.lockBlogWhere id fun row => row

/-- Source: `BlogMapper.xml` 15–18. -/
def withdrawOwnedBlog (id userId : ℕ) : Answer Tables ℕ :=
  t.updateBlog id (fun row => decide (row.userId = userId ∧ row.withdrawn = 0)) fun row =>
    { row with withdrawn := 1 }

/-- `update().setSql("liked = liked + 1").eq("id", id)`; the logic delete adds `withdrawn = 0`.
`NULL + 1` is `NULL`, and a counter out of range fails the statement. Source:
`BlogServiceImpl.java` 164. -/
def incrementLiked (id : ℕ) : Answer Tables (Option ℕ) :=
  match (t.blogs.lookup id).filter fun b => b.withdrawn = 0 with
  | some row =>
    match row.liked.map bump with
    | none => { value := some 1, held := true }
    | some none => { value := none, held := true }
    | some (some n) =>
      { value := some 1
        write := fun s => { s with blogs := s.blogs.insert id { row with liked := some n } }
        held := true }
  | none => { value := some 0, held := (t.blogs.lookup id).isSome }

/-- `update().setSql("liked = liked - 1").eq("id", id).gt("liked", 0)`. Source:
`BlogServiceImpl.java` 170. -/
def decrementLiked (id : ℕ) : Answer Tables ℕ :=
  t.updateBlog id (fun row => decide (row.withdrawn = 0 ∧ 0 < row.liked.getD 0)) fun row =>
    { row with liked := row.liked.map (· - 1) }

/-! ## Statements on a comment -/

/-- `SELECT … WHERE id = #{id} AND blog_id = #{blogId} AND … FOR UPDATE`. -/
def lockComment (id blogId : ℕ) (p : BlogComments → Bool) : Answer Tables (Option BlogComments) where
  value := (t.commentOf blogId id).filter p
  held := (t.comments.lookup id).isSome

/-- `UPDATE tb_blog_comments SET status = … WHERE id = #{id} AND blog_id = #{blogId} AND …
AND status = 0`. -/
def updateStatus (id blogId : ℕ) (p : BlogComments → Bool) (status : ℕ) : Answer Tables ℕ :=
  match (t.commentOf blogId id).filter fun row => p row && decide (row.status = some 0) with
  | some row =>
    { value := 1
      write := fun s => { s with comments := s.comments.insert id { row with status := some status } }
      held := true }
  | none => { value := 0, held := (t.comments.lookup id).isSome }

/-- Source: `BlogCommentsMapper.xml` 41–45. -/
def lockVisibleRoot (commentId blogId : ℕ) : Answer Tables (Option BlogComments) :=
  t.lockComment commentId blogId fun row => Level.firstLevel.fits row && decide (row.status = some 0)

def lockOwned (level : Level) (id blogId userId : ℕ) : Answer Tables (Option BlogComments) :=
  t.lockComment id blogId fun row =>
    decide (row.userId = userId) && level.fits row &&
      decide (row.status = some 0 ∨ row.status = some 3)

/-- Source: `BlogCommentsMapper.xml` 25–30. -/
def lockOwnedDirectReply (replyId blogId userId : ℕ) : Answer Tables (Option BlogComments) :=
  t.lockOwned .directReply replyId blogId userId

/-- Source: `BlogCommentsMapper.xml` 51–56. -/
def lockOwnedFirstLevelComment (commentId blogId userId : ℕ) : Answer Tables (Option BlogComments) :=
  t.lockOwned .firstLevel commentId blogId userId

def withdrawOwned (level : Level) (id blogId userId : ℕ) : Answer Tables ℕ :=
  t.updateStatus id blogId (fun row => decide (row.userId = userId) && level.fits row) 3

/-- Source: `BlogCommentsMapper.xml` 31–35. -/
def withdrawDirectReply (replyId blogId userId : ℕ) : Answer Tables ℕ :=
  t.withdrawOwned .directReply replyId blogId userId

/-- Source: `BlogCommentsMapper.xml` 57–61. -/
def withdrawFirstLevelComment (commentId blogId userId : ℕ) : Answer Tables ℕ :=
  t.withdrawOwned .firstLevel commentId blogId userId

/-- Source: `BlogCommentsMapper.xml` 66–70. -/
def lockModeratableFirstLevelComment (commentId blogId : ℕ) : Answer Tables (Option BlogComments) :=
  t.lockComment commentId blogId fun row =>
    Level.firstLevel.fits row && decide (row.status = some 0 ∨ row.status = some 2)

/-- Source: `BlogCommentsMapper.xml` 71–74. -/
def hideFirstLevelComment (commentId blogId : ℕ) : Answer Tables ℕ :=
  t.updateStatus commentId blogId Level.firstLevel.fits 2

/-- Source: `BlogCommentsMapper.xml` 118–122. -/
def lockDirectReplyRoot (rootId blogId : ℕ) : Answer Tables (Option ℕ) where
  value := ((t.commentOf blogId rootId).filter Level.firstLevel.fits).map fun _ => rootId
  held := (t.comments.lookup rootId).isSome

/-- `parent_id = #{rootId} AND answer_id = #{rootId} AND parent_id > 0`. -/
def repliesTo (rootId : ℕ) (row : BlogComments) : Bool :=
  row.parentId = rootId ∧ row.answerId = rootId ∧ 0 < row.parentId

/-- Source: `BlogCommentsMapper.xml` 123–128. -/
def lockModeratableDirectReply (replyId blogId rootId : ℕ) : Answer Tables (Option BlogComments) :=
  t.lockComment replyId blogId fun row =>
    repliesTo rootId row && decide (row.status = some 0 ∨ row.status = some 2)

/-- Source: `BlogCommentsMapper.xml` 129–133. -/
def hideDirectReply (replyId blogId rootId : ℕ) : Answer Tables ℕ :=
  t.updateStatus replyId blogId (repliesTo rootId) 2

/-- `BaseMapper.insert` of a comment under the id that `AUTO_INCREMENT` gives it. -/
def insertComment (id : ℕ) (comment : BlogComments) : Answer Tables ℕ where
  value := 1
  write := fun s => { s with comments := s.comments.insert id comment }
  held := true

/-! ## Statements on an audit -/

/-- Source: `BlogCommentsMapper.xml` 75–79. -/
def findFirstLevelHideAudit (commentId blogId : ℕ) : Answer Tables (Option BlogCommentHideAudit) where
  value := (t.commentAudits.lookup commentId).filter fun audit =>
    decide (audit.blogId = blogId ∧ audit.fromStatus = 0 ∧ audit.toStatus = 2)
  held := (t.commentAudits.lookup commentId).isSome

/-- A second audit of a comment fails the statement. Source: `BlogCommentsMapper.xml` 80–83, `V008` 15. -/
def insertFirstLevelHideAudit (commentId blogId operatorUserId : ℕ) (reason : Text) :
    Answer Tables (Option ℕ) :=
  if (t.commentAudits.lookup commentId).isSome then { value := none, held := true }
  else
    { value := some 1
      write := fun s =>
        { s with
          commentAudits := s.commentAudits.insert commentId ⟨blogId, operatorUserId, reason, 0, 2⟩ }
      held := true }

/-- Source: `BlogCommentsMapper.xml` 134–139. -/
def findDirectReplyHideAudit (replyId blogId rootId : ℕ) :
    Answer Tables (Option BlogReplyHideAudit) where
  value := (t.replyAudits.lookup replyId).filter fun audit =>
    decide (audit.blogId = blogId ∧ audit.rootCommentId = rootId ∧ audit.fromStatus = 0 ∧
      audit.toStatus = 2)
  held := (t.replyAudits.lookup replyId).isSome

/-- A second audit of a reply fails the statement. Source: `BlogCommentsMapper.xml` 140–144, `V013` 16. -/
def insertDirectReplyHideAudit (replyId blogId rootId operatorUserId : ℕ) (reason : Text) :
    Answer Tables (Option ℕ) :=
  if (t.replyAudits.lookup replyId).isSome then { value := none, held := true }
  else
    { value := some 1
      write := fun s =>
        { s with
          replyAudits := s.replyAudits.insert replyId ⟨blogId, rootId, operatorUserId, reason, 0, 2⟩ }
      held := true }

end Tables

end CampusHub.Content
