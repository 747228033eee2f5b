import CampusHub.Content.Tables
import CampusHub.Foundations.Decimal
import CampusHub.Foundations.Serializability

/-!
# The writers of posts and comments

* `createComment`, `createReply`, `withdrawReply`, `withdrawComment`, `hideComment`, `hideReply`,
  `withdrawBlog`, `editBlog`, `likeBlog` — the transactions, statement by statement.
* `Call`, `Call.program`, `contentSystem` — the calls, and all of them at once.

Each writer is one transaction, written as a program of `Foundations.Transactions` in the order of the
source: the reads that find out which post is concerned, the lock of the post, the locks of the comments,
the checks, and the writes with the numbers of rows that they must touch. The withdrawals of a comment and
of a reply are one definition at two levels, and the two hides share their end, as in the source.

`contentSystem` lets any callers run them at once. A statement or a commit may fail at any moment, and what
the caller is told then is part of the system, since the service catches data-access exceptions in some
places and not in others.

**Left out.** How the user of a call was authenticated, and the creation times of rows and answers.
-/

namespace CampusHub.Content

open CampusHub.Domain CampusHub.Foundations.Decimal CampusHub.Foundations.Transactions

/-- What a call is refused with: a business exception, or an exception that no one translates. -/
inductive Failure where
  | business (e : BusinessException)
  | raised
  deriving DecidableEq

/-- Source: `BlogCommentItem.java`, without the creation time. -/
structure BlogCommentItem where
  id : String
  blogId : String
  userId : String
  content : Text
  deriving DecidableEq

/-- Source: `BlogCommentsServiceImpl.java` 370–378. -/
def toItem (id : ℕ) (row : BlogComments) : BlogCommentItem :=
  ⟨decimal id, decimal row.blogId, decimal row.userId, row.content⟩

/-- The sorted sets `blog:liked:<id>`: the score of each user. -/
abbrev Likes := ℕ → ℤ → Option ℕ

/-- A program of the content services; it returns an item or nothing. -/
abbrev ContentTxn := Txn Tables Row Likes Failure

def refuse {β : Type} (code : ErrorCode) : ContentTxn β := Txn.raise (.business { errorCode := code })

/-- `if (value == null) throw …` -/
def orRefuse {β : Type} (value : Option β) (code : ErrorCode) : ContentTxn β :=
  match value with
  | some b => pure b
  | none => refuse code

/-- A statement whose row must be there. -/
def found {β : Type} (statement : ContentTxn (Option β)) : ContentTxn β := do
  let row ← statement
  orRefuse row .notFound

/-- A write that must touch one row. -/
def one (statement : ContentTxn ℕ) : ContentTxn Unit := do
  let rows ← statement
  if rows = 1 then pure () else refuse .operationFailed

/-- A write that must touch one row and may fail in the database, which `catch` translates. -/
def oneOrFail (statement : ContentTxn (Option ℕ)) : ContentTxn Unit := do
  let rows ← statement
  let rows ← orRefuse rows .internalError
  if rows = 1 then pure () else refuse .operationFailed

section bind

variable {β γ : Type} {k : β → ContentTxn γ} {row : Row} {code : ErrorCode}

/-- A value that is there is used. -/
@[simp] theorem orRefuse_some (b : β) : orRefuse (some b) code = pure b := rfl

/-- Where there is none, the call is refused. -/
@[simp] theorem orRefuse_none : orRefuse (none : Option β) code = refuse code := rfl

/-- Nothing follows a refusal. -/
@[simp] theorem refuse_bind : (refuse code >>= k) = refuse code := rfl

/-- A statement whose row must be there, and what follows. -/
@[simp] theorem found_on_bind (statement : Tables → Answer Tables (Option β)) :
    (found (.on row statement) >>= k) =
      .exec row statement fun v => orRefuse v .notFound >>= k := rfl

/-- A read whose row must be there, and what follows. -/
@[simp] theorem found_read_bind (query : Tables → Option β) :
    (found (.read query) >>= k) = .select query fun v => orRefuse v .notFound >>= k := rfl

/-- A write that must touch one row, and what follows. -/
@[simp] theorem one_on_bind {k : Unit → ContentTxn γ} (statement : Tables → Answer Tables ℕ) :
    (one (.on row statement) >>= k) =
      .exec row statement fun n => if n = 1 then k () else refuse .operationFailed := by
  show Txn.exec row statement (fun n => (if n = 1 then pure () else refuse .operationFailed) >>= k) = _
  congr 1
  funext n
  split <;> rfl

/-- The same for a write that may fail. -/
@[simp] theorem oneOrFail_on_bind {k : Unit → ContentTxn γ}
    (statement : Tables → Answer Tables (Option ℕ)) :
    (oneOrFail (.on row statement) >>= k) = .exec row statement fun v =>
      orRefuse v .internalError >>= fun n => if n = 1 then k () else refuse .operationFailed := by
  show Txn.exec row statement (fun v => (orRefuse v .internalError >>= fun n =>
    if n = 1 then pure () else refuse .operationFailed) >>= k) = _
  congr 1
  funext v
  cases v with
  | none => rfl
  | some n =>
    show ((if n = 1 then pure () else refuse .operationFailed) >>= k) = if n = 1 then _ else _
    split <;> rfl

/-- A refusal changes nothing. -/
@[simp] theorem acts_refuse {w : Tables → Tables} {t t' : Tables} {r : Except Failure γ} :
    (refuse code : ContentTxn γ).Acts w t r t' ↔
      r = .error (.business { errorCode := code }) ∧ t' = t := Iff.rfl

variable {p : ContentTxn γ} {w : Tables → Tables} {t t' : Tables} {a : γ}

/-- A call that succeeds found what it asked for. -/
theorem acts_orRefuse_ok {value : Option β} :
    (orRefuse value code >>= k).Acts w t (.ok a) t' ↔
      ∃ b, value = some b ∧ (k b).Acts w t (.ok a) t' := by
  cases value <;> simp

/-- A call that succeeds was not refused. -/
theorem acts_ite_ok {P : Prop} [Decidable P] :
    (if P then p else refuse code).Acts w t (.ok a) t' ↔ P ∧ p.Acts w t (.ok a) t' := by
  split <;> simp_all

end bind

/-! ## Comments -/

/-- The end of `createComment` and `createReply`: the row, the counter of its post, and the row again. -/
def addComment (id : ℕ) (comment : BlogComments) : ContentTxn (Option BlogCommentItem) := do
  one (.on (.comment id) fun _ => Tables.insertComment id comment)
  oneOrFail (.on (.blog comment.blogId) fun t => t.incrementCommentCount comment.blogId)
  let stored ← Txn.read fun t => t.selectById id
  let stored ← orRefuse stored .operationFailed
  pure (some (toItem id stored))

/-- Source: `BlogCommentsServiceImpl.java` 37–64. -/
def createComment (request : Option BlogCommentCreateRequest) (user : Option ℤ) (id : ℕ) :
    ContentTxn (Option BlogCommentItem) := do
  let valid ← orRefuse (BlogCommentCreateRequest.validated request) .validationFailed
  let userId ← orRefuse (positive user) .authenticationFailed
  let _ ← found (.on (.blog valid.1) fun t => t.lockVisibleBlog valid.1)
  addComment id
    { userId := userId, blogId := valid.1, parentId := 0, answerId := 0, content := valid.2
      liked := some 0, status := some 0 }

/-- Source: `BlogCommentsServiceImpl.java` 66–98. -/
def createReply (commentId : Option ℤ) (request : Option BlogCommentReplyRequest) (user : Option ℤ)
    (id : ℕ) : ContentTxn (Option BlogCommentItem) := do
  let commentId ← orRefuse (positive commentId) .validationFailed
  let content ← orRefuse (BlogCommentReplyRequest.validated request) .validationFailed
  let userId ← orRefuse (positive user) .authenticationFailed
  let root ← found (Txn.read fun t => t.findVisibleRoot commentId)
  let _ ← found (.on (.blog root.blogId) fun t => t.lockVisibleBlog root.blogId)
  let _ ← found (.on (.comment commentId) fun t => t.lockVisibleRoot commentId root.blogId)
  addComment id
    { userId := userId, blogId := root.blogId, parentId := commentId, answerId := commentId
      content := content, liked := some 0, status := some 0 }

/-- The withdrawal of a comment or reply by its author. -/
def withdrawOwned (level : Level) (id : Option ℤ) (user : Option ℤ) :
    ContentTxn (Option BlogCommentItem) := do
  let id ← orRefuse (positive id) .validationFailed
  let userId ← orRefuse (positive user) .authenticationFailed
  let candidate ← found (Txn.read fun t => t.findOwned level id userId)
  let _ ← found (.on (.blog candidate.blogId) fun t => t.lockBlog candidate.blogId)
  let current ← found (.on (.comment id) fun t => t.lockOwned level id candidate.blogId userId)
  if current.status = some 3 then pure none
  else do
    one (.on (.comment id) fun t => t.withdrawOwned level id candidate.blogId userId)
    one (.on (.blog candidate.blogId) fun t => t.decrementCommentCount candidate.blogId)
    pure none

/-- Source: `BlogCommentsServiceImpl.java` 135–160. -/
def withdrawReply (replyId user : Option ℤ) : ContentTxn (Option BlogCommentItem) :=
  withdrawOwned .directReply replyId user

/-- Source: `BlogCommentsServiceImpl.java` 162–187. -/
def withdrawComment (commentId user : Option ℤ) : ContentTxn (Option BlogCommentItem) :=
  withdrawOwned .firstLevel commentId user

/-- The end of `hideComment` and `hideReply`: a row that is hidden must have its audit, any other is
hidden, counted out and audited. -/
def hideLocked {β : Type} (blogId : ℕ) (current : BlogComments) (audit : ContentTxn (Option β))
    (hide : ContentTxn ℕ) (insertAudit : ContentTxn (Option ℕ)) :
    ContentTxn (Option BlogCommentItem) :=
  if current.status = some 2 then do
    let _ ← found audit
    pure none
  else do
    one hide
    one (.on (.blog blogId) fun t => t.decrementCommentCount blogId)
    oneOrFail insertAudit
    pure none

/-- Source: `BlogCommentsServiceImpl.java` 189–224. -/
def hideComment (commentId : Option ℤ) (request : Option BlogCommentHideRequest) (user : Option ℤ) :
    ContentTxn (Option BlogCommentItem) := do
  let commentId ← orRefuse (positive commentId) .validationFailed
  let reason ← orRefuse (BlogCommentHideRequest.validated request) .validationFailed
  let operator ← orRefuse (positive user) .authenticationFailed
  let candidate ← found (Txn.read fun t => t.findModeratableFirstLevelComment commentId)
  let blogId := candidate.blogId
  let _ ← found (.on (.blog blogId) fun t => t.lockBlog blogId)
  let current ← found
    (.on (.comment commentId) fun t => t.lockModeratableFirstLevelComment commentId blogId)
  hideLocked blogId current
    (.on (.commentAudit commentId) fun t => t.findFirstLevelHideAudit commentId blogId)
    (.on (.comment commentId) fun t => t.hideFirstLevelComment commentId blogId)
    (.on (.commentAudit commentId) fun t =>
      t.insertFirstLevelHideAudit commentId blogId operator reason)

/-- The root comes between the post and the reply. Source: `BlogCommentsServiceImpl.java` 264–307. -/
def hideReply (replyId : Option ℤ) (request : Option BlogCommentHideRequest) (user : Option ℤ) :
    ContentTxn (Option BlogCommentItem) := do
  let replyId ← orRefuse (positive replyId) .validationFailed
  let reason ← orRefuse (BlogCommentHideRequest.validated request) .validationFailed
  let operator ← orRefuse (positive user) .authenticationFailed
  let candidate ← found (Txn.read fun t => t.findModeratableDirectReply replyId)
  let blogId := candidate.blogId
  let rootId := candidate.parentId
  let _ ← found (.on (.blog blogId) fun t => t.lockBlog blogId)
  let _ ← found (.on (.comment rootId) fun t => t.lockDirectReplyRoot rootId blogId)
  let current ← found
    (.on (.comment replyId) fun t => t.lockModeratableDirectReply replyId blogId rootId)
  hideLocked blogId current
    (.on (.replyAudit replyId) fun t => t.findDirectReplyHideAudit replyId blogId rootId)
    (.on (.comment replyId) fun t => t.hideDirectReply replyId blogId rootId)
    (.on (.replyAudit replyId) fun t =>
      t.insertDirectReplyHideAudit replyId blogId rootId operator reason)

/-! ## Posts -/

/-- Source: `BlogServiceImpl.java` 53–75. -/
def withdrawBlog (id user : Option ℤ) : ContentTxn (Option BlogCommentItem) := do
  let id ← orRefuse (positive id) .validationFailed
  let userId ← orRefuse (positive user) .authenticationFailed
  let stored ← found (.on (.blog id) fun t => t.findBlogForAuthorWithdrawal id)
  if userId ≠ stored.userId then refuse .authorizationFailed
  else if stored.withdrawn = 1 then pure none
  else do
    one (.on (.blog id) fun t => t.withdrawOwnedBlog id userId)
    pure none

/-- Source: `BlogServiceImpl.java` 77–109. -/
def editBlog (id : Option ℤ) (request : Option BlogEditRequest) (user : Option ℤ) :
    ContentTxn (Option BlogCommentItem) := do
  let id ← orRefuse (positive id) .validationFailed
  let edit ← orRefuse (BlogEditRequest.validated request) .validationFailed
  let userId ← orRefuse (positive user) .authenticationFailed
  let stored ← found (.on (.blog id) fun t => t.findBlogForAuthorEdit id)
  if userId ≠ stored.userId then refuse .authorizationFailed
  else if stored.shopId.isSome ∧ edit.images = [] then
    Txn.raise (.business ⟨.validationFailed, "关联门店的动态图片不能为空"⟩)
  else if stored.title = edit.title ∧ stored.images = edit.images ∧ stored.content = edit.content then
    pure none
  else do
    one (.on (.blog id) fun t => t.editBlogFields id userId edit.title edit.images edit.content)
    pure none

/-- The first like of a user. -/
def like (id : ℕ) (userId : ℤ) (now : ℕ) : ContentTxn Unit := do
  let rows ← Txn.on (.blog id) fun (t : Tables) => t.incrementLiked id
  match rows with
  | none => Txn.raise .raised
  | some rows =>
    if rows = 1 then
      Txn.command fun likes => ((), fun b u => if b = id ∧ u = userId then some now else likes b u)
    else pure ()

def unlike (id : ℕ) (userId : ℤ) : ContentTxn Unit := do
  let rows ← Txn.on (.blog id) fun (t : Tables) => t.decrementLiked id
  if rows = 1 then
    Txn.command fun likes => ((), fun b u => if b = id ∧ u = userId then none else likes b u)
  else pure ()

/-- The first like of a user, and what follows. -/
theorem like_bind {β : Type} {id now : ℕ} {userId : ℤ} {k : Unit → ContentTxn β} :
    (like id userId now >>= k) = .exec (.blog id) (fun t => t.incrementLiked id) fun rows =>
      match rows with
      | none => .raise .raised
      | some rows =>
        if rows = 1 then .send (fun likes => ((), fun b u =>
          if b = id ∧ u = userId then some now else likes b u)) k
        else k () := by
  show Txn.exec _ _ _ = _
  congr 1
  funext rows
  cases rows with
  | none => rfl
  | some rows =>
    show ((if rows = 1 then Txn.command _ else pure ()) >>= k) = if rows = 1 then _ else _
    split <;> rfl

/-- The end of a like, and what follows. -/
theorem unlike_bind {β : Type} {id : ℕ} {userId : ℤ} {k : Unit → ContentTxn β} :
    (unlike id userId >>= k) = .exec (.blog id) (fun t => t.decrementLiked id) fun rows =>
      if rows = 1 then .send (fun likes => ((), fun b u =>
        if b = id ∧ u = userId then none else likes b u)) k
      else k () := by
  show Txn.exec _ _ (fun rows => (if rows = 1 then Txn.command _ else pure ()) >>= k) = _
  congr 1
  funext rows
  split <;> rfl

/-- Redis is asked under the lock of the post, and written before the commit. A caller without an id
fails after the lock. Source: `BlogServiceImpl.java` 155–176. -/
def likeBlog (id user : Option ℤ) (now : ℕ) : ContentTxn (Option BlogCommentItem) := do
  let id ← orRefuse (positive id) .notFound
  let _ ← found (.on (.blog id) fun t => t.findBlogForAuthorEdit id)
  match user with
  | none => Txn.raise .raised
  | some userId => do
    let score ← Txn.command fun (likes : Likes) => (likes id userId, likes)
    if score.isNone then like id userId now else unlike id userId
    pure none

/-! ## All together -/

/-- The calls. A call that inserts carries the id that `AUTO_INCREMENT` will give its row. -/
inductive Call where
  | createComment (request : Option BlogCommentCreateRequest) (user : Option ℤ) (id : ℕ)
  | createReply (commentId : Option ℤ) (request : Option BlogCommentReplyRequest) (user : Option ℤ)
      (id : ℕ)
  | withdrawReply (replyId user : Option ℤ)
  | withdrawComment (commentId user : Option ℤ)
  | hideComment (commentId : Option ℤ) (request : Option BlogCommentHideRequest) (user : Option ℤ)
  | hideReply (replyId : Option ℤ) (request : Option BlogCommentHideRequest) (user : Option ℤ)
  | withdrawBlog (id user : Option ℤ)
  | editBlog (id : Option ℤ) (request : Option BlogEditRequest) (user : Option ℤ)
  | likeBlog (id user : Option ℤ) (now : ℕ)
  deriving DecidableEq

def Call.program : Call → ContentTxn (Option BlogCommentItem)
  | createComment request user id => Content.createComment request user id
  | createReply commentId request user id => Content.createReply commentId request user id
  | withdrawReply replyId user => Content.withdrawReply replyId user
  | withdrawComment commentId user => Content.withdrawComment commentId user
  | hideComment commentId request user => Content.hideComment commentId request user
  | hideReply replyId request user => Content.hideReply replyId request user
  | withdrawBlog id user => Content.withdrawBlog id user
  | editBlog id request user => Content.editBlog id request user
  | likeBlog id user now => Content.likeBlog id user now

/-- The id of the row that a call inserts. -/
def Call.generated : Call → Option ℕ
  | createComment _ _ id => some id
  | createReply _ _ _ id => some id
  | _ => none

/-- All calls at once. A failed statement raises `DataAccessException`, which all but `likeBlog`
translate; a failed commit is outside their `try`. An id is new: no row has it, nor any other call. -/
def contentSystem : System Call Tables Row Likes Failure (Option BlogCommentItem) where
  program := Call.program
  fault
    | .likeBlog _ _ _ => .raised
    | _ => .business { errorCode := .internalError }
  lost := .raised
  admits calls t c :=
    match c.generated with
    | some id =>
      decide (0 < id ∧ t.comments.lookup id = none) &&
        calls.all fun d => decide (d.generated ≠ some id)
    | none => true

end CampusHub.Content
