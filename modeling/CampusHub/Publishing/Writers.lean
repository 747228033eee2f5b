import CampusHub.Content.Writers
import CampusHub.Publishing.Tables

/-!
# The publication of posts

* `Surroundings` — what the clocks, `AUTO_INCREMENT` and the table of follows answer a call.
* `saveBlog`, `publish` — the transactions, statement by statement.
* `Call`, `publishingSystem` — the calls, and all of them at once.

A publication is one transaction: it reserves the receipt of its key, if it has one, inserts the post, reads
the followers of the author, enqueues a delivery for each of them and completes the receipt. A request with
a key that finds its receipt compares the digests and returns the post of the receipt, or is refused.

`Surroundings` holds what a call is given from outside the tables: the id that `AUTO_INCREMENT` hands out,
the followers, and two clocks. `publishingSystem` admits a call only with an id that is new; everything else
in it is arbitrary, so that what is proved holds for all clocks and followers.

**Left out.** What is delivered after the commit, which is in `Publishing.Delivery`, and the session of the
user.
-/

namespace CampusHub.Publishing

open CampusHub.Content CampusHub.Domain CampusHub.Foundations.Transactions

/-- What a publication returns: the id of the post, and the deliveries that are registered for after the
commit. -/
structure Publication where
  blogId : ℕ
  deliveries : List BlogFeedDelivery
  deriving DecidableEq

/-- A program of the publishing services. -/
abbrev PublishingTxn := Txn Tables Row Unit Failure

def refuse {β : Type} (code : ErrorCode) : PublishingTxn β := Txn.raise (.business { errorCode := code })

/-- `if (value == null) throw …` -/
def orRefuse {β : Type} (value : Option β) (code : ErrorCode) : PublishingTxn β :=
  match value with
  | some b => pure b
  | none => refuse code

/-- What a call gets from outside the tables: the id of its post, the ids of the author's followers, the
time of the application and that of the database. -/
structure Surroundings where
  id : ℕ
  followers : List (Option ℤ)
  now : ℤ
  utc : ℕ
  deriving DecidableEq

/-! ## Deliveries -/

/-- Source: `BlogFeedDeliveryService.java` 111. -/
def validScore (score : ℤ) : Bool := 0 < score ∧ score ≤ 9007199254740991

/-- `new LinkedHashSet<>(recipients)`: each once, in the order of their first places. -/
def distinct (recipients : List ℕ) : List ℕ := recipients.reverse.dedup.reverse

/-- Source: `BlogFeedDeliveryService.java` 53–58. A duplicate fails the statement. -/
def enqueueAll (blogId score utc : ℕ) : List ℕ → PublishingTxn Unit
  | [] => pure ()
  | recipient :: rest => do
    let rows ← Txn.on (.delivery blogId recipient) fun (t : Tables) =>
      t.enqueue blogId recipient score utc
    let rows ← orRefuse rows .internalError
    if rows ≠ 1 then refuse .operationFailed else enqueueAll blogId score utc rest

/-- The deliveries of a batch. -/
def batchOf (blogId score : ℕ) (recipients : List ℕ) : List BlogFeedDelivery :=
  recipients.map fun recipient => ⟨blogId, recipient, score⟩

/-- Source: `BlogFeedDeliveryService.java` 44–70. -/
def enqueue (blogId : ℕ) (recipients : List (Option ℤ)) (scoreMillis : ℤ) (utc : ℕ) :
    PublishingTxn (List BlogFeedDelivery) :=
  if blogId = 0 ∨ validScore scoreMillis = false then refuse .operationFailed
  else do
    let recipients ← orRefuse (recipients.mapM positive) .operationFailed
    enqueueAll blogId scoreMillis.toNat utc (distinct recipients)
    pure (batchOf blogId scoreMillis.toNat (distinct recipients))

/-! ## Posts -/

/-- Source: `BlogServiceImpl.java` 191–219. -/
def saveBlog (blog : Option NewBlog) (user : Option ℤ) (env : Surroundings) : PublishingTxn Publication := do
  let blog ← orRefuse blog .validationFailed
  if blog.shopId.any (fun id => decide (id.toInt ≤ 0)) then
    Txn.raise (.business ⟨.validationFailed, "门店ID必须为正数"⟩)
  else if blog.title.all (fun title => title.units.isBlank) then
    Txn.raise (.business ⟨.validationFailed, "标题不能为空"⟩)
  else do
    let userId ← orRefuse (positive user) .authenticationFailed
    let rows ← Txn.on (.blog env.id) fun (t : Tables) => t.insertBlog env.id userId blog
    let rows ← orRefuse rows .internalError
    if rows ≠ 1 ∨ env.id = 0 then Txn.raise (.business ⟨.operationFailed, "动态发布失败"⟩)
    else do
      let followers ← Txn.read fun (_ : Tables) => env.followers
      let deliveries ← enqueue env.id followers env.now env.utc
      pure ⟨env.id, deliveries⟩

/-- The constraints of a request. Source: `BlogCreateRequest.java` 13–29. -/
def valid (request : BlogCreateRequest) : Bool :=
  request.shopId.all (fun id => decide (0 < id.toInt)) &&
    (notBlank 255 (request.title.map (·.units))).isSome &&
    request.images.all (fun images => decide (images.units.length ≤ 2048)) &&
    (notBlank 2048 (request.content.map (·.units))).isSome &&
    (request.shopId.isNone || request.images.any fun images => !images.units.isBlank)

/-- A unit of a request key: `[A-Za-z0-9_-]`. -/
def isKeyUnit (u : Fin 65536) : Bool :=
  (65 ≤ u.val ∧ u.val ≤ 90) ∨ (97 ≤ u.val ∧ u.val ≤ 122) ∨ (48 ≤ u.val ∧ u.val ≤ 57) ∨
    u.val = 95 ∨ u.val = 45

/-- Source: `BlogPublicationService.java` 28 and 39–43. -/
def validateKey (key : Option Text) : Option Text :=
  key.filter fun key => key.all isKeyUnit && decide (1 ≤ key.length ∧ key.length ≤ 64)

/-- What a call does that finds its receipt. Source: `BlogPublicationService.java` 63–71. -/
def replay (userId : ℕ) (key : Text) (hash : List Char) : PublishingTxn Publication := do
  let receipt ← Txn.on (.request userId key) fun (t : Tables) => t.findForReplay userId key
  let receipt ← orRefuse receipt .internalError
  if hash ≠ receipt.requestHash then refuse .conflict
  else match receipt.blogId with
    | some blogId => if blogId = 0 then refuse .internalError else pure ⟨blogId, []⟩
    | none => refuse .internalError

/-- What a call does that has reserved its receipt. Source: `BlogPublicationService.java` 74–83. -/
def create (userId : ℕ) (key : Text) (hash : List Char) (blog : NewBlog) (user : Option ℤ)
    (env : Surroundings) : PublishingTxn Publication := do
  let created ← saveBlog (some blog) user env
  if created.blogId = 0 then refuse .internalError
  else do
    let rows ← Txn.on (.request userId key) fun (t : Tables) =>
      t.complete userId key hash created.blogId
    if rows ≠ 1 then refuse .operationFailed else pure created

/-- Source: `BlogPublicationService.java` 45–88. -/
def publish (sha256 : List UInt8 → List UInt8) (request : Option BlogCreateRequest)
    (key : Option Text) (user : Option ℤ) (env : Surroundings) : PublishingTxn Publication := do
  let userId ← orRefuse (positive user) .authenticationFailed
  match validateKey key with
  | none => Txn.raise (.business ⟨.validationFailed, "发布请求编号格式无效"⟩)
  | some key => do
    let request ← orRefuse (request.filter valid) .validationFailed
    let blog := toBlog request
    let hash := fingerprint sha256 blog
    let reserved ← Txn.on (.request userId key) fun (t : Tables) => t.reserve userId key hash
    match reserved with
    | none => replay userId key hash
    | some rows => if rows ≠ 1 then refuse .operationFailed else create userId key hash blog user env

/-! ## All together -/

/-- A publication without a key, and one with a key. -/
inductive Call where
  | saveBlog (blog : Option NewBlog) (user : Option ℤ) (env : Surroundings)
  | publish (request : Option BlogCreateRequest) (key : Option Text) (user : Option ℤ)
      (env : Surroundings)
  deriving DecidableEq

def Call.env : Call → Surroundings
  | saveBlog _ _ env => env
  | publish _ _ _ env => env

def Call.program (sha256 : List UInt8 → List UInt8) : Call → PublishingTxn Publication
  | saveBlog blog user env => Publishing.saveBlog blog user env
  | publish request key user env => Publishing.publish sha256 request key user env

/-- All calls at once. A failed statement raises `DataAccessException`, which becomes an `INTERNAL_ERROR`; a
failed commit is outside the `try`. An id is new: no row has it, nor any other call. -/
def publishingSystem (sha256 : List UInt8 → List UInt8) :
    System Call Tables Row Unit Failure Publication where
  program := Call.program sha256
  fault _ := .business { errorCode := .internalError }
  lost := .raised
  admits calls t c := decide (0 < c.env.id ∧ t.blogs.lookup c.env.id = none) &&
    calls.all fun d => decide (d.env.id ≠ c.env.id)

end CampusHub.Publishing
