import CampusHub.Content.Fingerprint
import CampusHub.Content.Tables
import CampusHub.Foundations.Tables
import Mathlib.Data.Finset.Sort
import Mathlib.Data.Prod.Lex

/-!
# The tables of publications

* `BlogPublicationRequest`, `DeliveryRow` — the receipt of a publication, and a pending delivery of a post
  to a follower.
* `Tables` — the receipts, the posts and the pending deliveries, and `Row`, the names of their rows.
* `reserve`, `findForReplay`, `complete`, `insertBlog`, `enqueue` — the statements of a publication.
* `pending`, `completeDelivery`, `failed` — the statements of the workers that deliver.
* `fingerprint` — the digest of a post; `fingerprint_inj` reads it back as far as the digest does.

The statements answer a value and change the tables, or fail, as their mappers say. An insertion that meets
its own key is a `DuplicateKeyException`, which the publication answers by reading the receipt that is
there; a delivery that meets its own key fails the statement and with it the transaction.

The digest is a parameter, a function from bytes to bytes. Nothing is said of it here but that its digits
can be read back; that it tells posts apart is a hypothesis where it is needed, about the posts of one run.

**Left out.** Columns that no statement here reads or writes, and the times at which rows were created.
-/

namespace CampusHub.Publishing

open CampusHub.Content CampusHub.Foundations.Framing CampusHub.Foundations.Maps
  CampusHub.Foundations.Transactions

/-! ## Rows -/

/-- A row of `tb_blog_publication_request`, under its user and its key. Source: `V012` 5–12. -/
structure BlogPublicationRequest where
  requestHash : List Char
  blogId : Option ℕ
  deriving DecidableEq

/-- A row of `tb_blog_feed_delivery`, under its post and its recipient. Source: `V011` 6–16. -/
structure DeliveryRow where
  scoreMillis : ℕ
  attempts : ℕ
  lastError : Option String
  nextAttemptAt : ℕ
  deriving DecidableEq

/-- Source: `BlogFeedDelivery.java`. -/
structure BlogFeedDelivery where
  blogId : ℕ
  recipientUserId : ℕ
  scoreMillis : ℕ
  deriving DecidableEq

/-- The committed rows. -/
structure Tables where
  requests : FiniteMap (ℕ × Text) BlogPublicationRequest
  blogs : FiniteMap ℕ Blog
  deliveries : FiniteMap (ℕ × ℕ) DeliveryRow

/-- The names of the rows. -/
inductive Row where
  | request (userId : ℕ) (requestKey : Text)
  | blog (id : ℕ)
  | delivery (blogId recipientUserId : ℕ)
  deriving DecidableEq

namespace Tables

variable (t : Tables)

/-! ## Receipts -/

/-- The insertion of a receipt; `none` is a `DuplicateKeyException`. A receipt that is there is left to
all readers. Source: `BlogPublicationRequestMapper.java` 7–11. -/
def reserve (userId : ℕ) (requestKey : Text) (requestHash : List Char) : Answer Tables (Option ℕ) :=
  match t.requests.lookup (userId, requestKey) with
  | some _ => { value := none, held := false }
  | none =>
    { value := some 1
      write := fun s => { s with requests := s.requests.insert (userId, requestKey) ⟨requestHash, none⟩ }
      held := true }

/-- `SELECT … FOR SHARE`. Source: `BlogPublicationRequestMapper.java` 13–17. -/
def findForReplay (userId : ℕ) (requestKey : Text) : Answer Tables (Option BlogPublicationRequest) where
  value := t.requests.lookup (userId, requestKey)
  held := false

/-- Source: `BlogPublicationRequestMapper.java` 19–23. -/
def complete (userId : ℕ) (requestKey : Text) (requestHash : List Char) (blogId : ℕ) : Answer Tables ℕ :=
  match (t.requests.lookup (userId, requestKey)).filter
      fun row => decide (row.requestHash = requestHash ∧ row.blogId = none) with
  | some row =>
    { value := 1
      write := fun s =>
        { s with requests := s.requests.insert (userId, requestKey) { row with blogId := some blogId } }
      held := true }
  | none => { value := 0, held := (t.requests.lookup (userId, requestKey)).isSome }

/-! ## Posts and deliveries -/

/-- The row that `save(blog)` inserts; `title`, `images` and `content` are `NOT NULL`. Source:
`BlogServiceImpl.java` 205–210. -/
def rowOf (userId : ℕ) (blog : NewBlog) : Option Blog := do
  let title ← blog.title
  let images ← blog.images
  let content ← blog.content
  pure ⟨blog.shopId.map (·.toInt), userId, title.units, images.units, content.units, some blog.liked,
    some blog.comments, 0⟩

/-- `save(blog)`, which gets the id from `AUTO_INCREMENT`. A column that is null fails the statement. -/
def insertBlog (id userId : ℕ) (blog : NewBlog) : Answer Tables (Option ℕ) :=
  match t.blogs.lookup id, rowOf userId blog with
  | none, some row =>
    { value := some 1, write := fun s => { s with blogs := s.blogs.insert id row }, held := true }
  | _, _ => { value := none, held := false }

/-- Source: `BlogFeedDeliveryMapper.java` 8–13. -/
def enqueue (blogId recipientUserId scoreMillis utc : ℕ) : Answer Tables (Option ℕ) :=
  match t.deliveries.lookup (blogId, recipientUserId) with
  | some _ => { value := none, held := false }
  | none =>
    { value := some 1
      write := fun s => { s with
        deliveries := s.deliveries.insert (blogId, recipientUserId) ⟨scoreMillis, 0, none, utc⟩ }
      held := true }

/-! ## Workers -/

/-- The deliveries that are due, the longest due first. Source: `BlogFeedDeliveryMapper.java` 14–17. -/
def pending (utc : ℕ) : List BlogFeedDelivery :=
  let due := selected (fun _ row => row.nextAttemptAt ≤ utc) t.deliveries
  let order := due.image fun key =>
    toLex (((t.deliveries.lookup key).elim 0 fun row => row.nextAttemptAt), toLex key)
  ((order.sort (· ≤ ·)).take 32).filterMap fun entry =>
    let key := ofLex (ofLex entry).2
    (t.deliveries.lookup key).map fun row => ⟨key.1, key.2, row.scoreMillis⟩

/-- Source: `BlogFeedDeliveryMapper.java` 19–23. -/
def completeDelivery (blogId recipientUserId scoreMillis : ℕ) : Tables × ℕ :=
  let (deliveries, rows) := Foundations.Tables.deleteWhere t.deliveries (blogId, recipientUserId)
    fun row => row.scoreMillis = scoreMillis
  ({ t with deliveries := deliveries }, rows)

/-- Source: `BlogFeedDeliveryMapper.java` 25–30. -/
def failed (utc blogId recipientUserId scoreMillis : ℕ) (reason : String) : Tables × ℕ :=
  let (deliveries, rows) := Foundations.Tables.updateWhere t.deliveries (blogId, recipientUserId)
    (fun row => row.scoreMillis = scoreMillis)
    fun row => { row with
      attempts := min (row.attempts + 1) 1000000
      lastError := some reason
      nextAttemptAt := utc + 5 }
  ({ t with deliveries := deliveries }, rows)

variable {t}

/-- What a worker reads is pending. -/
theorem lookup_of_mem_pending {utc : ℕ} {entry : BlogFeedDelivery} (h : entry ∈ t.pending utc) :
    ∃ row, t.deliveries.lookup (entry.blogId, entry.recipientUserId) = some row ∧
      entry.scoreMillis = row.scoreMillis := by
  unfold pending at h
  obtain ⟨key, -, hkey⟩ := List.mem_filterMap.mp h
  obtain ⟨row, hrow, rfl⟩ := Option.map_eq_some_iff.mp hkey
  exact ⟨row, hrow, rfl⟩

end Tables

/-! ## The digest of a post -/

/-- The two digits of a byte. Source: `BlogPublicationService.java` 100–103. -/
def hexByte (b : UInt8) : List Char := [Nat.digitChar (b.toNat / 16), Nat.digitChar (b.toNat % 16)]

/-- The digest of a post, in hexadecimal digits. Source: `BlogPublicationService.java` 91–105. -/
def fingerprint (sha256 : List UInt8 → List UInt8) (blog : NewBlog) : List Char :=
  (sha256 (fingerprintInput blog)).flatMap hexByte

/-- Two digits say which byte they are. -/
theorem hexByte_selfDelimiting : SelfDelimiting hexByte := by
  refine selfDelimiting_of_length 2 (fun _ => rfl) ?_
  have hinj : ∀ m n : Fin 16, Nat.digitChar m.val = Nat.digitChar n.val → m = n := by decide
  intro a b h
  unfold hexByte at h
  obtain ⟨hhigh, htail⟩ := List.cons.inj h
  obtain ⟨hlow, -⟩ := List.cons.inj htail
  have ha := a.toNat_lt
  have hb := b.toNat_lt
  have hhigh := congrArg Fin.val (hinj ⟨a.toNat / 16, by omega⟩ ⟨b.toNat / 16, by omega⟩ hhigh)
  have hlow := congrArg Fin.val (hinj ⟨a.toNat % 16, by omega⟩ ⟨b.toNat % 16, by omega⟩ hlow)
  dsimp only at hhigh hlow
  exact UInt8.toNat_inj.mp (by omega)

/-- The digits say what the digest is. -/
theorem fingerprint_inj {sha256 : List UInt8 → List UInt8} {a b : NewBlog}
    (h : fingerprint sha256 a = fingerprint sha256 b) :
    sha256 (fingerprintInput a) = sha256 (fingerprintInput b) := by
  unfold fingerprint at h
  have hlength : (sha256 (fingerprintInput a)).length = (sha256 (fingerprintInput b)).length := by
    have htwo : ∀ bytes : List UInt8, (bytes.flatMap hexByte).length = 2 * bytes.length := fun bytes => by
      induction bytes with
      | nil => rfl
      | cons x bytes ih =>
        rw [List.flatMap_cons, List.length_append, ih, List.length_cons]
        show 2 + 2 * bytes.length = _
        omega
    have hdouble := congrArg List.length h
    rw [htwo, htwo] at hdouble
    omega
  have hsame : (sha256 (fingerprintInput a)).flatMap hexByte ++ [] =
      (sha256 (fingerprintInput b)).flatMap hexByte ++ [] := by
    rw [h]
  exact (hexByte_selfDelimiting.flatMap hlength hsame).1

end CampusHub.Publishing
