import CampusHub.Foundations.Guarantees
import CampusHub.Publishing.Writers

/-!
# What publications leave to each other

* `Sane` — a committed receipt names its post, and a pending delivery belongs to a post.
* `publishingRegions` — a receipt stays, and so does a post; under the lock of its receipt nobody else has it.
* `Draft` — what a call publishes that is not refused, and `Draft.write`, what that does to the tables.
* `publishing_guarantee` — a call that commits has written its draft, or has found its receipt.

**Theorem** (`publishing_guarantee`). Publications with a key and without one meet the rules of
`Foundations.Guarantees` with the receipts as regions: a transaction that holds a receipt is the only one
that writes it, what it has checked stays true until its commit, and a call that commits has written all of
its draft or nothing.

**Proof route.** The programs are walked statement by statement (`passes_exec`, `passes_orRefuse`,
`passes_ite`), with the changes made so far as an argument. The recursion over the recipients is
`passes_enqueueAll`: the post is new, so that no delivery of it can be there. At the end the changes are
`Draft.write`, whose lookups (`write_blogs`, `write_deliveries`, `write_requests`) are all that the rest
uses.

**Left out.** The workers that deliver. They change deliveries only, and `Publishing.Delivery` adds them.
-/

namespace CampusHub.Publishing

open CampusHub.Content CampusHub.Domain CampusHub.Foundations.Maps
  CampusHub.Foundations.Transactions

/-! ## Calls and their drafts -/

/-- The post that a call asks for; a request with a key has to be valid. -/
def Call.body : Call → Option NewBlog
  | saveBlog blog _ _ => blog
  | publish request _ _ _ => (request.filter valid).map toBlog

def Call.user : Call → Option ℤ
  | saveBlog _ user _ => user
  | publish _ _ user _ => user

/-- The receipt that a call asks for, and the digest it puts there. -/
def Call.receipt (sha256 : List UInt8 → List UInt8) : Call → Option ((ℕ × Text) × List Char)
  | saveBlog _ _ _ => none
  | publish request key user _ => do
    let userId ← positive user
    let key ← validateKey key
    let request ← request.filter valid
    pure ((userId, key), fingerprint sha256 (toBlog request))

/-- What a call publishes. -/
structure Draft (c : Call) where
  userId : ℕ
  blog : NewBlog
  row : Blog
  recipients : List ℕ
  author : positive c.user = some userId
  body : c.body = some blog
  stored : Tables.rowOf userId blog = some row
  readers : c.env.followers.mapM positive = some recipients
  scored : validScore c.env.now = true

/-- The deliveries of a post to the recipients. -/
def enqueued (blogId score utc : ℕ) (recipients : List ℕ) (s : Tables) : Tables :=
  { s with
    deliveries := recipients.foldl
      (fun rows recipient => rows.insert (blogId, recipient) ⟨score, 0, none, utc⟩) s.deliveries }

namespace Draft

variable {c : Call} (d : Draft c)

/-- The post and its deliveries. -/
def store (s : Tables) : Tables :=
  enqueued c.env.id c.env.now.toNat c.env.utc (distinct d.recipients)
    { s with blogs := s.blogs.insert c.env.id d.row }

def publication : Publication :=
  ⟨c.env.id, batchOf c.env.id c.env.now.toNat (distinct d.recipients)⟩

/-- **All that a call writes.** -/
def write (sha256 : List UInt8 → List UInt8) (s : Tables) : Tables :=
  match c.receipt sha256 with
  | some (key, hash) =>
    { d.store s with requests := s.requests.insert key ⟨hash, some c.env.id⟩ }
  | none => d.store s

end Draft

section lookups

variable {c : Call} {d : Draft c} {sha256 : List UInt8 → List UInt8} {s : Tables}
  {blogId score utc : ℕ} {recipients : List ℕ}

/-- The distinct recipients are the recipients. -/
theorem mem_distinct {r : ℕ} : r ∈ distinct recipients ↔ r ∈ recipients := by
  unfold distinct
  rw [List.mem_reverse, List.mem_dedup, List.mem_reverse]

/-- No distinct recipient comes twice. -/
theorem nodup_distinct : (distinct recipients).Nodup := by
  unfold distinct
  exact List.nodup_reverse.mpr (List.nodup_dedup _)

/-- What is pending after some deliveries are enqueued. -/
theorem lookup_enqueued (b r : ℕ) :
    (enqueued blogId score utc recipients s).deliveries.lookup (b, r) =
      if b = blogId ∧ r ∈ recipients then some ⟨score, 0, none, utc⟩ else s.deliveries.lookup (b, r) := by
  induction recipients generalizing s with
  | nil => simp [enqueued]
  | cons x recipients ih =>
    have hstep : enqueued blogId score utc (x :: recipients) s = enqueued blogId score utc recipients
        { s with deliveries := s.deliveries.insert (blogId, x) ⟨score, 0, none, utc⟩ } := rfl
    rw [hstep, ih]
    dsimp only
    rw [lookup_insert_eq]
    by_cases hb : b = blogId <;> by_cases hr : r ∈ recipients <;> by_cases hx : r = x <;>
      simp [hb, hr, hx]

/-- A draft writes its own post. -/
theorem write_blogs (b : ℕ) : (d.write sha256 s).blogs.lookup b =
    if b = c.env.id then some d.row else s.blogs.lookup b := by
  unfold Draft.write
  split <;> exact lookup_insert_eq _ _ _ _

/-- A draft writes the deliveries to its recipients. -/
theorem write_deliveries (b r : ℕ) : (d.write sha256 s).deliveries.lookup (b, r) =
    if b = c.env.id ∧ r ∈ d.recipients then some ⟨c.env.now.toNat, 0, none, c.env.utc⟩
    else s.deliveries.lookup (b, r) := by
  have hstore : (d.store s).deliveries.lookup (b, r) = _ := lookup_enqueued b r
  simp only [mem_distinct] at hstore
  unfold Draft.write
  split <;> exact hstore

/-- A draft writes its receipt. -/
theorem write_requests {key' : ℕ × Text} {hash : List Char} (h : c.receipt sha256 = some (key', hash))
    (key : ℕ × Text) : (d.write sha256 s).requests.lookup key =
      if key = key' then some ⟨hash, some c.env.id⟩ else s.requests.lookup key := by
  unfold Draft.write
  rw [h]
  exact lookup_insert_eq _ _ _ _

/-- A draft without a receipt writes none. -/
theorem write_requests_of_none (h : c.receipt sha256 = none) :
    (d.write sha256 s).requests = s.requests := by
  unfold Draft.write
  rw [h]
  rfl

end lookups

/-! ## What the calls rely on -/

/-- **The committed tables.** Every receipt names its post, and a pending delivery belongs to a post. -/
structure Sane (t : Tables) : Prop where
  complete : ∀ key row, t.requests.lookup key = some row → ∃ n, row.blogId = some n ∧ 0 < n
  attached : ∀ b r, t.blogs.lookup b = none → t.deliveries.lookup (b, r) = none

/-- Receipts and posts stay. -/
structure Evolves (t t' : Tables) : Prop where
  requests : ∀ key row, t.requests.lookup key = some row → t'.requests.lookup key = some row
  blogs : ∀ b row, t.blogs.lookup b = some row → t'.blogs.lookup b = some row

/-- The id of the call is still new. -/
structure Ready (c : Call) (t : Tables) : Prop where
  positive : 0 < c.env.id
  fresh : t.blogs.lookup c.env.id = none
  sane : Sane t

/-- Under the lock of a receipt nobody else writes it. -/
def publishingRegions : Regions Call Tables Row (ℕ × Text) where
  guard key := .request key.1 key.2
  guard_injective _ _ h := Prod.ext (Row.request.inj h).1 (Row.request.inj h).2
  Agree key t t' := t'.requests.lookup key = t.requests.lookup key
  agree_refl _ _ := rfl
  agree_trans _ _ _ _ h h' := h'.trans h
  Evolves := Evolves
  evolves_refl _ := ⟨fun _ _ h => h, fun _ _ h => h⟩
  evolves_trans _ _ _ h h' := ⟨fun key row hrow => h'.requests key row (h.requests key row hrow),
    fun b row hrow => h'.blogs b row (h.blogs b row hrow)⟩
  Ready := Ready
  Apart c d := c.env.id ≠ d.env.id
  region c _ := (c.receipt id).map Prod.fst

/-- A failed statement, as the callers see it. -/
abbrev internal : Failure := .business { errorCode := .internalError }

/-- The call has no key. -/
def Unkeyed (c : Call) : Prop := ∃ blog user env, c = .saveBlog blog user env

/-- **How a call ends that succeeds**, with the changes `w` to the tables `s`. -/
inductive Ends (sha256 : List UInt8 → List UInt8) (c : Call) (w : Tables → Tables) (held : List Row)
    (s : Tables) : Publication → Prop where
  | saved (d : Draft c) (hcall : Unkeyed c) (hwrite : w s = d.write sha256 s) :
      Ends sha256 c w held s d.publication
  | created (d : Draft c) {key : ℕ × Text} {hash : List Char}
      (hreceipt : c.receipt sha256 = some (key, hash)) (hheld : .request key.1 key.2 ∈ held)
      (hfree : s.requests.lookup key = none) (hwrite : w s = d.write sha256 s) :
      Ends sha256 c w held s d.publication
  /-- It has found its receipt, with its own digest. -/
  | replayed {key : ℕ × Text} {hash : List Char} {n : ℕ}
      (hreceipt : c.receipt sha256 = some (key, hash))
      (hrow : s.requests.lookup key = some ⟨hash, some n⟩) (hwrite : w s = s) :
      Ends sha256 c w held s ⟨n, []⟩

/-- A running transaction of the publishing services. -/
abbrev PublishingTask := Task Tables Row Unit Failure Publication

/-- The check of a call at its end. -/
def Checked (sha256 : List UInt8 → List UInt8) (c : Call) (t : PublishingTask) (s : Tables) : Prop :=
  match t.program with
  | .done (.ok p) => Ends sha256 c t.write t.held s p
  | .done (.error e) => e = internal → Unkeyed c
  | _ => True

/-- Every statement of a program is checked. -/
abbrev Passes (sha256 : List UInt8 → List UInt8) (c : Call) (p : PublishingTxn Publication)
    (snap : Option Tables) (w : Tables → Tables) (held : List Row) (s : Tables) : Prop :=
  publishingRegions.Throughout c (Checked sha256 c) p snap w held s

/-! ## Programs statement by statement -/

section programs

variable {sha256 : List UInt8 → List UInt8} {c : Call} {held : List Row} {s : Tables}
  {snap : Option Tables} {w : Tables → Tables} {β : Type} {code : ErrorCode}

/-- A refusal that is no internal error. -/
theorem passes_raise {e : BusinessException} (he : e.errorCode ≠ .internalError) :
    Passes sha256 c (.raise (.business e)) snap w held s :=
  fun _ _ h => absurd (congrArg BusinessException.errorCode (Failure.business.inj h)) he

/-- A value that may be missing, which is refused. -/
theorem passes_orRefuse {value : Option β} {k : β → PublishingTxn Publication} (hcode : code ≠ .internalError)
    (h : ∀ v, value = some v → Passes sha256 c (k v) snap w held s) :
    Passes sha256 c (orRefuse value code >>= k) snap w held s := by
  cases value with
  | none => exact passes_raise (e := { errorCode := code }) hcode
  | some v => exact h v rfl

/-- A choice between two programs. -/
theorem passes_ite {P : Prop} [Decidable P] {p q : PublishingTxn Publication}
    (hp : P → Passes sha256 c p snap w held s) (hq : ¬P → Passes sha256 c q snap w held s) :
    Passes sha256 c (if P then p else q) snap w held s := by
  split
  · rename_i hP
    exact hp hP
  · rename_i hP
    exact hq hP

/-- A statement, and what follows its answer. -/
theorem passes_exec {row : Row} {statement : Tables → Answer Tables β}
    {next : β → PublishingTxn Publication}
    (hnext : ∀ t, publishingRegions.Rely c held s t → ∃ a, statement (w t) = a ∧
      Passes sha256 c (next a.value) snap (a.write ∘ w) (if a.held then row :: held else held) t) :
    Passes sha256 c (.exec row statement next) snap w held s := by
  intro t ht
  obtain ⟨a, rfl, hrest⟩ := hnext t ht
  exact ⟨trivial, hrest⟩

/-- Deliveries that are not there yet are enqueued. -/
theorem passes_enqueueAll {score utc : ℕ} {recipients : List ℕ} {k : Unit → PublishingTxn Publication}
    (hnodup : recipients.Nodup)
    (hfree : ∀ t, Ready c t → ∀ r ∈ recipients, (w t).deliveries.lookup (c.env.id, r) = none)
    (hnext : ∀ held' t, (∀ row ∈ held, row ∈ held') → publishingRegions.Rely c held s t →
      Passes sha256 c (k ()) snap (enqueued c.env.id score utc recipients ∘ w) held' t)
    (hready : Ready c s) :
    Passes sha256 c (enqueueAll c.env.id score utc recipients >>= k) snap w held s := by
  induction recipients generalizing w held s with
  | nil => exact hnext held s (fun _ hrow => hrow) (publishingRegions.rely_refl hready)
  | cons r recipients ih =>
    obtain ⟨hr, hrest⟩ := List.nodup_cons.mp hnodup
    have hanswer : ∀ t, publishingRegions.Rely c held s t → (w t).enqueue c.env.id r score utc =
        { value := some 1
          write := fun s => { s with
            deliveries := s.deliveries.insert (c.env.id, r) ⟨score, 0, none, utc⟩ }
          held := true } := by
      intro t ht
      unfold Tables.enqueue
      rw [hfree t ht.2.1 r List.mem_cons_self]
    have hprogram : (enqueueAll c.env.id score utc (r :: recipients) >>= k) =
        .exec (.delivery c.env.id r) (fun t => t.enqueue c.env.id r score utc) fun rows =>
          orRefuse rows .internalError >>= fun rows =>
            (if rows ≠ 1 then refuse .operationFailed else enqueueAll c.env.id score utc recipients) >>= k := by
      rw [enqueueAll, Txn.bind_assoc, Txn.on_bind]
      simp only [Txn.bind_assoc]
    rw [hprogram]
    refine passes_exec fun t ht => ⟨_, hanswer t ht, ?_⟩
    refine ih hrest (fun t' ht' x hx => ?_) (fun held' t' hheld' ht' => ?_) ht.2.1
    · have hother : ((w t').deliveries.insert (c.env.id, r) ⟨score, 0, none, utc⟩).lookup (c.env.id, x) =
          none := by
        rw [lookup_insert_eq, if_neg]
        · exact hfree t' ht' x (List.mem_cons_of_mem r hx)
        · intro heq
          exact hr ((Prod.mk.inj heq).2 ▸ hx)
      exact hother
    · refine hnext held' t' (fun row hrow => hheld' row (List.mem_cons_of_mem _ hrow)) (ht.trans ?_)
      exact ht'.mono fun row hrow => List.mem_cons_of_mem _ hrow

/-- The deliveries of a draft. -/
theorem fresh_deliveries {t : Tables} (h : Ready c t) (r : ℕ) :
    t.deliveries.lookup (c.env.id, r) = none := h.sane.attached _ _ h.fresh

/-- `saveBlog`, in a transaction that has written no post so far. -/
theorem passes_saveBlog {blog : NewBlog} {k : Publication → PublishingTxn Publication}
    (hbody : c.body = some blog) (hstored : ∀ userId, Tables.rowOf userId blog = none → Unkeyed c)
    (hblogs : ∀ t, (w t).blogs = t.blogs) (hdeliveries : ∀ t, (w t).deliveries = t.deliveries)
    (hnext : ∀ (d : Draft c) snap held' t, (∀ row ∈ held, row ∈ held') →
      publishingRegions.Rely c held s t →
      Passes sha256 c (k d.publication) snap (d.store ∘ w) held' t) :
    Passes sha256 c (saveBlog (some blog) c.user c.env >>= k) snap w held s := by
  unfold saveBlog
  simp only [Txn.bind_assoc, Txn.ite_bind, Txn.raise_bind, Txn.on_bind, Txn.read_bind, Txn.exec_bind,
    Txn.select_bind, Txn.pure_eq]
  refine passes_orRefuse nofun fun blog' hblog' => ?_
  obtain rfl := Option.some.inj hblog'
  refine passes_ite (fun _ => passes_raise nofun) fun _ => passes_ite (fun _ => passes_raise nofun) fun _ => ?_
  refine passes_orRefuse nofun fun userId huser => ?_
  cases hrow : Tables.rowOf userId blog with
  | none =>
    have hanswer : ∀ t, publishingRegions.Rely c held s t →
        (w t).insertBlog c.env.id userId blog = { value := none, held := false } := by
      intro t _
      unfold Tables.insertBlog
      rw [hrow]
      cases (w t).blogs.lookup c.env.id <;> rfl
    refine passes_exec fun t ht => ⟨_, hanswer t ht, ?_⟩
    exact fun _ _ _ => hstored userId hrow
  | some row =>
    have hanswer : ∀ t, publishingRegions.Rely c held s t → (w t).insertBlog c.env.id userId blog =
        { value := some 1
          write := fun s => { s with blogs := s.blogs.insert c.env.id row }
          held := true } := by
      intro t ht
      unfold Tables.insertBlog
      rw [hblogs, ht.2.1.fresh, hrow]
    refine passes_exec fun t ht => ⟨_, hanswer t ht, ?_⟩
    refine passes_ite (fun _ => passes_raise nofun) fun _ => fun t' ht' => ⟨trivial, ?_⟩
    unfold enqueue
    simp only [Txn.bind_assoc, Txn.ite_bind]
    refine passes_ite (fun _ => passes_raise (e := { errorCode := .operationFailed }) nofun) fun hscore => ?_
    refine passes_orRefuse nofun fun recipients hrecipients => ?_
    have hscored : validScore c.env.now = true := by
      rw [not_or, Bool.not_eq_false] at hscore
      exact hscore.2
    let d : Draft c := ⟨userId, blog, row, recipients, huser, hbody, hrow, hrecipients, hscored⟩
    have hbase : ∀ t'', publishingRegions.Rely c (.blog c.env.id :: held) t' t'' →
        publishingRegions.Rely c held s t'' := fun t'' ht'' =>
      (ht.trans (ht'.mono fun row hrow => List.mem_cons_of_mem _ hrow)).trans
        (ht''.mono fun row hrow => List.mem_cons_of_mem _ hrow)
    refine passes_enqueueAll nodup_distinct (fun u hu r _ => ?_) (fun held' u hheld' hu => ?_) ht'.2.1
    · have hsame : (w u).deliveries.lookup (c.env.id, r) = none := by
        rw [hdeliveries]
        exact fresh_deliveries hu r
      exact hsame
    · exact hnext d _ held' u (fun row hrow => hheld' row (List.mem_cons_of_mem _ hrow)) (hbase u hu)

/-- `saveBlog` on its own. -/
theorem passes_save {blog : Option NewBlog} {user : Option ℤ} {env : Surroundings} :
    Passes sha256 (.saveBlog blog user env) (saveBlog blog user env) none id [] s := by
  cases blog with
  | none => exact passes_raise (e := { errorCode := .validationFailed }) nofun
  | some blog =>
    rw [← Txn.bind_pure (saveBlog (some blog) user env)]
    refine passes_saveBlog (c := .saveBlog (some blog) user env) rfl (fun _ _ => ⟨_, _, _, rfl⟩)
      (fun _ => rfl) (fun _ => rfl) fun d snap held' t _ _ t' _ => ?_
    exact .saved d ⟨_, _, _, rfl⟩ rfl

/-- The parts of a request that is valid are there. -/
theorem rowOf_toBlog {request : BlogCreateRequest} (h : valid request = true) (userId : ℕ) :
    Tables.rowOf userId (toBlog request) ≠ none := by
  unfold valid at h
  simp only [Bool.and_eq_true] at h
  obtain ⟨⟨⟨⟨-, htitle⟩, -⟩, hcontent⟩, -⟩ := h
  unfold Tables.rowOf toBlog
  cases ht : request.title with
  | none =>
    rw [ht] at htitle
    cases htitle
  | some title =>
    cases hc : request.content with
    | none =>
      rw [hc] at hcontent
      cases hcontent
    | some content => nofun

/-- What a call does that finds a receipt. -/
theorem passes_replay {key : ℕ × Text} {hash : List Char} {row : BlogPublicationRequest}
    (hreceipt : c.receipt sha256 = some (key, hash)) (hrow : s.requests.lookup key = some row) :
    Passes sha256 c (replay key.1 key.2 hash) snap id held s := by
  unfold replay
  rw [Txn.on_bind]
  have hfound : ∀ t, publishingRegions.Rely c held s t → t.requests.lookup key = some row :=
    fun t ht => ht.1.requests key row hrow
  have hanswer : ∀ t, publishingRegions.Rely c held s t →
      (id t).findForReplay key.1 key.2 = { value := some row, held := false } := by
    intro t ht
    unfold Tables.findForReplay
    exact congrArg (fun value => ({ value := value, held := false } : Answer Tables _)) (hfound t ht)
  refine passes_exec fun t ht => ⟨_, hanswer t ht, ?_⟩
  refine passes_ite (fun _ => passes_raise (e := { errorCode := .conflict }) nofun) fun hsame => ?_
  obtain ⟨n, hn, hpos⟩ := ht.2.1.sane.complete key row (hfound t ht)
  rw [hn]
  dsimp only
  rw [if_neg (Nat.ne_of_gt hpos)]
  intro t' ht'
  refine .replayed hreceipt ?_ rfl
  rw [(ht.trans ht').1.requests key row hrow]
  obtain ⟨hash', blogId⟩ := row
  obtain rfl := not_not.mp hsame
  exact congrArg (fun b => some (BlogPublicationRequest.mk hash b)) hn

/-- What a call does that has reserved its receipt. -/
theorem passes_create {key : ℕ × Text} {hash : List Char} {blog : NewBlog}
    (hreceipt : c.receipt sha256 = some (key, hash)) (hbody : c.body = some blog)
    (hstored : ∀ userId, Tables.rowOf userId blog ≠ none) (hheld : .request key.1 key.2 ∈ held)
    (hfree : s.requests.lookup key = none) (hready : Ready c s) :
    Passes sha256 c (create key.1 key.2 hash blog c.user c.env) snap
      (fun s => { s with requests := s.requests.insert key ⟨hash, none⟩ }) held s := by
  unfold create
  refine passes_saveBlog hbody (fun userId hnone => absurd hnone (hstored userId)) (fun _ => rfl)
    (fun _ => rfl) fun d snap held' t hheld' ht => ?_
  have hid : d.publication.blogId ≠ 0 := Nat.ne_of_gt hready.positive
  rw [if_neg hid, Txn.on_bind]
  have hanswer : ∀ t', publishingRegions.Rely c held' t t' →
      ((d.store ∘ fun s => { s with requests := s.requests.insert key ⟨hash, none⟩ }) t').complete
        key.1 key.2 hash d.publication.blogId =
      { value := 1
        write := fun s => { s with requests := s.requests.insert key ⟨hash, some c.env.id⟩ }
        held := true } := by
    intro t' _
    have hrow : ((d.store ∘ fun s => { s with requests := s.requests.insert key ⟨hash, none⟩ })
        t').requests.lookup (key.1, key.2) = some ⟨hash, none⟩ := Finmap.lookup_insert _
    unfold Tables.complete
    rw [hrow]
    have hfilter : (some (BlogPublicationRequest.mk hash none)).filter
        (fun row => decide (row.requestHash = hash ∧ row.blogId = none)) =
          some (BlogPublicationRequest.mk hash none) := by
      simp
    rw [hfilter]
    rfl
  refine passes_exec fun t' ht' => ⟨_, hanswer t' ht', ?_⟩
  dsimp only
  rw [if_neg (not_not.mpr rfl)]
  intro t'' ht''
  refine .created d hreceipt (List.mem_cons_of_mem _ (hheld' _ hheld)) ?_ ?_
  · have h₁ : t.requests.lookup key = s.requests.lookup key := ht.2.2 key hheld
    have h₂ : t'.requests.lookup key = t.requests.lookup key := ht'.2.2 key (hheld' _ hheld)
    have h₃ : t''.requests.lookup key = t'.requests.lookup key :=
      ht''.2.2 key (List.mem_cons_of_mem _ (hheld' _ hheld))
    rw [h₃, h₂, h₁, hfree]
  · have htwice : (t''.requests.insert key ⟨hash, none⟩).insert key ⟨hash, some c.env.id⟩ =
        t''.requests.insert key ⟨hash, some c.env.id⟩ := Finmap.insert_insert _
    unfold Draft.write
    rw [hreceipt]
    exact congrArg (fun rows => ({ d.store t'' with requests := rows } : Tables)) htwice

/-- `publish`, from the start. -/
theorem passes_publish {request : Option BlogCreateRequest} {key : Option Text} {user : Option ℤ}
    {env : Surroundings} :
    Passes sha256 (.publish request key user env) (publish sha256 request key user env) none id [] s := by
  unfold publish
  refine passes_orRefuse nofun fun userId huser => ?_
  cases hkey : validateKey key with
  | none => exact passes_raise nofun
  | some text =>
    dsimp only
    refine passes_orRefuse nofun fun request' hrequest => ?_
    have hreceipt : (Call.publish request key user env).receipt sha256 =
        some ((userId, text), fingerprint sha256 (toBlog request')) := by
      simp only [Call.receipt, huser, hkey, hrequest]
      rfl
    have hbody : (Call.publish request key user env).body = some (toBlog request') := by
      simp only [Call.body, hrequest]
      rfl
    have hvalid : valid request' = true := (Option.filter_eq_some_iff.mp hrequest).2
    rw [Txn.on_bind]
    refine passes_exec fun t ht => ?_
    cases hlookup : t.requests.lookup (userId, text) with
    | some row =>
      have hanswer : t.reserve userId text (fingerprint sha256 (toBlog request')) =
          { value := none, held := false } := by
        unfold Tables.reserve
        rw [hlookup]
      exact ⟨_, hanswer, passes_replay hreceipt hlookup⟩
    | none =>
      have hanswer : t.reserve userId text (fingerprint sha256 (toBlog request')) =
          { value := some 1
            write := fun s => { s with
              requests := s.requests.insert (userId, text) ⟨fingerprint sha256 (toBlog request'), none⟩ }
            held := true } := by
        unfold Tables.reserve
        rw [hlookup]
      exact ⟨_, hanswer, passes_create hreceipt hbody (rowOf_toBlog hvalid) (List.mem_singleton.mpr rfl)
        hlookup ht.2.1⟩

end programs

/-! ## Commits -/

/-- **What a call that returned has brought about for good**: its receipt, if it succeeded and has a key. -/
def Settles (sha256 : List UInt8 → List UInt8) (c : Call) (r : Except Failure Publication) (t : Tables) :
    Prop :=
  match r with
  | .ok p => Unkeyed c ∨ ∃ key hash, c.receipt sha256 = some (key, hash) ∧
      t.requests.lookup key = some ⟨hash, some p.blogId⟩
  | .error e => e = internal → Unkeyed c

section commits

variable {sha256 : List UInt8 → List UInt8} {c : Call} {t : PublishingTask} {s : Tables} {p : Publication}

/-- A call that succeeds has ended as it should. -/
theorem ends_of_checked (h : Checked sha256 c t s) (hp : t.program = .done (.ok p)) :
    Ends sha256 c t.write t.held s p := by
  unfold Checked at h
  rw [hp] at h
  exact h

/-- A call without a key writes no receipt. -/
theorem receipt_of_unkeyed (h : Unkeyed c) : c.receipt sha256 = none := by
  obtain ⟨blog, user, env, rfl⟩ := h
  rfl

/-- A draft with a new id and a new receipt takes nothing away. -/
theorem Draft.evolves (d : Draft c) (hready : Ready c s)
    (hfree : ∀ key hash, c.receipt sha256 = some (key, hash) → s.requests.lookup key = none) :
    Evolves s (d.write sha256 s) where
  requests key row hrow := by
    cases hreceipt : c.receipt sha256 with
    | none => rw [write_requests_of_none hreceipt, hrow]
    | some receipt =>
      obtain ⟨key', hash⟩ := receipt
      rw [write_requests hreceipt, if_neg, hrow]
      rintro rfl
      rw [hfree key hash hreceipt] at hrow
      cases hrow
  blogs b row hrow := by
    rw [write_blogs, if_neg, hrow]
    rintro rfl
    rw [hready.fresh] at hrow
    cases hrow

/-- It leaves the tables sane. -/
theorem Draft.sane (d : Draft c) (hready : Ready c s) : Sane (d.write sha256 s) where
  complete key row hrow := by
    cases hreceipt : c.receipt sha256 with
    | none =>
      rw [write_requests_of_none hreceipt] at hrow
      exact hready.sane.complete key row hrow
    | some receipt =>
      obtain ⟨key', hash⟩ := receipt
      rw [write_requests hreceipt] at hrow
      split at hrow
      · obtain rfl := Option.some.inj hrow
        exact ⟨_, rfl, hready.positive⟩
      · exact hready.sane.complete key row hrow
  attached b r hnone := by
    rw [write_blogs] at hnone
    split at hnone
    · cases hnone
    · rename_i hb
      rw [write_deliveries, if_neg fun h => hb h.1]
      exact hready.sane.attached b r hnone

/-- A commit leaves receipts and posts as they are, and the tables sane. -/
theorem Ends.leaves {w : Tables → Tables} {held : List Row} (h : Ends sha256 c w held s p)
    (hready : Ready c s) : Evolves s (w s) ∧ Sane (w s) := by
  cases h with
  | saved d hcall hwrite =>
    rw [hwrite]
    refine ⟨d.evolves hready fun key hash hreceipt => ?_, d.sane hready⟩
    rw [receipt_of_unkeyed hcall] at hreceipt
    cases hreceipt
  | created d hreceipt hheld hfree hwrite =>
    rw [hwrite]
    refine ⟨d.evolves hready fun key hash hreceipt' => ?_, d.sane hready⟩
    obtain ⟨rfl, -⟩ := Prod.mk.inj (Option.some.inj (hreceipt.symm.trans hreceipt'))
    exact hfree
  | replayed hreceipt hrow hwrite =>
    rw [hwrite]
    exact ⟨⟨fun _ _ h => h, fun _ _ h => h⟩, hready.sane⟩

/-- A commit leaves the receipts alone that its transaction does not hold. -/
theorem Ends.agrees {w : Tables → Tables} {held : List Row} (h : Ends sha256 c w held s p)
    {key : ℕ × Text} (hheld : .request key.1 key.2 ∉ held) :
    (w s).requests.lookup key = s.requests.lookup key := by
  cases h with
  | saved d hcall hwrite => rw [hwrite, write_requests_of_none (receipt_of_unkeyed hcall)]
  | created d hreceipt hheld' hfree hwrite =>
    rw [hwrite, write_requests hreceipt, if_neg]
    rintro rfl
    exact hheld hheld'
  | replayed hreceipt hrow hwrite => rw [hwrite]

/-- A commit keeps the ids of other calls new. -/
theorem Ends.fresh {w : Tables → Tables} {held : List Row} (h : Ends sha256 c w held s p) {n : ℕ}
    (hn : c.env.id ≠ n) (hfresh : s.blogs.lookup n = none) : (w s).blogs.lookup n = none := by
  cases h with
  | saved d hcall hwrite => rw [hwrite, write_blogs, if_neg hn.symm, hfresh]
  | created d hreceipt hheld hfree hwrite => rw [hwrite, write_blogs, if_neg hn.symm, hfresh]
  | replayed hreceipt hrow hwrite => rw [hwrite, hfresh]

/-- A call that commits has brought about what it should. -/
theorem Ends.settles {w : Tables → Tables} {held : List Row} (h : Ends sha256 c w held s p) :
    Settles sha256 c (.ok p) (w s) := by
  cases h with
  | saved d hcall hwrite => exact .inl hcall
  | @created d key hash hreceipt hheld hfree hwrite =>
    refine .inr ⟨key, hash, hreceipt, ?_⟩
    rw [hwrite, write_requests hreceipt, if_pos rfl]
    rfl
  | @replayed key hash n hreceipt hrow hwrite =>
    refine .inr ⟨key, hash, hreceipt, ?_⟩
    rw [hwrite]
    exact hrow

end commits

/-- **Publications leave each other what they rely on.** -/
theorem publishing_guarantee (sha256 : List UInt8 → List UInt8) :
    Guarantee (publishingSystem sha256) publishingRegions Sane (Checked sha256) (Settles sha256) where
  admitted {calls s c} hs hadmits := by
    simp only [publishingSystem, Bool.and_eq_true, decide_eq_true_eq, List.all_eq_true] at hadmits
    obtain ⟨⟨hpos, hfresh⟩, hothers⟩ := hadmits
    exact ⟨⟨hpos, hfresh, hs⟩, fun d hd => ⟨hothers d hd, (hothers d hd).symm⟩⟩
  throughout {c s} _ := by
    cases c with
    | saveBlog blog user env => exact passes_save
    | publish request key user env => exact passes_publish
  keeps hready hchecked hp _ := ((ends_of_checked hchecked hp).leaves hready).2
  evolves hready hchecked hp := ((ends_of_checked hchecked hp).leaves hready).1
  agrees _ hchecked hp key hkey := (ends_of_checked hchecked hp).agrees hkey
  ready hready hchecked hp hapart hready' :=
    ⟨hready'.positive, (ends_of_checked hchecked hp).fresh hapart hready'.fresh,
      ((ends_of_checked hchecked hp).leaves hready).2⟩
  commits _ hchecked hp := (ends_of_checked hchecked hp).settles
  fails {c t s e} _ hchecked hp := by
    unfold Checked at hchecked
    rw [hp] at hchecked
    exact hchecked
  stable {c r s s'} hevolves h := by
    cases r with
    | error e => exact h
    | ok p =>
      exact h.imp_right fun ⟨key, hash, hreceipt, hrow⟩ =>
        ⟨key, hash, hreceipt, hevolves.requests key _ hrow⟩

end CampusHub.Publishing
