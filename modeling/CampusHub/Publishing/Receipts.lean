import CampusHub.Publishing.Promises

/-!
# Receipts

* `Traced` — every receipt was written by a call, together with its post and the deliveries of the post.
* `publish_once` — the result: one post for a user and a key, whatever its calls do.

**Theorem** (`publish_once`). Let the digests of the posts that are asked for not collide, and start without
receipts. After every run of any calls, with statements and commits that fail anywhere: a user and a key
have at most one post; a call with a key that succeeds returns such a post, which has the body that it asked
for; whoever asks for another body than that of the post does not succeed; an `INTERNAL_ERROR` takes a
statement or a commit that failed; and of every call there is all in the tables, or nothing.

**Proof route.** `Traced` says who has written what: every receipt names the post of a call with this user
and key, and every call is present or absent as a whole. A step changes this only by a commit, which writes
a draft (`Traced.write`). Uniqueness follows since two calls with one key have one receipt, and it names one
post (`Traced.unique`).

**Left out.** An answer that is lost on its way: a call that has committed may report an error, so nothing
is said of a call from its error alone.
-/

namespace CampusHub.Publishing

open CampusHub.Content CampusHub.Domain CampusHub.Foundations CampusHub.Foundations.Maps
  CampusHub.Foundations.Transactions

/-- All callers of the publishing services. -/
abbrev PublishingWorld := World Call Tables Row Unit Failure Publication

/-- The callers after the steps `as`, from the tables `s`. -/
def publishingRun (sha256 : List UInt8 → List UInt8) (s : Tables) (as : List (Act Call)) :
    PublishingWorld :=
  Runs.run (World.step (publishingSystem sha256)) (World.initial s ()) as

/-- Nothing of the call is in the tables. -/
structure Absent (c : Call) (t : Tables) : Prop where
  blog : t.blogs.lookup c.env.id = none
  deliveries : ∀ r, t.deliveries.lookup (c.env.id, r) = none
  requests : ∀ key row, t.requests.lookup key = some row → row.blogId ≠ some c.env.id

/-- All of the call is in the tables: its post, its deliveries and its receipt. -/
structure Present (sha256 : List UInt8 → List UInt8) (c : Call) (d : Draft c) (t : Tables) : Prop where
  blog : t.blogs.lookup c.env.id = some d.row
  deliveries : ∀ r, t.deliveries.lookup (c.env.id, r) =
    if r ∈ d.recipients then some ⟨c.env.now.toNat, 0, none, c.env.utc⟩ else none
  request : Unkeyed c ∨ ∃ key hash, c.receipt sha256 = some (key, hash) ∧
    t.requests.lookup key = some ⟨hash, some c.env.id⟩

/-- **Who has written what.** -/
structure Traced (sha256 : List UInt8 → List UInt8) (w : PublishingWorld) : Prop where
  requests : ∀ key row, w.tables.requests.lookup key = some row →
    ∃ (j : ℕ) (c : Call) (hash : List Char), w.calls[j]? = some c ∧
      c.receipt sha256 = some (key, hash) ∧ row = ⟨hash, some c.env.id⟩ ∧
      (w.tables.blogs.lookup c.env.id).isSome
  whole : ∀ (i : ℕ) (c : Call), w.calls[i]? = some c →
    w.tables.blogs.lookup c.env.id = none ∨ ∃ d : Draft c, Present sha256 c d w.tables

section traced

variable {sha256 : List UInt8 → List UInt8} {w : PublishingWorld} {c : Call} {d : Draft c} {s : Tables}
  {failed : ℕ → Prop}

/-- All that is written at once. -/
theorem present_write (hready : Ready c s)
    (hcall : Unkeyed c ∨ ∃ key hash, c.receipt sha256 = some (key, hash)) :
    Present sha256 c d (d.write sha256 s) where
  blog := by rw [write_blogs, if_pos rfl]
  deliveries r := by
    rw [write_deliveries]
    simp only [true_and]
    rw [fresh_deliveries hready]
  request := by
    refine hcall.imp_right ?_
    rintro ⟨key, hash, hreceipt⟩
    exact ⟨key, hash, hreceipt, by rw [write_requests hreceipt, if_pos rfl]⟩

/-- The write of another call. -/
theorem Present.other {c' : Call} {d' : Draft c'} (h : Present sha256 c d s) (hready : Ready c' s)
    (hevolves : Evolves s (d'.write sha256 s)) : Present sha256 c d (d'.write sha256 s) := by
  have hne : c.env.id ≠ c'.env.id := fun heq => by
    have hblog := h.blog
    rw [heq, hready.fresh] at hblog
    cases hblog
  refine ⟨hevolves.blogs _ _ h.blog, fun r => ?_, h.request.imp_right ?_⟩
  · rw [write_deliveries, if_neg fun heq => hne heq.1, h.deliveries]
  · rintro ⟨key, hash, hreceipt, hrow⟩
    exact ⟨key, hash, hreceipt, hevolves.requests _ _ hrow⟩

/-- A call has written its draft. -/
theorem Traced.write (h : Traced sha256 w) {i : ℕ} (hc : w.calls[i]? = some c) (hready : Ready c w.tables)
    (hevolves : Evolves w.tables (d.write sha256 w.tables))
    (hcall : Unkeyed c ∨ ∃ key hash, c.receipt sha256 = some (key, hash))
    (hapart : ∀ j c', w.calls[j]? = some c' → j ≠ i → c'.env.id ≠ c.env.id)
    (r : Except Failure Publication) :
    Traced sha256 { w.finish i r with tables := d.write sha256 w.tables } where
  requests key row hrow := by
    have hold : w.tables.requests.lookup key = some row →
        ∃ (j : ℕ) (c' : Call) (hash : List Char), w.calls[j]? = some c' ∧
          c'.receipt sha256 = some (key, hash) ∧ row = ⟨hash, some c'.env.id⟩ ∧
          ((d.write sha256 w.tables).blogs.lookup c'.env.id).isSome := by
      intro hrow
      obtain ⟨j, c', hash, hj, hreceipt, hrow', hblog⟩ := h.requests key row hrow
      obtain ⟨blog, hblog⟩ := Option.isSome_iff_exists.mp hblog
      exact ⟨j, c', hash, hj, hreceipt, hrow', Option.isSome_of_eq_some (hevolves.blogs _ _ hblog)⟩
    have hrow' : (d.write sha256 w.tables).requests.lookup key = some row := hrow
    cases hreceipt : c.receipt sha256 with
    | none =>
      rw [write_requests_of_none hreceipt] at hrow'
      exact hold hrow'
    | some receipt =>
      obtain ⟨key', hash⟩ := receipt
      rw [write_requests hreceipt] at hrow'
      split at hrow'
      · rename_i hkey
        subst hkey
        refine ⟨i, c, hash, hc, hreceipt, (Option.some.inj hrow').symm, ?_⟩
        have hblog : (d.write sha256 w.tables).blogs.lookup c.env.id = some d.row := by
          rw [write_blogs, if_pos rfl]
        exact Option.isSome_of_eq_some hblog
      · exact hold hrow'
  whole j c' hc' := by
    have hj : w.calls[j]? = some c' := hc'
    show (d.write sha256 w.tables).blogs.lookup c'.env.id = none ∨
      ∃ d' : Draft c', Present sha256 c' d' (d.write sha256 w.tables)
    by_cases hji : j = i
    · subst hji
      obtain rfl := Option.some.inj (hc.symm.trans hj)
      exact .inr ⟨d, present_write hready hcall⟩
    · rcases h.whole j c' hj with hnone | ⟨d', hpresent⟩
      · exact .inl (by rw [write_blogs, if_neg (hapart j c' hj hji), hnone])
      · exact .inr ⟨d', hpresent.other hready hevolves⟩

/-- **Every step keeps receipts, posts and deliveries together.** -/
theorem Traced.step (h : Traced sha256 w)
    (hupheld : Upheld publishingRegions Sane (Checked sha256) (Settles sha256) failed w) (a : Act Call) :
    Traced sha256 (w.step (publishingSystem sha256) a) := by
  rcases hupheld.commit (S := publishingSystem sha256) a with
    ⟨hsame, -⟩ | ⟨i, c, t, p, -, hi, hc, hp, hready, hchecked, hstep⟩
  · rcases World.calls_cases (publishingSystem sha256) w a with hcalls | ⟨c, -, hadmits, hcalls⟩
    · refine ⟨?_, ?_⟩ <;> simp only [hcalls, hsame]
      · exact h.requests
      · exact h.whole
    · refine ⟨?_, ?_⟩ <;> simp only [hcalls, hsame]
      · intro key row hrow
        obtain ⟨j, c', hash, hj, hrest⟩ := h.requests key row hrow
        exact ⟨j, c', hash, (List.getElem?_append_left (List.getElem?_eq_some_iff.mp hj).1).trans hj, hrest⟩
      · intro j c' hj
        rcases entry_of_concat hj with hold | ⟨-, rfl⟩
        · exact h.whole j c' hold
        · exact .inl ((publishing_guarantee sha256).admitted hupheld.tables hadmits).1.fresh
  · rw [hstep]
    have hapart : ∀ j c', w.calls[j]? = some c' → j ≠ i → c'.env.id ≠ c.env.id :=
      fun j c' hj hji => hupheld.apart j i c' c hj hc hji
    have hends := ends_of_checked hchecked hp
    have hevolves := (hends.leaves hready).1
    cases hends with
    | saved d hcall hwrite =>
      rw [hwrite] at hevolves ⊢
      exact h.write hc hready hevolves (.inl hcall) hapart _
    | created d hreceipt hheld hfree hwrite =>
      rw [hwrite] at hevolves ⊢
      exact h.write hc hready hevolves (.inr ⟨_, _, hreceipt⟩) hapart _
    | replayed hreceipt hrow hwrite =>
      rw [hwrite]
      exact ⟨h.requests, h.whole⟩

end traced

/-! ## Runs -/

/-- The receipts at the start: there are none, and a pending delivery belongs to a post. -/
structure Start (s : Tables) : Prop where
  requests : s.requests = ∅
  attached : ∀ b r, s.blogs.lookup b = none → s.deliveries.lookup (b, r) = none

/-- The digests of the posts that the calls ask for do not collide. -/
def NoCollision (sha256 : List UInt8 → List UInt8) (calls : List Call) : Prop :=
  ∀ c ∈ calls, ∀ d ∈ calls, ∀ a b, c.body = some a → d.body = some b →
    sha256 (fingerprintInput a) = sha256 (fingerprintInput b) → fingerprintInput a = fingerprintInput b

section runs

variable {sha256 : List UInt8 → List UInt8} {s : Tables} {as : List (Act Call)}

/-- What holds after every run. -/
theorem publishingRun_invariant (hs : Start s) :
    Upheld publishingRegions Sane (Checked sha256) (Settles sha256) (fun i => ∃ sent, Act.fail i sent ∈ as)
      (publishingRun sha256 s as) ∧ Traced sha256 (publishingRun sha256 s as) := by
  have hempty : ∀ key, s.requests.lookup key = none := fun key => by
    rw [hs.requests]
    exact Finmap.lookup_empty _
  have hsane : Sane s := by
    refine ⟨fun key row hrow => ?_, hs.attached⟩
    rw [hempty] at hrow
    cases hrow
  refine @Runs.run_invariant_of_along _ _ (World.step (publishingSystem sha256))
    (fun _ a => ∀ i sent, a = .fail i sent → ∃ sent, Act.fail i sent ∈ as)
    (fun w => Upheld publishingRegions Sane (Checked sha256) (Settles sha256)
      (fun i => ∃ sent, Act.fail i sent ∈ as) w ∧ Traced sha256 w)
    (fun w a hw ha => ⟨hw.1.step (publishing_guarantee sha256) a ha, hw.2.step hw.1 a⟩) as
    (World.initial s ()) ⟨upheld_initial hsane (), ?_, ?_⟩ ?_
  · intro key row hrow
    exact absurd ((hempty key).symm.trans hrow) nofun
  · intro i c hc
    cases hc
  · refine Runs.along_of_forall _ as _ ?_
    rintro a ha i sent rfl
    exact ⟨sent, ha⟩

/-- The parts of a receipt. -/
theorem exists_of_receipt {request : Option BlogCreateRequest} {key : Option Text} {user : Option ℤ}
    {env : Surroundings} {key' : ℕ × Text} {hash : List Char}
    (h : (Call.publish request key user env).receipt sha256 = some (key', hash)) :
    user = some (key'.1 : ℤ) ∧ key = some key'.2 ∧ ∃ request', request = some request' ∧
      valid request' = true ∧ hash = fingerprint sha256 (toBlog request') := by
  unfold Call.receipt at h
  simp only [Option.bind_eq_bind, Option.bind_eq_some_iff, Option.pure_def, Option.some.injEq] at h
  obtain ⟨userId, huser, text, htext, request', hrequest, heq⟩ := h
  obtain ⟨rfl, rfl⟩ := Prod.mk.inj heq
  obtain ⟨hrequest, hvalid⟩ := Option.filter_eq_some_iff.mp hrequest
  exact ⟨(exists_of_positive huser).2, (Option.filter_eq_some_iff.mp htext).1, request', hrequest, hvalid, rfl⟩

/-- A receipt is the same for the same user and key, but for its digest. -/
theorem receipt_congr {request request' : Option BlogCreateRequest} {key : Option Text} {user : Option ℤ}
    {env env' : Surroundings} {k k' : ℕ × Text} {hash hash' : List Char}
    (h : (Call.publish request key user env).receipt sha256 = some (k, hash))
    (h' : (Call.publish request' key user env').receipt sha256 = some (k', hash')) : k = k' := by
  obtain ⟨huser, hkey, -⟩ := exists_of_receipt h
  obtain ⟨huser', hkey', -⟩ := exists_of_receipt h'
  have hfirst : (k.1 : ℤ) = k'.1 := Option.some.inj (huser.symm.trans huser')
  exact Prod.ext (Int.ofNat.inj hfirst) (Option.some.inj (hkey.symm.trans hkey'))

section calls

variable {failed : ℕ → Prop} {w : PublishingWorld} {i j : ℕ} {request request' : Option BlogCreateRequest}
  {key : Option Text} {user : Option ℤ} {env env' : Surroundings} {p : Publication}

/-- A call with a key whose post is there has written its receipt. -/
theorem Traced.receipt (h : Traced sha256 w) (hi : w.calls[i]? = some (.publish request key user env))
    (hblog : (w.tables.blogs.lookup env.id).isSome) :
    ∃ k hash, (Call.publish request key user env).receipt sha256 = some (k, hash) ∧
      w.tables.requests.lookup k = some ⟨hash, some env.id⟩ := by
  rcases h.whole i _ hi with hnone | ⟨d, hpresent⟩
  · have hnone' : w.tables.blogs.lookup env.id = none := hnone
    rw [hnone'] at hblog
    cases hblog
  · rcases hpresent.request with ⟨_, _, _, heq⟩ | hreceipt
    · cases heq
    · exact hreceipt

/-- One post for a user and a key. -/
theorem Traced.unique (h : Traced sha256 w)
    (hupheld : Upheld publishingRegions Sane (Checked sha256) (Settles sha256) failed w)
    (hi : w.calls[i]? = some (.publish request key user env))
    (hj : w.calls[j]? = some (.publish request' key user env'))
    (hblog : (w.tables.blogs.lookup env.id).isSome) (hblog' : (w.tables.blogs.lookup env'.id).isSome) :
    i = j := by
  obtain ⟨k, hash, hreceipt, hrow⟩ := h.receipt hi hblog
  obtain ⟨k', hash', hreceipt', hrow'⟩ := h.receipt hj hblog'
  obtain rfl := receipt_congr hreceipt hreceipt'
  by_contra hij
  refine hupheld.apart i j _ _ hi hj hij ?_
  have hsame := Option.some.inj (hrow.symm.trans hrow')
  exact Option.some.inj (congrArg BlogPublicationRequest.blogId hsame)

/-- What a call with a key returns is the post of a call with the same user, key and body. -/
theorem Traced.answer (h : Traced sha256 w)
    (hupheld : Upheld publishingRegions Sane (Checked sha256) (Settles sha256) failed w)
    (hsha : NoCollision sha256 w.calls) (hi : w.calls[i]? = some (.publish request key user env))
    (hp : w.results i = some (.ok p)) :
    ∃ (j : ℕ) (r r' : BlogCreateRequest) (env' : Surroundings),
      w.calls[j]? = some (Call.publish (some r') key user env') ∧ p.blogId = env'.id ∧
      (w.tables.blogs.lookup p.blogId).isSome ∧ request = some r ∧ toBlog r = toBlog r' := by
  rcases hupheld.results i _ _ hi hp with ⟨-, e, he⟩ | ⟨_, _, _, heq⟩ | ⟨k, hash, hreceipt, hrow⟩
  · cases he
  · cases heq
  · obtain ⟨j, c, hash', hj, hreceipt', hrow', hblog⟩ := h.requests k _ hrow
    have hhash : hash = hash' := congrArg BlogPublicationRequest.requestHash hrow'
    have hid : p.blogId = c.env.id := Option.some.inj (congrArg BlogPublicationRequest.blogId hrow')
    cases c with
    | saveBlog blog user' env' => cases hreceipt'
    | publish request' key' user' env' =>
      obtain ⟨huser, hkey, r, rfl, hvalid, hfingerprint⟩ := exists_of_receipt hreceipt
      obtain ⟨huser', hkey', r', rfl, hvalid', hfingerprint'⟩ := exists_of_receipt hreceipt'
      obtain rfl := huser.trans huser'.symm
      obtain rfl := hkey.trans hkey'.symm
      refine ⟨j, r, r', env', hj, hid, ?_, rfl, ?_⟩
      · rw [hid]
        exact hblog
      · have hbody : ∀ {r : BlogCreateRequest} {env : Surroundings}, valid r = true →
            (Call.publish (some r) key user env).body = some (toBlog r) := fun hvalid => by
          simp only [Call.body, Option.filter_some, hvalid, if_true]
          rfl
        have hdigest := fingerprint_inj (hfingerprint.symm.trans (hhash.trans hfingerprint'))
        have hinput := hsha _ (List.mem_of_getElem? hi) _ (List.mem_of_getElem? hj) _ _ (hbody hvalid)
          (hbody hvalid') hdigest
        have hpositive : ∀ {r : BlogCreateRequest}, valid r = true → ∀ id ∈ r.shopId, 0 < id.toInt := by
          intro r hvalid id hid
          unfold valid at hvalid
          simp only [Bool.and_eq_true] at hvalid
          obtain ⟨⟨⟨⟨hshop, -⟩, -⟩, -⟩, -⟩ := hvalid
          rw [Option.mem_def.mp hid] at hshop
          exact of_decide_eq_true hshop
        exact (fingerprint_injective.2 r r' (hpositive hvalid) (hpositive hvalid')).mp hinput

/-- Of a call that has not published there is nothing. -/
theorem Traced.absent (h : Traced sha256 w)
    (hupheld : Upheld publishingRegions Sane (Checked sha256) (Settles sha256) failed w) {c : Call}
    (hnone : w.tables.blogs.lookup c.env.id = none) : Absent c w.tables where
  blog := hnone
  deliveries r := hupheld.tables.attached _ r hnone
  requests k row hrow heq := by
    obtain ⟨j, c', hash, -, -, hrow', hblog⟩ := h.requests k row hrow
    rw [hrow'] at heq
    have hid : c'.env.id = c.env.id := Option.some.inj heq
    rw [hid, hnone] at hblog
    cases hblog

/-- The post that is there has the body of its call. -/
theorem Traced.row (h : Traced sha256 w) {r : BlogCreateRequest}
    (hi : w.calls[i]? = some (.publish (some r) key user env))
    (hblog : (w.tables.blogs.lookup env.id).isSome) :
    ∃ userId row, positive user = some userId ∧ Tables.rowOf userId (toBlog r) = some row ∧
      w.tables.blogs.lookup env.id = some row := by
  rcases h.whole i _ hi with hnone | ⟨d, hpresent⟩
  · have hnone' : w.tables.blogs.lookup env.id = none := hnone
    rw [hnone'] at hblog
    cases hblog
  · obtain ⟨userId, blog, row, recipients, hauthor, hbody, hstored, hreaders, hscored⟩ := d
    have hbody' : ((some r).filter valid).map toBlog = some blog := hbody
    obtain ⟨r', hr', rfl⟩ := Option.map_eq_some_iff.mp hbody'
    obtain rfl := Option.some.inj (Option.filter_eq_some_iff.mp hr').1
    exact ⟨userId, row, hauthor, hstored, hpresent.blog⟩

end calls

/-- **One post for a user and a key.** -/
structure PublishedOnce (sha256 : List UInt8 → List UInt8) (as : List (Act Call)) (w : PublishingWorld) :
    Prop where
  unique : ∀ (i j : ℕ) (request request' : Option BlogCreateRequest) (key : Option Text) (user : Option ℤ)
    (env env' : Surroundings), w.calls[i]? = some (.publish request key user env) →
    w.calls[j]? = some (.publish request' key user env') → (w.tables.blogs.lookup env.id).isSome →
    (w.tables.blogs.lookup env'.id).isSome → i = j
  /-- Whoever succeeds gets the id of the post, which has the body that was asked for. -/
  answers : ∀ (i : ℕ) (request : Option BlogCreateRequest) (key : Option Text) (user : Option ℤ)
    (env : Surroundings) (p : Publication), w.calls[i]? = some (.publish request key user env) →
    w.results i = some (.ok p) →
    ∃ (j : ℕ) (r r' : BlogCreateRequest) (env' : Surroundings) (userId : ℕ) (row : Blog),
      w.calls[j]? = some (.publish (some r') key user env') ∧ p.blogId = env'.id ∧ request = some r ∧
      toBlog r = toBlog r' ∧ positive user = some userId ∧ Tables.rowOf userId (toBlog r) = some row ∧
      w.tables.blogs.lookup p.blogId = some row
  /-- Whoever asks for another body than that of the post is refused. -/
  refuses : ∀ (i j : ℕ) (r r' : BlogCreateRequest) (key : Option Text) (user : Option ℤ)
    (env env' : Surroundings) (p : Publication), w.calls[i]? = some (.publish (some r) key user env) →
    w.calls[j]? = some (.publish (some r') key user env') → (w.tables.blogs.lookup env'.id).isSome →
    toBlog r ≠ toBlog r' → w.results i ≠ some (.ok p)
  receipts : ∀ key row, w.tables.requests.lookup key = some row → ∃ n, row.blogId = some n ∧ 0 < n
  /-- An `INTERNAL_ERROR` comes from a statement or a commit that failed. -/
  internal : ∀ (i : ℕ) (request : Option BlogCreateRequest) (key : Option Text) (user : Option ℤ)
    (env : Surroundings), w.calls[i]? = some (.publish request key user env) →
    w.results i = some (.error internal) → ∃ sent, Act.fail i sent ∈ as
  together : ∀ (i : ℕ) (c : Call), w.calls[i]? = some c →
    Absent c w.tables ∨ ∃ d : Draft c, Present sha256 c d w.tables

/-- **A user and a key have one post**, whatever the calls do: those that succeed return it, the others
leave nothing. -/
theorem publish_once (hs : Start s) (hsha : NoCollision sha256 (publishingRun sha256 s as).calls) :
    PublishedOnce sha256 as (publishingRun sha256 s as) := by
  obtain ⟨hupheld, htraced⟩ := @publishingRun_invariant sha256 s as hs
  refine ⟨fun i j _ _ _ _ _ _ hi hj => htraced.unique hupheld hi hj, fun i _ _ _ _ p hi hp => ?_,
    fun i j r r' key user env env' p hi hj hblog hne hp => ?_, hupheld.tables.complete,
    fun i request key user env hi hr => ?_, fun i c hi => ?_⟩
  · obtain ⟨j, r, r', env', hj, hid, hblog, hr, hsame⟩ := htraced.answer hupheld hsha hi hp
    rw [hid] at hblog
    obtain ⟨userId, row, huser, hrow, hlookup⟩ := htraced.row hj hblog
    rw [← hid] at hlookup
    rw [← hsame] at hrow
    exact ⟨j, r, r', env', userId, row, hj, hid, hr, hsame, huser, hrow, hlookup⟩
  · obtain ⟨k, r₁, r₂, env'', hk, hid, hblog', hr₁, hsame⟩ := htraced.answer hupheld hsha hi hp
    rw [hid] at hblog'
    obtain rfl := Option.some.inj hr₁
    -- the post that was returned is the one that is there
    obtain rfl := htraced.unique hupheld hk hj hblog' hblog
    have hcall := Option.some.inj (hk.symm.trans hj)
    obtain rfl := Option.some.inj (Call.publish.inj hcall).1
    exact hne hsame
  · rcases hupheld.results i _ _ hi hr with ⟨hfailed, -⟩ | hsettled
    · exact hfailed
    · obtain ⟨_, _, _, heq⟩ := hsettled rfl
      cases heq
  · rcases htraced.whole i c hi with hnone | hpresent
    · exact .inl (htraced.absent hupheld hnone)
    · exact .inr hpresent

/-- The post `a` with the content `b`. -/
def shortPost : BlogCreateRequest where
  shopId := none
  title := some ⟨[97], by decide⟩
  images := none
  content := some ⟨[98], short_b⟩

/-- The digest of `shortPost`. -/
def shortDigest : List UInt8 :=
  [31, 148, 113, 90, 87, 215, 88, 233, 111, 245, 174, 170, 150, 236, 67, 108, 204, 77, 140, 210, 161, 183,
    227, 107, 204, 21, 147, 215, 24, 43, 155, 173]

/-- `shortPost` of the user 4 with the key `k`. -/
def shortCall (id : ℕ) : Call := .publish (some shortPost) (some [107]) (some 4) ⟨id, [some 7], 100, 0⟩

/-- The same request twice, the second while the first runs. -/
def sentTwice : List (Act Call) :=
  [.start (shortCall 1), .run 0, .start (shortCall 2), .run 1, .run 0, .run 0, .run 0, .run 0, .run 0,
    .run 1, .run 1, .run 1]

/-- The second request returns the post of the first one. -/
theorem publish_once_sentTwice :
    (publishingRun (fun _ => shortDigest) ⟨∅, ∅, ∅⟩ sentTwice).results 1 = some (.ok ⟨1, []⟩) ∧
    PublishedOnce (fun _ => shortDigest) sentTwice
      (publishingRun (fun _ => shortDigest) ⟨∅, ∅, ∅⟩ sentTwice) := by
  have hcalls : (publishingRun (fun _ => shortDigest) ⟨∅, ∅, ∅⟩ sentTwice).calls =
      [shortCall 1, shortCall 2] := rfl
  have hbody : ∀ c ∈ [shortCall 1, shortCall 2], c.body = some (toBlog shortPost) := by
    intro c hc
    rcases List.mem_cons.mp hc with rfl | hc
    · rfl
    · rcases List.mem_singleton.mp hc with rfl
      rfl
  refine ⟨rfl, publish_once ⟨rfl, fun b r _ => rfl⟩ ?_⟩
  rw [hcalls]
  intro c hc d hd a b ha hb _
  obtain rfl := Option.some.inj ((hbody c hc).symm.trans ha)
  obtain rfl := Option.some.inj ((hbody d hd).symm.trans hb)
  rfl

end runs

end CampusHub.Publishing
