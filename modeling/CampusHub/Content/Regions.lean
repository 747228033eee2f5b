import CampusHub.Content.Effects

/-!
# The region of a post

A post, its comments and their audits change only under the lock of the post.

* `Agree` — two tables are the same in the region of a post.
* `Evolves` — what any writers leave of the tables: authors and shops of posts, all of a comment but its
  status, and the audits stay; a post that is withdrawn keeps its fields and gets no comment.
* `contentRegions` — the regions, with `effect_regions`, that each call changes its own only.

A region is the row of a post, its comments and their audits, guarded by the row of the post: a writer works
on one region, and reads what it needs of the others only before it holds its lock. `effect_regions` says
that the writers keep to this, and that a call leaves the others what they rely on.

**Proof route.** `Evolves` is reflexive and transitive, so it relates the tables at any two moments of a
run, and it says exactly what a plain read of an earlier moment may still be used for: the post of a
comment, its author and its parent. Each effect is checked against it and against `Agree` for the other
posts.

**Left out.** A move of a comment from one post to another, for which the source has no request.
-/

namespace CampusHub.Content

open CampusHub.Domain CampusHub.Foundations.Maps CampusHub.Foundations.Transactions

/-- Two tables are the same in the region of the post `b`. -/
structure Agree (b : ℕ) (t t' : Tables) : Prop where
  blog : t'.blogs.lookup b = t.blogs.lookup b
  comment : ∀ id, t'.commentOf b id = t.commentOf b id
  commentAudit : ∀ id, (t.commentOf b id).isSome →
    t'.commentAudits.lookup id = t.commentAudits.lookup id
  replyAudit : ∀ id, (t.commentOf b id).isSome → t'.replyAudits.lookup id = t.replyAudits.lookup id

/-- A status that a comment may have later. -/
def Moves (s s' : Option ℕ) : Prop := s' = s ∨ s = some 0 ∧ (s' = some 2 ∨ s' = some 3)

/-- What may become of a post: author and shop stay, and once it is withdrawn all but the counter of its
comments. -/
def Blog.Becomes (row row' : Blog) : Prop :=
  row'.userId = row.userId ∧ row'.shopId = row.shopId ∧
    (row.withdrawn ≠ 0 → row' = { row with comments := row'.comments })

/-- What may become of a comment: only its status moves. -/
def BlogComments.Becomes (row row' : BlogComments) : Prop :=
  row' = { row with status := row'.status } ∧ Moves row.status row'.status

/-- **What the writers leave of the tables.** -/
structure Evolves (t t' : Tables) : Prop where
  blogs : ∀ b row, t.blogs.lookup b = some row → ∃ row', t'.blogs.lookup b = some row' ∧ row.Becomes row'
  comments : ∀ id row, t.comments.lookup id = some row →
    ∃ row', t'.comments.lookup id = some row' ∧ row.Becomes row'
  commentAudits : ∀ id a, t.commentAudits.lookup id = some a → t'.commentAudits.lookup id = some a
  replyAudits : ∀ id a, t.replyAudits.lookup id = some a → t'.replyAudits.lookup id = some a
  /-- A post that is withdrawn gets no comment. -/
  closed : ∀ b blog, t.blogs.lookup b = some blog → blog.withdrawn ≠ 0 →
    ∀ id row, t'.comments.lookup id = some row → row.blogId = b → (t.comments.lookup id).isSome

section order

variable {t t' t'' : Tables} {b : ℕ}

/-- Tables agree with themselves. -/
theorem Agree.refl (b : ℕ) (t : Tables) : Agree b t t :=
  ⟨rfl, fun _ => rfl, fun _ _ => rfl, fun _ _ => rfl⟩

/-- What agrees with the same agrees. -/
theorem Agree.trans (h : Agree b t t') (h' : Agree b t' t'') : Agree b t t'' where
  blog := h'.blog.trans h.blog
  comment id := (h'.comment id).trans (h.comment id)
  commentAudit id hid := (h'.commentAudit id (h.comment id ▸ hid)).trans (h.commentAudit id hid)
  replyAudit id hid := (h'.replyAudit id (h.comment id ▸ hid)).trans (h.replyAudit id hid)

/-- A status moves on. -/
theorem Moves.trans {s s' s'' : Option ℕ} (h : Moves s s') (h' : Moves s' s'') : Moves s s'' := by
  rcases h with rfl | ⟨rfl, hs'⟩
  · exact h'
  · rcases h' with rfl | ⟨h0, -⟩
    · exact .inr ⟨rfl, hs'⟩
    · rcases hs' with rfl | rfl <;> cases h0

/-- A post stays as it is. -/
theorem Blog.Becomes.refl (row : Blog) : row.Becomes row := ⟨rfl, rfl, fun _ => rfl⟩

/-- What may become of a post later. -/
theorem Blog.Becomes.trans {r r' r'' : Blog} (h : r.Becomes r') (h' : r'.Becomes r'') :
    r.Becomes r'' := by
  refine ⟨h'.1.trans h.1, h'.2.1.trans h.2.1, fun hr => ?_⟩
  have hr' := h.2.2 hr
  have hr'' := h'.2.2 (by rw [hr']; exact hr)
  rw [hr'', hr']

/-- A comment stays as it is. -/
theorem BlogComments.Becomes.refl (row : BlogComments) : row.Becomes row := ⟨rfl, .inl rfl⟩

/-- What may become of a comment later. -/
theorem BlogComments.Becomes.trans {r r' r'' : BlogComments} (h : r.Becomes r')
    (h' : r'.Becomes r'') : r.Becomes r'' := by
  refine ⟨?_, h.2.trans h'.2⟩
  rw [h'.1, h.1]

/-- Tables that nobody writes evolve into themselves. -/
theorem Evolves.refl (t : Tables) : Evolves t t where
  blogs _ row h := ⟨row, h, .refl row⟩
  comments _ row h := ⟨row, h, .refl row⟩
  commentAudits _ _ h := h
  replyAudits _ _ h := h
  closed _ _ _ _ _ _ h _ := Option.isSome_of_eq_some h

/-- One writer after another. -/
theorem Evolves.trans (h : Evolves t t') (h' : Evolves t' t'') : Evolves t t'' where
  blogs b row hrow := by
    obtain ⟨row', hrow', hbecomes⟩ := h.blogs b row hrow
    obtain ⟨row'', hrow'', hbecomes'⟩ := h'.blogs b row' hrow'
    exact ⟨row'', hrow'', hbecomes.trans hbecomes'⟩
  comments id row hrow := by
    obtain ⟨row', hrow', hbecomes⟩ := h.comments id row hrow
    obtain ⟨row'', hrow'', hbecomes'⟩ := h'.comments id row' hrow'
    exact ⟨row'', hrow'', hbecomes.trans hbecomes'⟩
  commentAudits id a ha := h'.commentAudits id a (h.commentAudits id a ha)
  replyAudits id a ha := h'.replyAudits id a (h.replyAudits id a ha)
  closed b blog hblog hwithdrawn id row hrow hid := by
    obtain ⟨blog', hblog', -, -, hkept⟩ := h.blogs b blog hblog
    have hwithdrawn' : blog'.withdrawn ≠ 0 := by
      rw [hkept hwithdrawn]
      exact hwithdrawn
    obtain ⟨row', hrow'⟩ := Option.isSome_iff_exists.mp (h'.closed b blog' hblog' hwithdrawn' id row hrow hid)
    obtain ⟨row'', hrow'', hbecomes, -⟩ := h'.comments id row' hrow'
    obtain rfl := Option.some.inj (hrow.symm.trans hrow'')
    refine h.closed b blog hblog hwithdrawn id row' hrow' ?_
    rw [← hid, hbecomes]

end order

/-! ## The effects -/

section effects

variable {t : Tables} {id : ℕ} {row : BlogComments} {blog : Blog}

/-- A new comment takes no row away, and its post is not withdrawn. -/
theorem evolves_countIn (hnew : t.comments.lookup id = none)
    (hblog : t.blogs.lookup row.blogId = some blog) (hvisible : blog.withdrawn = 0) :
    Evolves t (t.countIn id row blog) where
  blogs b old hold := by
    simp only [Tables.countIn, lookup_insert_eq]
    split
    · rename_i hb
      rw [hb, hblog] at hold
      obtain rfl := Option.some.inj hold
      exact ⟨_, rfl, rfl, rfl, fun h => absurd hvisible h⟩
    · exact ⟨old, hold, .refl old⟩
  comments i old hold := by
    simp only [Tables.countIn, lookup_insert_eq]
    split
    · rename_i hi
      rw [hi, hnew] at hold
      cases hold
    · exact ⟨old, hold, .refl old⟩
  commentAudits _ _ h := h
  replyAudits _ _ h := h
  closed b old hold hwithdrawn i new hnew' hb := by
    simp only [Tables.countIn, lookup_insert_eq] at hnew'
    split at hnew'
    · obtain rfl := Option.some.inj hnew'
      rw [← hb, hblog] at hold
      obtain rfl := Option.some.inj hold
      exact absurd hvisible hwithdrawn
    · exact Option.isSome_of_eq_some hnew'

/-- It is none of the other posts'. -/
theorem agree_countIn (hnew : t.comments.lookup id = none) {b : ℕ} (hb : row.blogId ≠ b) :
    Agree b t (t.countIn id row blog) where
  blog := by
    rw [Tables.countIn, lookup_insert_eq, if_neg hb.symm]
  comment i := by
    simp only [Tables.commentOf, Tables.countIn, lookup_insert_eq]
    split
    · rename_i hi
      rw [hi, hnew]
      simp [hb]
    · rfl
  commentAudit _ _ := rfl
  replyAudit _ _ := rfl

/-- A comment that is shown may be hidden or withdrawn. -/
theorem evolves_countOut {status : ℕ} (hrow : t.comments.lookup id = some row)
    (hstatus : row.status = some 0) (hto : status = 2 ∨ status = 3)
    (hblog : t.blogs.lookup row.blogId = some blog) : Evolves t (t.countOut id row blog status) where
  blogs b old hold := by
    simp only [Tables.countOut, lookup_insert_eq]
    split
    · rename_i hb
      rw [hb, hblog] at hold
      obtain rfl := Option.some.inj hold
      exact ⟨_, rfl, rfl, rfl, fun _ => rfl⟩
    · exact ⟨old, hold, .refl old⟩
  comments i old hold := by
    simp only [Tables.countOut, lookup_insert_eq]
    split
    · rename_i hi
      rw [hi, hrow] at hold
      obtain rfl := Option.some.inj hold
      exact ⟨_, rfl, rfl, .inr ⟨hstatus, hto.imp (congrArg some) (congrArg some)⟩⟩
    · exact ⟨old, hold, .refl old⟩
  commentAudits _ _ h := h
  replyAudits _ _ h := h
  closed b old hold hwithdrawn i new hnew' hb := by
    simp only [Tables.countOut, lookup_insert_eq] at hnew'
    split at hnew'
    · rename_i hi
      rw [hi, hrow]
      rfl
    · exact Option.isSome_of_eq_some hnew'

/-- The other posts keep their comments. -/
theorem agree_countOut {status : ℕ} (hrow : t.comments.lookup id = some row) {b : ℕ}
    (hb : row.blogId ≠ b) : Agree b t (t.countOut id row blog status) where
  blog := by
    rw [Tables.countOut, lookup_insert_eq, if_neg hb.symm]
  comment i := by
    simp only [Tables.commentOf, Tables.countOut, lookup_insert_eq]
    split
    · rename_i hi
      rw [hi, hrow]
      simp [Option.filter, hb]
    · rfl
  commentAudit _ _ := rfl
  replyAudit _ _ := rfl

/-- A first audit of a comment takes no audit away. -/
theorem Evolves.commentAudited {t' : Tables} {a : BlogCommentHideAudit} (h : Evolves t t')
    (hnone : t.commentAudits.lookup id = none) :
    Evolves t { t' with commentAudits := t.commentAudits.insert id a } where
  blogs := h.blogs
  comments := h.comments
  commentAudits i old hold := by
    rw [lookup_insert_eq, if_neg]
    · exact hold
    · rintro rfl
      rw [hnone] at hold
      cases hold
  replyAudits := h.replyAudits
  closed := h.closed

/-- A first audit of a reply takes no audit away. -/
theorem Evolves.replyAudited {t' : Tables} {a : BlogReplyHideAudit} (h : Evolves t t')
    (hnone : t.replyAudits.lookup id = none) :
    Evolves t { t' with replyAudits := t.replyAudits.insert id a } where
  blogs := h.blogs
  comments := h.comments
  commentAudits := h.commentAudits
  replyAudits i old hold := by
    rw [lookup_insert_eq, if_neg]
    · exact hold
    · rintro rfl
      rw [hnone] at hold
      cases hold
  closed := h.closed

/-- An audit of a comment of another post. -/
theorem not_commentOf {b i : ℕ} (hrow : t.comments.lookup id = some row) (hb : row.blogId ≠ b)
    (hi : (t.commentOf b i).isSome) : i ≠ id := by
  rintro rfl
  obtain ⟨row', hrow'⟩ := Option.isSome_iff_exists.mp hi
  obtain ⟨hlookup, hblog⟩ := Tables.commentOf_eq_some.mp hrow'
  obtain rfl := Option.some.inj (hrow.symm.trans hlookup)
  exact hb hblog

/-- An audit of a comment is none of the other posts'. -/
theorem Agree.commentAudited {t' : Tables} {a : BlogCommentHideAudit} {b : ℕ} (h : Agree b t t')
    (hrow : t.comments.lookup id = some row) (hb : row.blogId ≠ b) :
    Agree b t { t' with commentAudits := t.commentAudits.insert id a } where
  blog := h.blog
  comment := h.comment
  commentAudit i hi := by rw [lookup_insert_eq, if_neg (not_commentOf hrow hb hi)]
  replyAudit := h.replyAudit

/-- An audit of a reply is none of the other posts'. -/
theorem Agree.replyAudited {t' : Tables} {a : BlogReplyHideAudit} {b : ℕ} (h : Agree b t t')
    (hrow : t.comments.lookup id = some row) (hb : row.blogId ≠ b) :
    Agree b t { t' with replyAudits := t.replyAudits.insert id a } where
  blog := h.blog
  comment := h.comment
  commentAudit := h.commentAudit
  replyAudit i hi := by rw [lookup_insert_eq, if_neg (not_commentOf hrow hb hi)]

/-- A write to a post that is shown keeps its author and its shop. -/
theorem evolves_blog {b : ℕ} {blog' : Blog} (hblog : t.blogs.lookup b = some blog)
    (hvisible : blog.withdrawn = 0) (huser : blog'.userId = blog.userId)
    (hshop : blog'.shopId = blog.shopId) :
    Evolves t { t with blogs := t.blogs.insert b blog' } where
  blogs i old hold := by
    simp only [lookup_insert_eq]
    split
    · rename_i hi
      rw [hi, hblog] at hold
      obtain rfl := Option.some.inj hold
      exact ⟨blog', rfl, huser, hshop, fun h => absurd hvisible h⟩
    · exact ⟨old, hold, .refl old⟩
  comments _ old hold := ⟨old, hold, .refl old⟩
  commentAudits _ _ h := h
  replyAudits _ _ h := h
  closed _ _ _ _ _ _ h _ := Option.isSome_of_eq_some h

/-- The other posts stay as they are. -/
theorem agree_blog {b b' : ℕ} {blog' : Blog} (hb : b' ≠ b) :
    Agree b t { t with blogs := t.blogs.insert b' blog' } where
  blog := by rw [lookup_insert_eq, if_neg hb.symm]
  comment _ := rfl
  commentAudit _ _ := rfl
  replyAudit _ _ := rfl

end effects

/-! ## The regions -/

/-- The regions of the posts. A call that inserts relies on its id being free. -/
def contentRegions : Regions Call Tables Row ℕ where
  guard := .blog
  guard_injective _ _ h := Row.blog.inj h
  Agree := Agree
  agree_refl := .refl
  agree_trans _ _ _ _ := .trans
  Evolves := Evolves
  evolves_refl := .refl
  evolves_trans _ _ _ := .trans
  Ready c t := ∀ id, c.generated = some id → 0 < id ∧ t.comments.lookup id = none
  Apart c d := ∀ id, c.generated = some id → d.generated ≠ some id
  region := Call.region

/-- A call that inserts gets an id that nobody else has. -/
theorem contentSystem_admits {calls : List Call} {t : Tables} {c : Call}
    (h : contentSystem.admits calls t c = true) : contentRegions.Ready c t ∧
      ∀ d ∈ calls, contentRegions.Apart d c ∧ contentRegions.Apart c d := by
  simp only [contentSystem] at h
  split at h
  · rename_i id hid
    simp only [Bool.and_eq_true, decide_eq_true_eq, List.all_eq_true] at h
    obtain ⟨hfree, hothers⟩ := h
    refine ⟨fun i hi => ?_, fun d hd => ⟨fun i hi hi' => ?_, fun i hi hi' => ?_⟩⟩
    · obtain rfl := Option.some.inj (hid.symm.trans hi)
      exact hfree
    · obtain rfl := Option.some.inj (hid.symm.trans hi')
      exact hothers d hd hi
    · obtain rfl := Option.some.inj (hid.symm.trans hi)
      exact hothers d hd hi'
  · rename_i hid
    refine ⟨fun i hi => ?_, fun d _ => ⟨fun i _ hi => ?_, fun i hi => ?_⟩⟩ <;>
    · rw [hid] at hi
      cases hi

/-- A call keeps the ids of the others free. -/
theorem ready_countIn {t : Tables} {c d : Call} {id : ℕ} {row : BlogComments} {blog : Blog}
    (hid : c.generated = some id) (hapart : contentRegions.Apart c d) (h : contentRegions.Ready d t) :
    contentRegions.Ready d (t.countIn id row blog) := by
  intro i hi
  refine ⟨(h i hi).1, ?_⟩
  have hne : i ≠ id := by
    rintro rfl
    exact hapart i hid hi
  simp only [Tables.countIn, lookup_insert_eq, if_neg hne]
  exact (h i hi).2

/-- A write to a row that is there takes nobody's id. -/
theorem ready_of_insert {t t' : Tables} {d : Call} {id : ℕ} {row row' : BlogComments}
    (hrow : t.comments.lookup id = some row) (hcomments : t'.comments = t.comments.insert id row')
    (h : contentRegions.Ready d t) : contentRegions.Ready d t' := by
  intro i hi
  refine ⟨(h i hi).1, ?_⟩
  have hne : i ≠ id := by
    rintro rfl
    rw [(h i hi).2] at hrow
    cases hrow
  rw [hcomments, lookup_insert_eq, if_neg hne]
  exact (h i hi).2

/-- The post of a call on a comment. -/
theorem region_ofComment {id : ℕ} {t : Tables} {row : BlogComments} (hid : 0 < id)
    (hrow : t.comments.lookup id = some row) :
    ((positive (some (id : ℤ))).bind fun id => (t.comments.lookup id).map (·.blogId)) =
      some row.blogId := by
  have hpositive : positive (some (id : ℤ)) = some id := by simp [positive, hid]
  rw [hpositive, Option.bind_some, hrow, Option.map_some]

/-- **Each call changes the region of its post only**, and leaves the others ready. -/
theorem effect_regions {c : Call} {t t' : Tables} {r : Except Failure (Option BlogCommentItem)}
    (hready : contentRegions.Ready c t) (h : c.program.Alone t r t') :
    Evolves t t' ∧ (∀ b, c.region t ≠ some b → Agree b t t') ∧
      ∀ d, contentRegions.Apart c d → contentRegions.Ready d t → contentRegions.Ready d t' := by
  cases effect_of_alone h with
  | none => exact ⟨.refl t, fun b _ => .refl b t, fun _ _ h => h⟩
  | add hid hregion hblog hvisible hstatus hparent =>
    have hnew := (hready _ hid).2
    refine ⟨evolves_countIn hnew hblog hvisible, fun b hb => agree_countIn hnew fun h => hb ?_,
      fun d hapart => ready_countIn hid hapart⟩
    rw [hregion, h]
  | @withdraw id userId level row blog hid _ hcall hrow hstatus hblog =>
    obtain ⟨hlookup, -⟩ := exists_of_findOwned hrow
    have hregion : c.region t = some row.blogId := by
      rw [hcall]
      cases level <;> exact region_ofComment hid hlookup
    refine ⟨evolves_countOut hlookup hstatus (.inr rfl) hblog, fun b hb => agree_countOut hlookup
      fun h => hb ?_, fun d _ => ready_of_insert hlookup rfl⟩
    rw [hregion, h]
  | @hideComment id operator request reason row blog hid hcall hreason hrow hstatus hblog haudit =>
    obtain ⟨hlookup, -⟩ := exists_of_findModeratable hrow
    have hregion : c.region t = some row.blogId := by
      rw [hcall]
      exact region_ofComment hid hlookup
    refine ⟨(evolves_countOut hlookup hstatus (.inl rfl) hblog).commentAudited haudit, fun b hb => ?_,
      fun d _ => ready_of_insert hlookup rfl⟩
    have hne : row.blogId ≠ b := fun h => hb (h ▸ hregion)
    exact (agree_countOut hlookup hne).commentAudited hlookup hne
  | @hideReply id operator request reason row blog hid hcall hreason hrow hstatus hblog _ haudit =>
    obtain ⟨hlookup, -⟩ := exists_of_findModeratable hrow
    have hregion : c.region t = some row.blogId := by
      rw [hcall]
      exact region_ofComment hid hlookup
    refine ⟨(evolves_countOut hlookup hstatus (.inl rfl) hblog).replyAudited haudit, fun b hb => ?_,
      fun d _ => ready_of_insert hlookup rfl⟩
    have hne : row.blogId ≠ b := fun h => hb (h ▸ hregion)
    exact (agree_countOut hlookup hne).replyAudited hlookup hne
  | blog hregion hblog hvisible hkept =>
    refine ⟨evolves_blog hblog hvisible hkept.1 hkept.2.1, fun b hb => agree_blog fun h => hb ?_,
      fun d _ hd => hd⟩
    rw [hregion, h]

end CampusHub.Content
