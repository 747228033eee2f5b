import CampusHub.Content.Discipline

/-!
# All writers at once

* `writers_serializable` — any interleaving of the writers does what some order of their calls does, one
  after the other, and a reply that succeeds found its root and its post shown.
* `writers_never_deadlock` — no writers wait for each other in a circle, and the places of a comment
  never change.

**Theorem** (`writers_serializable`). Any interleaving of any calls of the nine writers, with statements and
commits that fail anywhere, leaves the tables that some order of the calls leaves, one after the other, and
each call has the result that it has in this order; a call that had returned before another started comes
first. A reply that succeeds found its root and its post shown.

**Theorem** (`writers_never_deadlock`). At no moment of such a run do writers wait in a circle.

Both are instances. The work is in `Content.Discipline`, which checks every statement, and in
`Foundations.Serializability` and `Foundations.Transactions`, which draw the conclusions from the checks.

**Left out.** The likes in Redis are no part of the serial order: they are written under the lock, and what
holds of them is `Content.LikeCounter`.
-/

namespace CampusHub.Content

open CampusHub.Domain CampusHub.Foundations CampusHub.Foundations.Transactions

/-- All callers of the content services. -/
abbrev ContentWorld := World Call Tables Row Likes Failure (Option BlogCommentItem)

/-- The callers after the steps `as`, from the tables `s`. -/
def contentRun (s : Tables) (likes : Likes) (as : List (Act Call)) : ContentWorld :=
  Runs.run (World.step contentSystem) (World.initial s likes) as

/-- A run goes on. -/
theorem contentRun_append (s : Tables) (likes : Likes) (as bs : List (Act Call)) :
    contentRun s likes (as ++ bs) =
      Runs.run (World.step contentSystem) (contentRun s likes as) bs :=
  Runs.run_append ..

/-- Every run keeps the callers sound. -/
theorem contentRun_sound (s : Tables) (likes : Likes) (as : List (Act Call)) :
    Sound contentSystem contentRegions Checked (contentRun s likes as) :=
  (sound_initial s likes).run content_disciplined as

/-- The tables evolve along every run. -/
theorem contentRun_evolves (s : Tables) (likes : Likes) (as bs : List (Act Call)) :
    Evolves (contentRun s likes as).tables (contentRun s likes (as ++ bs)).tables := by
  rw [contentRun_append]
  exact (contentRun_sound s likes as).evolves content_disciplined bs

/-- A reply that succeeds found its root and its post shown. -/
theorem visible_of_createReply {commentId user : Option ℤ} {request : Option BlogCommentReplyRequest}
    {id : ℕ} {t t' : Tables} {a : Option BlogCommentItem}
    (h : (createReply commentId request user id).Alone t (.ok a) t') :
    ∃ (rootId : ℕ) (root : BlogComments) (blog : Blog), commentId = some (rootId : ℤ) ∧
      t.findVisibleRoot rootId = some root ∧ t.blogs.lookup root.blogId = some blog ∧
      blog.withdrawn = 0 := by
  simp only [createReply, Txn.Alone, acts_orRefuse_ok, found_read_bind, found_on_bind,
    Txn.acts_select, Txn.acts_exec, id_eq] at h
  obtain ⟨rootId, hrootId, -, -, -, -, root, hroot, n, hn, -⟩ := h
  obtain ⟨blog, hblog, hvisible⟩ := Tables.exists_of_lockVisibleBlog hn
  exact ⟨rootId, root, blog, (exists_of_positive hrootId).2, hroot, hblog, hvisible⟩

/-- **Any interleaving of the writers** ends in the tables, and gives every call the result, of some
order of the calls, in which a call that returned before another started comes first; and a reply that
succeeds comes at a point where its root and its post are shown. -/
theorem writers_serializable (s : Tables) (likes : Likes) (as : List (Act Call)) :
    ∃ log, SerialOrder contentSystem s (contentRun s likes as) log ∧
      ∀ l₁ e l₂ t, log = l₁ ++ e :: l₂ →
        Serial contentSystem (contentRun s likes as).calls s l₁ t →
        Serial contentSystem (contentRun s likes as).calls t (e :: l₂) (contentRun s likes as).tables →
        ∀ commentId request user id item,
          (contentRun s likes as).calls[e.call]? = some (.createReply commentId request user id) →
          e.result = .ok item →
          ∃ (rootId : ℕ) (root : BlogComments) (blog : Blog), commentId = some (rootId : ℤ) ∧
            t.findVisibleRoot rootId = some root ∧ t.blogs.lookup root.blogId = some blog ∧
            blog.withdrawn = 0 := by
  obtain ⟨log, hlog⟩ := serializable content_disciplined s likes as
  refine ⟨log, hlog, fun l₁ e l₂ t _ _ hserial commentId request user id item hcall hresult => ?_⟩
  obtain ⟨u, ⟨c, hc, htakes⟩, -⟩ := hserial
  obtain rfl := Option.some.inj (hcall.symm.trans hc)
  rw [hresult] at htakes
  split at htakes
  · obtain ⟨-, herror | herror⟩ := htakes <;> cases herror
  · exact visible_of_createReply htakes

/-- **No writers wait in a circle**, and the post, the root and the parent of a comment stay. -/
theorem writers_never_deadlock (s : Tables) (likes : Likes) (as : List (Act Call)) :
    (∀ i, ¬ Relation.TransGen (contentRun s likes as).Waits i i) ∧
    ∀ bs id row, (contentRun s likes as).tables.comments.lookup id = some row →
      ∃ row', (contentRun s likes (as ++ bs)).tables.comments.lookup id = some row' ∧
        row'.blogId = row.blogId ∧ row'.parentId = row.parentId ∧ row'.answerId = row.answerId := by
  have hsound := contentRun_sound s likes as
  constructor
  · refine World.acyclic_of_ranked hsound.exclusive (contentRun s likes as).tables.rank
      fun i t row hi hrequests => ?_
    obtain ⟨c, -, hchecked⟩ := hsound.check hi fun e he => by
      rw [he] at hrequests
      cases hrequests
    exact hchecked.rises row hrequests
  · intro bs id row hrow
    obtain ⟨row', hrow', hbecomes, -⟩ := (contentRun_evolves s likes as bs).comments id row hrow
    refine ⟨row', hrow', ?_, ?_, ?_⟩ <;> rw [hbecomes]

end CampusHub.Content
