import CampusHub.Content.Ledger
import CampusHub.Foundations.Endings

/-!
# A post that is withdrawn

* `counter_of_effect` — only a withdrawal or a hide of one of its comments changes the row of a post that
  is withdrawn.
* `Locks` — the next statement of a call locks a post, and the post is free.
* `withdrawal_freezes` — what holds of a post in every state after its withdrawal.

**Theorem** (`withdrawal_freezes`). Take any run in which a post is withdrawn, and any continuation of it,
with calls that were in flight at the withdrawal. The post keeps all fields but the counter of its comments,
it gets no comment and no reply, and its likes stay. Its counter changes only in a step that withdraws or
hides one of its comments. A call that comes to lock it writes nothing and ends as `Call.onWithdrawn` says,
or with a fault where that would be a success.

**Proof route.** A writer acts on a post only under its lock, and the lock is granted on the post as it is
then. So a call that was in flight is either before its lock, and finds the post withdrawn, or it holds the
lock, and then the withdrawal has not committed. In the proof this is the soundness of every run
(`contentRun_sound`) with the effect of one call (`counter_of_effect`).

**Left out.** A way back: no writer takes a withdrawal back, by `Evolves`.
-/

namespace CampusHub.Content

open CampusHub.Domain CampusHub.Foundations CampusHub.Foundations.Maps
  CampusHub.Foundations.Transactions

section effects

variable {c : Call} {t t' : Tables} {b : ℕ} {blog blog' : Blog}

/-- A write to the row of a post changes no other. -/
theorem eq_of_insert_ne {i : ℕ} {old new : Blog} (hold : t.blogs.lookup i = some old)
    (hblog : t.blogs.lookup b = some blog) (hblog' : (t.blogs.insert i new).lookup b = some blog')
    (hne : blog' ≠ blog) : i = b ∧ old = blog ∧ blog' = new := by
  rw [lookup_insert_eq] at hblog'
  split at hblog'
  · rename_i hb
    rw [← hb] at hold
    exact ⟨hb.symm, Option.some.inj (hold.symm.trans hblog), (Option.some.inj hblog').symm⟩
  · exact absurd (Option.some.inj (hblog'.symm.trans hblog)) hne

/-- The row of a post that is withdrawn changes only when one of its comments is taken off it. -/
theorem counter_of_effect (heffect : Effect c t t') (hblog : t.blogs.lookup b = some blog)
    (hwithdrawn : blog.withdrawn ≠ 0) (hblog' : t'.blogs.lookup b = some blog') (hne : blog' ≠ blog) :
    ∃ id row n, Shift c id row n ∧ row.blogId = b ∧ t.comments.lookup id = some row ∧
      row.status = some 0 ∧ t'.comments.lookup id = some { row with status := some n } ∧
      blog' = { blog with comments := some (Tables.decremented blog.comments) } := by
  cases heffect with
  | none => exact absurd (Option.some.inj (hblog'.symm.trans hblog)) hne
  | add _ _ hold hvisible _ _ =>
    obtain ⟨-, rfl, -⟩ := eq_of_insert_ne hold hblog hblog' hne
    exact absurd hvisible hwithdrawn
  | @withdraw id userId level row old _ _ hcall hrow hstatus hold =>
    obtain ⟨hlookup, rfl, hfits, -⟩ := exists_of_findOwned hrow
    obtain ⟨hb, rfl, hnew⟩ := eq_of_insert_ne hold hblog hblog' hne
    exact ⟨id, row, 3, .withdrawn hcall hfits, hb, hlookup, hstatus, Finmap.lookup_insert _, hnew⟩
  | @hideComment id operator request reason row old _ hcall hreason hrow hstatus hold _ =>
    obtain ⟨hlookup, hfits, -⟩ := exists_of_findModeratable hrow
    obtain ⟨hb, rfl, hnew⟩ := eq_of_insert_ne hold hblog hblog' hne
    exact ⟨id, row, 2, .hidden hcall hreason hfits, hb, hlookup, hstatus, Finmap.lookup_insert _, hnew⟩
  | @hideReply id operator request reason row old _ hcall hreason hrow hstatus hold _ _ =>
    obtain ⟨hlookup, hfits, -⟩ := exists_of_findModeratable hrow
    obtain ⟨hb, rfl, hnew⟩ := eq_of_insert_ne hold hblog hblog' hne
    exact ⟨id, row, 2, .replyHidden hcall hreason hfits, hb, hlookup, hstatus,
      Finmap.lookup_insert _, hnew⟩
  | blog _ hold hvisible _ =>
    obtain ⟨-, rfl, -⟩ := eq_of_insert_ne hold hblog hblog' hne
    exact absurd hvisible hwithdrawn

/-- `withdrawBlog` on a post that is withdrawn. -/
theorem withdrawBlog_again {user : ℕ} (hb : 0 < b) (huser : 0 < user)
    (hblog : t.blogs.lookup b = some blog) (hwithdrawn : blog.withdrawn = 1)
    (r : Except Failure (Option BlogCommentItem)) :
    (withdrawBlog (some b) (some user)).Alone t r t' ↔
      r = (if user = blog.userId then .ok none
        else .error (.business { errorCode := .authorizationFailed })) ∧ t' = t := by
  have hfound : (t.findBlogForAuthorWithdrawal b).value = some blog := hblog
  unfold withdrawBlog Txn.Alone
  rw [acts_given (positive_natCast hb), acts_given (positive_natCast huser), acts_found_on rfl hfound]
  by_cases hauthor : user = blog.userId
  · rw [if_neg (not_not.mpr hauthor), if_pos hwithdrawn, if_pos hauthor]
    rfl
  · rw [if_pos hauthor, if_neg hauthor]
    rfl

/-- How a call on a withdrawn post ends depends on its author only. -/
theorem onWithdrawn_congr (h : blog'.userId = blog.userId) : c.onWithdrawn blog' = c.onWithdrawn blog := by
  cases c <;> simp only [Call.onWithdrawn, h]

end effects

/-! ## Runs -/

/-- The next statement of the call `i` locks the post `b`, and nobody else holds it. -/
def Locks (w : ContentWorld) (i b : ℕ) : Prop :=
  ∃ t, w.tasks i = some t ∧ t.program.requests = some (.blog b) ∧ w.blocked i (.blog b) = false

section runs

variable {s : Tables} {likes : Likes} {as : List (Act Call)} {b : ℕ} {blog : Blog}

/-- In every run a call that is in progress has no result yet. -/
theorem contentRun_orderly : World.Orderly (contentRun s likes as) :=
  Runs.run_invariant (I := World.Orderly) _ (fun _ a h => h.step a) as
    (World.orderly_initial s likes)

/-- A post that is withdrawn stays as it is, but for its counter of comments. -/
theorem frozen_run (bs : List (Act Call))
    (hblog : (contentRun s likes as).tables.blogs.lookup b = some blog) (hwithdrawn : blog.withdrawn = 1) :
    ∃ n, (contentRun s likes (as ++ bs)).tables.blogs.lookup b = some { blog with comments := n } := by
  obtain ⟨blog', hblog', -, -, hkept⟩ := (contentRun_evolves s likes as bs).blogs b blog hblog
  refine ⟨blog'.comments, ?_⟩
  rw [← hkept (by rw [hwithdrawn]; exact Nat.one_ne_zero)]
  exact hblog'

/-- The likes of a post that is withdrawn stay. -/
theorem likes_run (bs : List (Act Call))
    (hblog : (contentRun s likes as).tables.blogs.lookup b = some blog) (hwithdrawn : blog.withdrawn = 1) :
    (contentRun s likes (as ++ bs)).store b = (contentRun s likes as).store b := by
  induction bs using List.reverseRecOn with
  | nil => rw [List.append_nil]
  | append_singleton bs a ih =>
    rw [← ih, ← List.append_assoc, contentRun_append _ _ (as ++ bs), Runs.run_cons, Runs.run_nil]
    rcases World.store_step (S := contentSystem) (w := contentRun s likes (as ++ bs)) a with
      hsame | ⟨i, t, β, command, next, hi, hp, hstore⟩
    · rw [hsame]
    · obtain ⟨n, hnow⟩ := frozen_run bs hblog hwithdrawn
      obtain ⟨c, -, hchecked⟩ := (contentRun_sound s likes (as ++ bs)).check hi fun e he => by
        rw [he] at hp
        cases hp
      have hfrozen := hchecked.frozen
      unfold Frozen at hfrozen
      rw [hp] at hfrozen
      rw [hstore]
      exact hfrozen _ b _ hnow hwithdrawn

/-- A call that locks a post that is withdrawn is over. -/
theorem ended_of_locks {i : ℕ} {c : Call} {r : Except Failure (Option BlogCommentItem)}
    (hblog : (contentRun s likes as).tables.blogs.lookup b = some blog) (hwithdrawn : blog.withdrawn = 1)
    (hlocks : Locks (contentRun s likes as) i b) (hc : (contentRun s likes as).calls[i]? = some c)
    (hr : c.onWithdrawn blog = some r) :
    World.Ended contentSystem ((contentRun s likes as).step contentSystem (.run i)) i r ∧
      ((contentRun s likes as).step contentSystem (.run i)).tables = (contentRun s likes as).tables ∧
      ((contentRun s likes as).step contentSystem (.run i)).store = (contentRun s likes as).store := by
  obtain ⟨t, hi, hrequests, hfree⟩ := hlocks
  obtain ⟨c', hc', hchecked⟩ := (contentRun_sound s likes as).check hi fun e he => by
    rw [he] at hrequests
    cases hrequests
  obtain rfl := Option.some.inj (hc.symm.trans hc')
  have hfrozen := hchecked.frozen
  unfold Frozen at hfrozen
  cases hp : t.program with
  | exec row statement next =>
    rw [hp] at hrequests hfrozen
    obtain rfl := Option.some.inj hrequests
    obtain ⟨hdone, hwrite⟩ := hfrozen b blog r rfl hblog hwithdrawn hr
    exact World.ended_of_exec contentRun_orderly hi hp hfree hdone hwrite
  | _ =>
    rw [hp] at hrequests
    cases hrequests

/-- A counter of a post that is withdrawn changes when one of its comments is taken off it. -/
theorem counter_run {a : Act Call} {m n : Option ℕ} (hwithdrawn : blog.withdrawn = 1)
    (hm : (contentRun s likes as).tables.blogs.lookup b = some { blog with comments := m })
    (hn : (contentRun s likes (as ++ [a])).tables.blogs.lookup b = some { blog with comments := n })
    (hne : n ≠ m) : ∃ i c id row k, a = .run i ∧ (contentRun s likes as).calls[i]? = some c ∧
      Shift c id row k ∧ row.blogId = b ∧
      (contentRun s likes as).tables.comments.lookup id = some row ∧ row.status = some 0 ∧
      (contentRun s likes (as ++ [a])).tables.comments.lookup id = some { row with status := some k } ∧
      n = some (Tables.decremented m) := by
  rw [contentRun_append, Runs.run_cons, Runs.run_nil] at hn ⊢
  have hchanged : ({ blog with comments := n } : Blog) ≠ { blog with comments := m } :=
    fun h => hne (congrArg Blog.comments h)
  rcases (contentRun_sound s likes as).tables a with hsame | ⟨i, c, x, rfl, hc, -, halone, -⟩
  · rw [hsame, hm] at hn
    exact absurd (Option.some.inj hn).symm hchanged
  · obtain ⟨id, row, k, hshift, hblogId, hrow, hopen, hrow', hdown⟩ :=
      counter_of_effect (effect_of_alone halone) hm (by rw [hwithdrawn]; exact Nat.one_ne_zero) hn hchanged
    exact ⟨i, c, id, row, k, rfl, hc, hshift, hblogId, hrow, hopen, hrow',
      congrArg Blog.comments hdown⟩

end runs

/-- **A withdrawal freezes its post.** In every state after it: the post keeps all its fields but the
counter of comments; it gets no comment or reply; its likes stay; its counter changes only when one of
its comments is withdrawn or hidden; an edit, a like, a comment or a reply that locks the post from then
on is refused as not found and writes nothing; and a further withdrawal writes nothing, succeeds for the
author and is refused to others. -/
theorem withdrawal_freezes {s : Tables} {likes : Likes} {as : List (Act Call)} {b : ℕ} {blog : Blog}
    (hblog : (contentRun s likes as).tables.blogs.lookup b = some blog)
    (hwithdrawn : blog.withdrawn = 1) (bs : List (Act Call)) :
    (∃ n, (contentRun s likes (as ++ bs)).tables.blogs.lookup b = some { blog with comments := n }) ∧
    (∀ id row, (contentRun s likes (as ++ bs)).tables.comments.lookup id = some row →
      row.blogId = b → ((contentRun s likes as).tables.comments.lookup id).isSome) ∧
    (contentRun s likes (as ++ bs)).store b = (contentRun s likes as).store b ∧
    (∀ a m n, (contentRun s likes (as ++ bs)).tables.blogs.lookup b = some { blog with comments := m } →
      (contentRun s likes (as ++ bs ++ [a])).tables.blogs.lookup b =
        some { blog with comments := n } → n ≠ m →
      ∃ i c id row k, a = .run i ∧ (contentRun s likes (as ++ bs)).calls[i]? = some c ∧
        Shift c id row k ∧ row.blogId = b ∧
        (contentRun s likes (as ++ bs)).tables.comments.lookup id = some row ∧
        row.status = some 0 ∧
        (contentRun s likes (as ++ bs ++ [a])).tables.comments.lookup id =
          some { row with status := some k } ∧
        n = some (Tables.decremented m)) ∧
    (∀ i c r, Locks (contentRun s likes (as ++ bs)) i b →
      (contentRun s likes (as ++ bs)).calls[i]? = some c → c.onWithdrawn blog = some r →
      (contentRun s likes (as ++ bs ++ [.run i])).tables = (contentRun s likes (as ++ bs)).tables ∧
      (contentRun s likes (as ++ bs ++ [.run i])).store = (contentRun s likes (as ++ bs)).store ∧
      ∀ ds, (∀ r', (contentRun s likes (as ++ bs ++ .run i :: ds)).results i = some r' →
          r' = r ∨ (∃ a, r = .ok a) ∧ r' = .error .raised) ∧
        ∀ sent, ∀ a ∈ [Act.run i, Act.fail i sent],
          (contentRun s likes (as ++ bs ++ .run i :: ds ++ [a])).tables =
            (contentRun s likes (as ++ bs ++ .run i :: ds)).tables ∧
          (contentRun s likes (as ++ bs ++ .run i :: ds ++ [a])).store =
            (contentRun s likes (as ++ bs ++ .run i :: ds)).store) ∧
    (∀ user : ℕ, 0 < b → 0 < user → ∀ r t',
      (withdrawBlog (some b) (some user)).Alone (contentRun s likes (as ++ bs)).tables r t' ↔
        r = (if user = blog.userId then .ok none
          else .error (.business { errorCode := .authorizationFailed })) ∧
        t' = (contentRun s likes (as ++ bs)).tables) := by
  obtain ⟨m, hnow⟩ := frozen_run bs hblog hwithdrawn
  refine ⟨⟨m, hnow⟩, fun id row hrow hrowBlog => ?_, likes_run bs hblog hwithdrawn,
    fun a m n hm hn hne => counter_run hwithdrawn hm hn hne, fun i c r hlocks hc hr => ?_,
    fun user hb huser r t' => withdrawBlog_again hb huser hnow hwithdrawn r⟩
  · exact (contentRun_evolves s likes as bs).closed b blog hblog
      (by rw [hwithdrawn]; exact Nat.one_ne_zero) id row hrow hrowBlog
  · obtain ⟨hended, htables, hstore⟩ := ended_of_locks hnow hwithdrawn hlocks hc
      ((onWithdrawn_congr rfl).trans hr)
    refine ⟨?_, ?_, fun ds => ?_⟩
    · rw [contentRun_append _ _ (as ++ bs)]
      exact htables
    · rw [contentRun_append _ _ (as ++ bs)]
      exact hstore
    · have hlater : World.Ended contentSystem (contentRun s likes (as ++ bs ++ .run i :: ds)) i r := by
        rw [contentRun_append]
        exact hended.run ds
      refine ⟨hlater.result, fun sent a ha => ?_⟩
      rw [contentRun_append _ _ _ [a], Runs.run_cons, Runs.run_nil]
      rcases List.mem_cons.mp ha with rfl | ha
      · exact hlater.idle_run
      · rw [List.mem_singleton.mp ha]
        exact hlater.idle_fail sent

/-- A like that starts after the withdrawal leaves no score. -/
theorem withdrawal_freezes_onePost : (contentRun (onePost 1 0) (fun _ _ => none)
    ([.start (.withdrawBlog (some 1) (some 4)), .run 0, .run 0, .run 0] ++
      [.start (.likeBlog (some 1) (some 9) 100), .run 1])).store 1 = fun _ => none :=
  (@withdrawal_freezes (onePost 1 0) (fun _ _ => none)
    [.start (.withdrawBlog (some 1) (some 4)), .run 0, .run 0, .run 0] 1 _ rfl rfl
    [.start (.likeBlog (some 1) (some 9) 100), .run 1]).2.2.1

end CampusHub.Content
