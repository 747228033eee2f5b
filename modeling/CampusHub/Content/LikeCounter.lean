import Mathlib.Data.Set.Card
import CampusHub.Content.Withdrawal

/-!
# The counter of likes

* `Matches` — the counter of a post is the size of its sorted set.
* `Phase` — where a call of `likeBlog` stands, and what it has done to its post and to the sorted set.
* `Balanced` — what holds of posts, sorted sets and calls while no store call and no commit fails.
* `likes_move_together` — the result over all such runs.

**Theorem** (`likes_move_together`). In every run of likes, edits and withdrawals in which no statement, no
store call and no commit fails: while nobody is liking a post, its counter is the size of its sorted set,
and a user who was not in the set at the start is in it exactly when an odd number of their calls has
succeeded. A call that is about to take a like back finds a counter above zero, so the guard of its update
holds.

**Proof route.** The counter is written in the database and the member in Redis, and between the two the
pair does not agree. The row lock of the post covers both, so only the holder sees the gap: `Phase` names
the six places where a call can stand, `Phase.goes` is the step lemma, and `Balanced` says that the pair
agrees where no call stands between its two writes. `Balanced.run` carries it over each kind of step.

**Left out.** Runs with a fault. A commit that fails after `ZADD` leaves a member that is not counted; the
source promises no atomicity there.
-/

namespace CampusHub.Content

open CampusHub.Domain CampusHub.Foundations CampusHub.Foundations.Maps
  CampusHub.Foundations.Transactions

/-! ## Counters and sorted sets -/

/-- The members of a sorted set. -/
def members (scores : ℤ → Option ℕ) : Set ℤ := {u | scores u ≠ none}

/-- The counter of a post is the size of its sorted set. -/
def Matches (row : Blog) (scores : ℤ → Option ℕ) : Prop :=
  (members scores).Finite ∧ row.liked = some (members scores).ncard

/-- The likes after `ZADD`, or after `ZREM` when there is no score. -/
def setLike (b : ℕ) (u : ℤ) (score : Option ℕ) (likes : Likes) : Likes :=
  fun b' u' => if b' = b ∧ u' = u then score else likes b' u'

section counters

variable {b : ℕ} {u : ℤ} {now : ℕ} {likes : Likes} {row : Blog}

/-- The other posts keep their likes. -/
theorem setLike_of_ne {b' : ℕ} (h : b' ≠ b) (score : Option ℕ) : setLike b u score likes b' = likes b' := by
  funext u'
  exact if_neg fun heq => h heq.1

/-- A like adds its user. -/
theorem members_like : members (setLike b u (some now) likes b) = insert u (members (likes b)) := by
  ext u'
  unfold members setLike
  by_cases hu : u' = u <;> simp [hu]

/-- The end of a like removes its user. -/
theorem members_unlike : members (setLike b u none likes b) = members (likes b) \ {u} := by
  ext u'
  unfold members setLike
  by_cases hu : u' = u <;> simp [hu]

/-- The first like of a user counts one more. -/
theorem Matches.like (h : Matches row (likes b)) (hu : likes b u = none) {n : ℕ} (hn : row.liked = some n) :
    Matches { row with liked := some (n + 1) } (setLike b u (some now) likes b) := by
  obtain ⟨hfinite, hcount⟩ := h
  have hnew : u ∉ members (likes b) := fun hmem => hmem hu
  have hsize : (members (likes b)).ncard = n := Option.some.inj (hcount.symm.trans hn)
  constructor
  · rw [members_like]
    exact hfinite.insert u
  · rw [members_like, Set.ncard_insert_of_notMem hnew hfinite, hsize]

/-- The second like takes it back. -/
theorem Matches.unlike (h : Matches row (likes b)) (hu : likes b u ≠ none) :
    ∃ n, row.liked = some (n + 1) ∧ Matches { row with liked := some n } (setLike b u none likes b) := by
  obtain ⟨hfinite, hcount⟩ := h
  have hmem : u ∈ members (likes b) := hu
  refine ⟨(members (likes b) \ {u}).ncard, ?_, ?_, ?_⟩
  · rw [hcount, Set.ncard_sdiff_singleton_add_one hmem hfinite]
  · rw [members_unlike]
    exact hfinite.sdiff
  · rw [members_unlike]

end counters

/-! ## The parts of `likeBlog` -/

/-- The last command. -/
def writeLike (b : ℕ) (u : ℤ) (score : Option ℕ) : ContentTxn (Option BlogCommentItem) :=
  .send (fun likes => ((), setLike b u score likes)) fun _ => pure none

/-- What follows the score of the user. -/
def toggle (b : ℕ) (u : ℤ) (now : ℕ) (score : Option ℕ) : ContentTxn (Option BlogCommentItem) :=
  if score.isNone then like b u now >>= fun _ => pure none else unlike b u >>= fun _ => pure none

/-- What follows the lock. -/
def askLike (b : ℕ) (u : ℤ) (now : ℕ) : ContentTxn (Option BlogCommentItem) :=
  .send (fun likes => (likes b u, likes)) (toggle b u now)

section programs

variable {b : ℕ} {u : ℤ} {now : ℕ}

/-- A like of an admitted post, statement by statement. -/
theorem likeBlog_eq {id : Option ℤ} (hid : positive id = some b) :
    likeBlog id (some u) now = .exec (.blog b) (fun t => t.findBlogForAuthorEdit b) fun v =>
      orRefuse v .notFound >>= fun _ => askLike b u now := by
  unfold likeBlog
  rw [hid]
  rfl

/-- A user without a score counts one more. -/
theorem toggle_none : toggle b u now none = .exec (.blog b) (fun t => t.incrementLiked b) fun rows =>
    match rows with
    | none => .raise .raised
    | some rows => if rows = 1 then writeLike b u (some now) else pure none := by
  have hdef : toggle b u now none = (like b u now >>= fun _ => pure none) := rfl
  rw [hdef, like_bind]
  rfl

/-- A user with a score counts one less. -/
theorem toggle_some (score : ℕ) : toggle b u now (some score) =
    .exec (.blog b) (fun t => t.decrementLiked b) fun rows =>
      if rows = 1 then writeLike b u none else pure none := by
  have hdef : toggle b u now (some score) = (unlike b u >>= fun _ => pure none) := rfl
  rw [hdef, unlike_bind]
  rfl

end programs

/-! ## Calls -/

/-- The post, the user and the time of a call that can like. -/
def Call.likes : Call → Option (ℕ × ℤ × ℕ)
  | .likeBlog id (some u) now => (positive id).map fun b => (b, u, now)
  | _ => none

/-- A like, an edit or a withdrawal of a post. -/
def Call.OnPost : Call → Prop
  | .likeBlog _ _ _ => True
  | .editBlog _ _ _ => True
  | .withdrawBlog _ _ => True
  | _ => False

section calls

variable {b : ℕ} {u : ℤ} {now : ℕ} {c : Call}

/-- A call that can like is a like, with an admitted id. -/
theorem exists_of_likes (h : c.likes = some (b, u, now)) :
    ∃ id, c = .likeBlog id (some u) now ∧ positive id = some b := by
  cases c with
  | likeBlog id user now' =>
    cases user with
    | none => cases h
    | some u' =>
      obtain ⟨b', hid, heq⟩ := Option.map_eq_some_iff.mp h
      obtain ⟨rfl, htail⟩ := Prod.mk.inj heq
      obtain ⟨rfl, rfl⟩ := Prod.mk.inj htail
      exact ⟨id, rfl, hid⟩
  | _ => cases h

/-- A check sends nothing. -/
theorem silent_orRefuse {β : Type} {value : Option β} {code : ErrorCode} :
    (orRefuse value code).Silent := by
  cases value <;> trivial

/-- A lock of a row that must be there sends nothing. -/
theorem silent_found {β : Type} {row : Row} {statement : Tables → Answer Tables (Option β)} :
    (found (.on row statement)).Silent := fun _ => silent_orRefuse

/-- An update of one row sends nothing. -/
theorem silent_one {row : Row} {statement : Tables → Answer Tables ℕ} :
    (one (.on row statement)).Silent := by
  intro n
  change (if n = 1 then pure () else refuse .operationFailed : ContentTxn Unit).Silent
  split <;> trivial

/-- A call that cannot like sends nothing. -/
theorem silent_program (hc : c.OnPost) (h : c.likes = none) : c.program.Silent := by
  cases c with
  | likeBlog id user now =>
    show (orRefuse (positive id) .notFound >>= _).Silent
    cases hid : positive id with
    | none => trivial
    | some b =>
      refine Txn.Silent.bind silent_orRefuse fun b => Txn.Silent.bind silent_found fun _ => ?_
      cases user with
      | none => trivial
      | some u =>
        have hnone : (positive id).map (fun b => (b, u, now)) = none := h
        rw [hid] at hnone
        cases hnone
  | editBlog id request user =>
    refine Txn.Silent.bind silent_orRefuse fun b => Txn.Silent.bind silent_orRefuse fun edit =>
      Txn.Silent.bind silent_orRefuse fun userId => Txn.Silent.bind silent_found fun stored => ?_
    split
    · trivial
    split
    · trivial
    split
    · trivial
    · exact Txn.Silent.bind silent_one fun _ => trivial
  | withdrawBlog id user =>
    refine Txn.Silent.bind silent_orRefuse fun b => Txn.Silent.bind silent_orRefuse fun userId =>
      Txn.Silent.bind silent_found fun stored => ?_
    split
    · trivial
    split
    · trivial
    · exact Txn.Silent.bind silent_one fun _ => trivial
  | _ => exact hc.elim

/-- An update of other fields keeps the counters of likes. -/
theorem liked_of_updateBlog {t : Tables} {i : ℕ} {p : Blog → Bool} {f : Blog → Blog} {row : Blog}
    (hf : ∀ b, (f b).liked = b.liked)
    (hrow : ((t.updateBlog i p f).write t).blogs.lookup b = some row) :
    ∃ old, t.blogs.lookup b = some old ∧ row.liked = old.liked := by
  unfold Tables.updateBlog at hrow
  split at hrow
  · rename_i old hold
    have hinsert : (t.blogs.insert i (f old)).lookup b = some row := hrow
    rw [lookup_insert_eq] at hinsert
    split at hinsert
    · rename_i hb
      obtain rfl := Option.some.inj hinsert
      rw [hb]
      exact ⟨old, (Option.filter_eq_some_iff.mp hold).1, hf old⟩
    · exact ⟨row, hinsert, rfl⟩
  · exact ⟨row, hrow, rfl⟩

/-- A call that cannot like keeps the counters of likes. -/
theorem liked_of_alone {t t' : Tables} {a : Option BlogCommentItem} {row : Blog} (hc : c.OnPost)
    (hlikes : c.likes = none) (h : c.program.Alone t (.ok a) t') (hrow : t'.blogs.lookup b = some row) :
    ∃ old, t.blogs.lookup b = some old ∧ row.liked = old.liked := by
  cases c with
  | likeBlog id user now =>
    simp only [Call.program, likeBlog, Txn.Alone, acts_orRefuse_ok, found_on_bind, Txn.acts_exec,
      id_eq] at h
    obtain ⟨blogId, hid, blog, -, h⟩ := h
    cases user with
    | none => cases h.1
    | some u =>
      have hnone : (positive id).map (fun b => (b, u, now)) = none := hlikes
      rw [hid] at hnone
      cases hnone
  | editBlog id request user =>
    simp only [Call.program, editBlog, Txn.Alone, acts_orRefuse_ok, found_on_bind, Txn.acts_exec,
      id_eq] at h
    obtain ⟨blogId, -, edit, -, userId, -, stored, -, h⟩ := h
    split at h
    · cases h.1
    split at h
    · cases h.1
    split at h
    · rw [h.2] at hrow
      exact ⟨row, hrow, rfl⟩
    · simp only [one_on_bind, Txn.acts_exec, acts_ite_ok, Txn.pure_eq, Txn.acts_ok] at h
      obtain ⟨-, -, rfl⟩ := h
      exact liked_of_updateBlog
        (f := fun row => { row with title := edit.title, images := edit.images, content := edit.content })
        (fun _ => rfl) hrow
  | withdrawBlog id user =>
    simp only [Call.program, withdrawBlog, Txn.Alone, acts_orRefuse_ok, found_on_bind, Txn.acts_exec,
      id_eq] at h
    obtain ⟨blogId, -, userId, -, stored, -, h⟩ := h
    split at h
    · cases h.1
    split at h
    · rw [h.2] at hrow
      exact ⟨row, hrow, rfl⟩
    · simp only [one_on_bind, Txn.acts_exec, acts_ite_ok, Txn.pure_eq, Txn.acts_ok] at h
      obtain ⟨-, -, rfl⟩ := h
      exact liked_of_updateBlog (f := fun row => { row with withdrawn := 1 }) (fun _ => rfl) hrow
  | _ => exact hc.elim

end calls

/-! ## Where a call stands -/

/-- The tables with another row for a post. -/
def putBlog (b : ℕ) (row : Blog) (s : Tables) : Tables := { s with blogs := s.blogs.insert b row }

/-- The program has come to its end without an error. -/
def isOver (t : ContentTask) : Bool :=
  match t.program with
  | .done (.ok _) => true
  | _ => false

/-- **Where a call of `likeBlog` stands**, and what it has done. -/
inductive Phase (b : ℕ) (u : ℤ) (now : ℕ) (s : Tables) (likes : Likes) (t : ContentTask) : Prop where
  /-- It waits for its post. -/
  | waiting (hp : t.program = .exec (.blog b) (fun t => t.findBlogForAuthorEdit b) fun v =>
      orRefuse v .notFound >>= fun _ => askLike b u now) (hwrite : t.write = id) (hheld : t.held = [])
  | refused {e : Failure} (hp : t.program = .done (.error e))
  | locked {row : Blog} (hp : t.program = askLike b u now) (hwrite : t.write = id)
      (hheld : .blog b ∈ t.held) (hrow : s.blogs.lookup b = some row) (hvisible : row.withdrawn = 0)
  /-- It knows the score of its user. -/
  | asked {row : Blog} (hp : t.program = toggle b u now (likes b u)) (hwrite : t.write = id)
      (hheld : .blog b ∈ t.held) (hrow : s.blogs.lookup b = some row) (hvisible : row.withdrawn = 0)
  /-- It has counted, and its user is still where it was. -/
  | counted {row : Blog} {score : Option ℕ} (hp : t.program = writeLike b u score)
      (hwrite : t.write = putBlog b row) (hheld : .blog b ∈ t.held)
      (hscore : score ≠ none ↔ likes b u = none) (hmatches : Matches row (setLike b u score likes b))
  | written {row : Blog} (hp : t.program = .done (.ok none)) (hwrite : t.write = putBlog b row)
      (hheld : .blog b ∈ t.held) (hmatches : Matches row (likes b))

section phases

variable {b : ℕ} {u : ℤ} {now : ℕ} {s s' : Tables} {likes likes' : Likes} {t : ContentTask} {row : Blog}

/-- Only the post that it holds matters. -/
theorem Phase.frame (h : Phase b u now s likes t)
    (hkept : .blog b ∈ t.held → s'.blogs.lookup b = s.blogs.lookup b ∧ likes' b = likes b) :
    Phase b u now s' likes' t := by
  cases h with
  | waiting hp hwrite hheld => exact .waiting hp hwrite hheld
  | refused hp => exact .refused hp
  | locked hp hwrite hheld hrow hvisible =>
    exact .locked hp hwrite hheld ((hkept hheld).1.trans hrow) hvisible
  | asked hp hwrite hheld hrow hvisible =>
    obtain ⟨hblogs, hlikes⟩ := hkept hheld
    exact .asked (by rw [hlikes]; exact hp) hwrite hheld (hblogs.trans hrow) hvisible
  | counted hp hwrite hheld hscore hmatches =>
    obtain ⟨-, hlikes⟩ := hkept hheld
    refine .counted hp hwrite hheld (by rw [hlikes]; exact hscore) ?_
    unfold setLike at hmatches ⊢
    rw [hlikes]
    exact hmatches
  | written hp hwrite hheld hmatches =>
    exact .written hp hwrite hheld (by rw [(hkept hheld).2]; exact hmatches)

/-- Whether a program is over can be read off it. -/
theorem over_of_program {p : ContentTxn (Option BlogCommentItem)} (hp : t.program = p)
    (hover : isOver { program := p } = false) : isOver t = false := by
  unfold isOver at hover ⊢
  rw [hp]
  exact hover

/-- A call that has still to count is not over. -/
theorem isOver_toggle (score : Option ℕ) : isOver { program := toggle b u now score } = false := by
  cases score with
  | none =>
    rw [toggle_none]
    rfl
  | some score =>
    rw [toggle_some]
    rfl

/-- A call at its end has counted. -/
theorem Phase.exists_of_ok (h : Phase b u now s likes t) {a : Option BlogCommentItem}
    (hp : t.program = .done (.ok a)) :
    ∃ row, t.write = putBlog b row ∧ .blog b ∈ t.held ∧ Matches row (likes b) := by
  cases h with
  | written hp' hwrite hheld hmatches => exact ⟨_, hwrite, hheld, hmatches⟩
  | asked hp' =>
    have hover := over_of_program hp' (isOver_toggle _)
    unfold isOver at hover
    rw [hp] at hover
    cases hover
  | waiting hp' => cases hp'.symm.trans hp
  | refused hp' => cases hp'.symm.trans hp
  | locked hp' => cases hp'.symm.trans hp
  | counted hp' => cases hp'.symm.trans hp

/-- The update of the first like. -/
theorem incrementLiked_of (hrow : s.blogs.lookup b = some row) (hvisible : row.withdrawn = 0) {n : ℕ}
    (hn : row.liked = some n) : s.incrementLiked b = if n < uintMax then
      { value := some 1, write := putBlog b { row with liked := some (n + 1) }, held := true }
    else { value := none, held := true } := by
  unfold Tables.incrementLiked
  have hfilter : (s.blogs.lookup b).filter (fun b => b.withdrawn = 0) = some row := by
    rw [hrow, Option.filter_eq_some_iff]
    exact ⟨rfl, decide_eq_true hvisible⟩
  rw [hfilter]
  dsimp only
  rw [hn]
  by_cases hlt : n < uintMax
  · simp only [Option.map_some, Tables.bump, if_pos hlt]
    rfl
  · simp only [Option.map_some, Tables.bump, if_neg hlt]

/-- The update that takes a like back. -/
theorem decrementLiked_of (hrow : s.blogs.lookup b = some row) (hvisible : row.withdrawn = 0) {n : ℕ}
    (hn : row.liked = some (n + 1)) : s.decrementLiked b =
      { value := 1, write := putBlog b { row with liked := some n }, held := true } := by
  unfold Tables.decrementLiked Tables.updateBlog
  have hfilter : (s.blogs.lookup b).filter
      (fun row => decide (row.withdrawn = 0 ∧ 0 < row.liked.getD 0)) = some row := by
    rw [hrow, Option.filter_eq_some_iff]
    refine ⟨rfl, decide_eq_true ⟨hvisible, ?_⟩⟩
    rw [hn]
    exact Nat.succ_pos n
  rw [hfilter]
  dsimp only
  rw [hn]
  rfl

end phases

/-! ## Steps of a call -/

/-- **What the next step of a call of `likeBlog` does.** -/
inductive Goes (b : ℕ) (u : ℤ) (now : ℕ) (w : ContentWorld) (i : ℕ) (t : ContentTask) :
    ContentWorld → Prop where
  | waits : Goes b u now w i t w
  | moves {t' : ContentTask} (hover : isOver t = false) (hover' : isOver t' = false)
      (hphase : Phase b u now w.tables w.store t') : Goes b u now w i t (w.setTask i t')
  /-- The write to the sorted set. -/
  | toggles {t' : ContentTask} {score : Option ℕ} (hover : isOver t = false) (hover' : isOver t' = true)
      (hheld : .blog b ∈ t.held) (hscore : score ≠ none ↔ w.store b u = none)
      (hphase : Phase b u now w.tables (setLike b u score w.store) t') :
      Goes b u now w i t { w.setTask i t' with store := setLike b u score w.store }
  | commits {row : Blog} (hp : t.program = .done (.ok none)) (hwrite : t.write = putBlog b row)
      (hmatches : Matches row (w.store b)) :
      Goes b u now w i t { w.finish i (.ok none) with tables := t.write w.tables }
  | fails {e : Failure} (hp : t.program = .done (.error e)) :
      Goes b u now w i t (w.finish i (.error e))

section steps

variable {b : ℕ} {u : ℤ} {now : ℕ} {w : ContentWorld} {i : ℕ} {t : ContentTask}

/-- The lock of the post. -/
theorem Goes.lock (hp : t.program = .exec (.blog b) (fun t => t.findBlogForAuthorEdit b) fun v =>
      orRefuse v .notFound >>= fun _ => askLike b u now) (hwrite : t.write = id) :
    Goes b u now w i t (w.runTask i t) := by
  have hover : isOver t = false := over_of_program hp rfl
  unfold World.runTask
  rw [hp]
  dsimp only
  rw [hwrite]
  split
  · exact .waits
  cases hfound : (w.tables.findBlogForAuthorEdit b).value with
  | none =>
    refine .moves hover ?_ ?_
    · exact over_of_program (congrArg (fun v => orRefuse v .notFound >>= fun _ => askLike b u now) hfound)
        rfl
    · exact .refused (congrArg (fun v => orRefuse v .notFound >>= fun _ => askLike b u now) hfound)
  | some row =>
    have hlookup : (w.tables.blogs.lookup b).filter (fun b => b.withdrawn = 0) = some row := hfound
    obtain ⟨hrow, hvisible⟩ := Option.filter_eq_some_iff.mp hlookup
    have hheld : (w.tables.findBlogForAuthorEdit b).held = true := Option.isSome_of_eq_some hrow
    have hnext := congrArg (fun v => orRefuse v .notFound >>= fun _ => askLike b u now) hfound
    refine .moves hover (over_of_program hnext rfl) (.locked hnext rfl ?_ hrow (of_decide_eq_true hvisible))
    show Row.blog b ∈ if (w.tables.findBlogForAuthorEdit b).held = true then _ else _
    rw [if_pos hheld]
    exact List.mem_cons_self

/-- The update of the counter. -/
theorem Goes.count {row : Blog} (hp : t.program = toggle b u now (w.store b u)) (hwrite : t.write = id)
    (hrow : w.tables.blogs.lookup b = some row)
    (hvisible : row.withdrawn = 0) (hmatches : Matches row (w.store b)) :
    Goes b u now w i t (w.runTask i t) := by
  have htables : t.write w.tables = w.tables := congrFun hwrite _
  cases hscore : w.store b u with
  | none =>
    rw [hscore, toggle_none] at hp
    have hover : isOver t = false := over_of_program hp rfl
    have hanswer := incrementLiked_of hrow hvisible hmatches.2
    by_cases hroom : (members (w.store b)).ncard < uintMax
    · rw [if_pos hroom] at hanswer
      rw [World.runTask_exec hp ((congrArg (fun t => t.incrementLiked b) htables).trans hanswer), hwrite]
      split
      · exact .waits
      · have hnext : (if 1 = 1 then writeLike b u (some now) else pure none) =
          writeLike b u (some now) := if_pos rfl
        refine .moves hover (over_of_program hnext rfl)
          (.counted hnext rfl List.mem_cons_self ?_ (hmatches.like hscore hmatches.2))
        exact ⟨fun _ => hscore, fun _ => Option.some_ne_none now⟩
    · rw [if_neg hroom] at hanswer
      rw [World.runTask_exec hp ((congrArg (fun t => t.incrementLiked b) htables).trans hanswer), hwrite]
      split
      · exact .waits
      · exact .moves hover (over_of_program rfl rfl) (.refused rfl)
  | some score =>
    rw [hscore, toggle_some] at hp
    have hover : isOver t = false := over_of_program hp rfl
    have hmember : w.store b u ≠ none := by
      rw [hscore]
      exact Option.some_ne_none score
    obtain ⟨n, hn, hmatches'⟩ := hmatches.unlike hmember
    rw [World.runTask_exec hp ((congrArg (fun t => t.decrementLiked b) htables).trans
      (decrementLiked_of hrow hvisible hn)), hwrite]
    split
    · exact .waits
    · have hnext : (if 1 = 1 then writeLike b u none else pure none) = writeLike b u none := if_pos rfl
      refine .moves hover (over_of_program hnext rfl)
        (.counted hnext rfl List.mem_cons_self ?_ hmatches')
      exact ⟨fun h => absurd rfl h, fun h => absurd h hmember⟩

/-- **The next step of a call of `likeBlog`.** -/
theorem Phase.goes (h : Phase b u now w.tables w.store t)
    (hmatches : isOver t = false → .blog b ∈ t.held →
      ∀ row, w.tables.blogs.lookup b = some row → Matches row (w.store b)) :
    Goes b u now w i t (w.runTask i t) := by
  cases h with
  | waiting hp hwrite hheld => exact .lock hp hwrite
  | refused hp =>
    unfold World.runTask
    rw [hp]
    exact .fails hp
  | locked hp hwrite hheld hrow hvisible =>
    have hover : isOver t = false := over_of_program hp rfl
    unfold World.runTask
    rw [hp]
    exact .moves hover (over_of_program rfl (isOver_toggle _))
      (.asked rfl hwrite hheld hrow hvisible)
  | asked hp hwrite hheld hrow hvisible =>
    have hover : isOver t = false := over_of_program hp (isOver_toggle _)
    exact .count hp hwrite hrow hvisible (hmatches hover hheld _ hrow)
  | counted hp hwrite hheld hscore hmatches' =>
    unfold World.runTask
    rw [hp]
    exact .toggles (over_of_program hp rfl) rfl hheld hscore (.written rfl hwrite hheld hmatches')
  | written hp hwrite hheld hmatches' =>
    unfold World.runTask
    rw [hp]
    exact .commits hp hwrite hmatches'

end steps

/-! ## All calls -/

/-- Where a call stands that runs. -/
def Standing (c : Call) (s : Tables) (likes : Likes) (t : ContentTask) : Prop :=
  match c.likes with
  | none => t.program.Silent
  | some (b, u, now) => Phase b u now s likes t

/-- The call can like the post for the user. -/
def Call.isLike (b : ℕ) (u : ℤ) (c : Call) : Bool :=
  c.likes.any fun l => decide (l.1 = b ∧ l.2.1 = u)

/-- The call has returned without an error. -/
def succeeded (w : ContentWorld) (i : ℕ) : Bool :=
  match w.results i with
  | some (.ok _) => true
  | _ => false

/-- The program of the call has come to its end without an error. -/
def wrote (w : ContentWorld) (i : ℕ) : Bool := succeeded w i || (w.tasks i).any isOver

/-- The calls of `likeBlog` of a user on a post that have succeeded. -/
def successes (w : ContentWorld) (b : ℕ) (u : ℤ) : Finset ℕ :=
  {i ∈ Finset.range w.calls.length | (w.calls[i]?.any (Call.isLike b u) && succeeded w i) = true}

/-- The calls of `likeBlog` of a user on a post that have written to its sorted set. -/
def toggled (w : ContentWorld) (b : ℕ) (u : ℤ) : Finset ℕ :=
  {i ∈ Finset.range w.calls.length | (w.calls[i]?.any (Call.isLike b u) && wrote w i) = true}

/-- Nobody has written to the sorted set of the post who has not committed. -/
def Settled (w : ContentWorld) (b : ℕ) : Prop :=
  ∀ i t c u now, w.tasks i = some t → w.calls[i]? = some c → c.likes = some (b, u, now) →
    isOver t = false

/-- **What holds while no store call and no commit fails.** `likes₀` are the likes at the start. -/
structure Balanced (likes₀ : Likes) (w : ContentWorld) : Prop where
  onPost : ∀ c ∈ w.calls, c.OnPost
  stands : ∀ i t c, w.tasks i = some t → w.calls[i]? = some c → Standing c w.tables w.store t
  matching : ∀ b row, w.tables.blogs.lookup b = some row → Settled w b → Matches row (w.store b)
  parity : ∀ b u, w.store b u ≠ none ↔ Xor (likes₀ b u ≠ none) (Odd (toggled w b u).card)

section worlds

variable {likes₀ : Likes} {w w' : ContentWorld} {b i : ℕ} {u : ℤ} {now : ℕ} {c : Call}
  {t t' : ContentTask}

/-- A call that can like stands in one of the phases. -/
theorem standing_of_likes {s : Tables} {likes : Likes} (h : c.likes = some (b, u, now)) :
    Standing c s likes t ↔ Phase b u now s likes t := by
  unfold Standing
  rw [h]

/-- Any other one will send nothing. -/
theorem standing_of_none {s : Tables} {likes : Likes} (h : c.likes = none) :
    Standing c s likes t ↔ t.program.Silent := by
  unfold Standing
  rw [h]

/-- What a call stands on stays while its own post and its likes do. -/
theorem Standing.frame {s s' : Tables} {likes likes' : Likes} (h : Standing c s likes t)
    (hkept : ∀ b, .blog b ∈ t.held → s'.blogs.lookup b = s.blogs.lookup b ∧ likes' b = likes b) :
    Standing c s' likes' t := by
  unfold Standing at h ⊢
  split at h
  · exact h
  · exact h.frame (hkept _)

/-- When a call can like the post for the user. -/
theorem isLike_iff : c.isLike b u = true ↔ ∃ now, c.likes = some (b, u, now) := by
  unfold Call.isLike
  cases hlikes : c.likes with
  | none => simp
  | some l =>
    obtain ⟨b', u', now'⟩ := l
    simp

/-- Who has written to the sorted set. -/
theorem mem_toggled : i ∈ toggled w b u ↔
    (∃ c, w.calls[i]? = some c ∧ c.isLike b u = true) ∧ wrote w i = true := by
  unfold toggled
  rw [Finset.mem_filter, Bool.and_eq_true, Option.any_eq_true, Finset.mem_range]
  refine ⟨fun h => h.2, fun h => ⟨?_, h⟩⟩
  obtain ⟨c, hc, -⟩ := h.1
  exact (List.getElem?_eq_some_iff.mp hc).1

/-- The same calls have written when each of them has done as before. -/
theorem toggled_congr (hcalls : w'.calls = w.calls)
    (hwrote : ∀ j c, w.calls[j]? = some c → c.isLike b u = true → wrote w' j = wrote w j) :
    toggled w' b u = toggled w b u := by
  ext j
  rw [mem_toggled, mem_toggled, hcalls]
  refine and_congr_right fun ⟨c, hc, hlike⟩ => ?_
  rw [hwrote j c hc hlike]

/-! ### A call goes on -/

/-- A call goes on, and neither begins nor ends to be over. -/
theorem Balanced.put (h : Balanced likes₀ w) (hi : w.tasks i = some t) (hc : w.calls[i]? = some c)
    (hstands : Standing c w.tables w.store t') (hover : c.likes ≠ none → isOver t' = isOver t) :
    Balanced likes₀ (w.setTask i t') where
  onPost := h.onPost
  stands j v d hj hd := by
    rcases entry_of_update hj with ⟨rfl, rfl⟩ | ⟨-, hj⟩
    · obtain rfl := Option.some.inj (hc.symm.trans hd)
      exact hstands
    · exact h.stands j v d hj hd
  matching b row hrow hsettled := by
    refine h.matching b row hrow fun j v d u now hj hd hlikes => ?_
    by_cases hji : j = i
    · subst hji
      obtain rfl := Option.some.inj (hi.symm.trans hj)
      obtain rfl := Option.some.inj (hc.symm.trans hd)
      rw [← hover (by rw [hlikes]; nofun)]
      exact hsettled j t' c u now (Function.update_self ..) hd hlikes
    · exact hsettled j v d u now ((Function.update_of_ne hji ..).trans hj) hd hlikes
  parity b u := by
    have hsame : toggled (w.setTask i t') b u = toggled w b u := by
      refine toggled_congr rfl fun j d hd hlike => ?_
      unfold wrote
      by_cases hji : j = i
      · subst hji
        obtain rfl := Option.some.inj (hc.symm.trans hd)
        obtain ⟨now, hlikes⟩ := isLike_iff.mp hlike
        have htask : (w.setTask j t').tasks j = some t' := Function.update_self ..
        rw [htask, hi, Option.any_some, Option.any_some, hover (by rw [hlikes]; nofun)]
        rfl
      · have htask : (w.setTask i t').tasks j = w.tasks j := Function.update_of_ne hji ..
        rw [htask]
        rfl
    rw [hsame]
    exact h.parity b u

/-- A call has written to the sorted set of its post. -/
theorem Balanced.write (h : Balanced likes₀ w) (hexclusive : w.Exclusive) (hi : w.tasks i = some t)
    (hc : w.calls[i]? = some c) (hresult : w.results i = none) (hlikes : c.likes = some (b, u, now))
    {score : Option ℕ} (hover : isOver t = false) (hover' : isOver t' = true)
    (hheld : .blog b ∈ t.held) (hscore : score ≠ none ↔ w.store b u = none)
    (hphase : Phase b u now w.tables (setLike b u score w.store) t') :
    Balanced likes₀ { w.setTask i t' with store := setLike b u score w.store } where
  onPost := h.onPost
  stands j v d hj hd := by
    rcases entry_of_update hj with ⟨rfl, rfl⟩ | ⟨hji, hold⟩
    · obtain rfl := Option.some.inj (hc.symm.trans hd)
      exact (standing_of_likes hlikes).mpr hphase
    · refine (h.stands j v d hold hd).frame fun b' hb' => ⟨rfl, setLike_of_ne ?_ score⟩
      rintro rfl
      exact hji (hexclusive j i v t _ hold hi hb' hheld)
  matching b' row hrow hsettled := by
    have hne : b' ≠ b := by
      rintro rfl
      have hcontra := hsettled i t' c u now (Function.update_self ..) hc hlikes
      rw [hover'] at hcontra
      cases hcontra
    show Matches row (setLike b u score w.store b')
    rw [setLike_of_ne hne]
    refine h.matching b' row hrow fun j v d u' now' hj hd hlikes' => ?_
    by_cases hji : j = i
    · subst hji
      obtain rfl := Option.some.inj (hi.symm.trans hj)
      exact hover
    · exact hsettled j v d u' now' ((Function.update_of_ne hji ..).trans hj) hd hlikes'
  parity b' u' := by
    have hwrote : ∀ j, j ≠ i → wrote { w.setTask i t' with store := setLike b u score w.store } j =
        wrote w j := fun j hji => by
      unfold wrote
      have htask : (w.setTask i t').tasks j = w.tasks j := Function.update_of_ne hji ..
      show (succeeded w j || ((w.setTask i t').tasks j).any isOver) = _
      rw [htask]
    have hwrote' : wrote { w.setTask i t' with store := setLike b u score w.store } i = true := by
      unfold wrote
      have htask : (w.setTask i t').tasks i = some t' := Function.update_self ..
      show (succeeded w i || ((w.setTask i t').tasks i).any isOver) = true
      rw [htask, Option.any_some, hover', Bool.or_true]
    have hnot : wrote w i = false := by
      unfold wrote succeeded
      rw [hresult, hi, Option.any_some, hover]
      rfl
    by_cases heq : b' = b ∧ u' = u
    · obtain ⟨rfl, rfl⟩ := heq
      have hnew : toggled { w.setTask i t' with store := setLike b' u' score w.store } b' u' =
          insert i (toggled w b' u') := by
        ext j
        rw [Finset.mem_insert, mem_toggled, mem_toggled]
        by_cases hji : j = i
        · subst hji
          exact ⟨fun _ => .inl rfl, fun _ => ⟨⟨c, hc, isLike_iff.mpr ⟨now, hlikes⟩⟩, hwrote'⟩⟩
        · rw [hwrote j hji]
          exact ⟨.inr, fun h => h.resolve_left hji⟩
      have hfresh : i ∉ toggled w b' u' := fun hmem => by
        rw [mem_toggled, hnot] at hmem
        cases hmem.2
      rw [hnew, Finset.card_insert_of_notMem hfresh, Nat.odd_add_one]
      have hold := h.parity b' u'
      have hflip : setLike b' u' score w.store b' u' ≠ none ↔ w.store b' u' = none := by
        unfold setLike
        rw [if_pos ⟨rfl, rfl⟩]
        exact hscore
      refine hflip.trans ?_
      unfold Xor at hold ⊢
      tauto
    · have hsame : toggled { w.setTask i t' with store := setLike b u score w.store } b' u' =
          toggled w b' u' := by
        refine toggled_congr rfl fun j d hd hlike => hwrote j ?_
        rintro rfl
        obtain rfl := Option.some.inj (hc.symm.trans hd)
        obtain ⟨now', hlikes'⟩ := isLike_iff.mp hlike
        obtain ⟨rfl, htail⟩ := Prod.mk.inj (Option.some.inj (hlikes.symm.trans hlikes'))
        exact heq ⟨rfl, (Prod.mk.inj htail).1.symm⟩
      rw [hsame]
      have hstore : setLike b u score w.store b' u' = w.store b' u' := if_neg heq
      show setLike b u score w.store b' u' ≠ none ↔ _
      rw [hstore]
      exact h.parity b' u'

/-! ### A call ends -/

/-- A call that ends is counted as it was before. -/
theorem wrote_finish (hi : w.tasks i = some t) (hresult : w.results i = none)
    {r : Except Failure (Option BlogCommentItem)} (hp : t.program = .done r) (s : Tables) (j : ℕ) :
    wrote { w.finish i r with tables := s } j = wrote w j := by
  unfold wrote succeeded
  show ((match Function.update w.results i (some r) j with
    | some (.ok _) => true
    | _ => false) || (Function.update w.tasks i none j).any isOver) = _
  by_cases hji : j = i
  · subst hji
    rw [Function.update_self, Function.update_self, hresult, hi, Option.any_some, isOver, hp]
    cases r <;> rfl
  · rw [Function.update_of_ne hji, Function.update_of_ne hji]

/-- A call ends, and leaves the tables `s`. -/
theorem Balanced.finish (h : Balanced likes₀ w) (hi : w.tasks i = some t) (hresult : w.results i = none)
    {r : Except Failure (Option BlogCommentItem)} (hp : t.program = .done r) {s : Tables}
    (hkept : ∀ j v d, j ≠ i → w.tasks j = some v → w.calls[j]? = some d →
      ∀ b, .blog b ∈ v.held → s.blogs.lookup b = w.tables.blogs.lookup b)
    (hmatching : ∀ b row, s.blogs.lookup b = some row →
      Settled { w.finish i r with tables := s } b → Matches row (w.store b)) :
    Balanced likes₀ { w.finish i r with tables := s } where
  onPost := h.onPost
  stands j v d hj hd := by
    obtain ⟨hji, hold⟩ := entry_of_erase hj
    exact (h.stands j v d hold hd).frame fun b hb => ⟨hkept j v d hji hold hd b hb, rfl⟩
  matching := hmatching
  parity b u := by
    have hsame : toggled { w.finish i r with tables := s } b u = toggled w b u :=
      toggled_congr rfl fun j d _ _ => wrote_finish hi hresult hp s j
    rw [hsame]
    exact h.parity b u

/-- Who else has written is still there. -/
theorem settled_of_finish {r : Except Failure (Option BlogCommentItem)} {s : Tables}
    (hi : w.tasks i = some t) (hc : w.calls[i]? = some c)
    (hover : ∀ u now, c.likes = some (b, u, now) → isOver t = false)
    (h : Settled { w.finish i r with tables := s } b) : Settled w b := by
  intro j v d u now hj hd hlikes
  by_cases hji : j = i
  · subst hji
    obtain rfl := Option.some.inj (hi.symm.trans hj)
    obtain rfl := Option.some.inj (hc.symm.trans hd)
    exact hover u now hlikes
  · exact h j v d u now ((Function.update_of_ne hji ..).trans hj) hd hlikes

/-- A call ends with an error. -/
theorem Balanced.fail (h : Balanced likes₀ w) (hi : w.tasks i = some t) (hc : w.calls[i]? = some c)
    (hresult : w.results i = none) {e : Failure} (hp : t.program = .done (.error e)) :
    Balanced likes₀ (w.finish i (.error e)) :=
  h.finish hi hresult hp (fun _ _ _ _ _ _ _ _ => rfl) fun b row hrow hsettled =>
    h.matching b row hrow (settled_of_finish hi hc (fun _ _ _ => over_of_program hp rfl) hsettled)

/-- The posts that others hold are not those of a commit. -/
theorem blogs_of_commit (hsound : Sound contentSystem contentRegions Checked w) (h : Balanced likes₀ w)
    (hi : w.tasks i = some t) (hc : w.calls[i]? = some c) {a : Option BlogCommentItem}
    (hp : t.program = .done (.ok a)) (htracks : Tracks contentSystem contentRegions Checked c t w.tables)
    {j : ℕ} {v : ContentTask} {d : Call} (hji : j ≠ i) (hj : w.tasks j = some v)
    (hd : w.calls[j]? = some d) {b : ℕ} (hb : .blog b ∈ v.held) :
    (t.write w.tables).blogs.lookup b = w.tables.blogs.lookup b := by
  have hready : contentRegions.Ready d w.tables := by
    intro id hid
    have hkind := h.onPost d (List.mem_of_getElem? hd)
    cases d <;> first | exact hkind.elim | cases hid
  have hrely := hsound.rely_commit content_disciplined hi hc hp htracks hji hj hd hready
  exact Agree.blog (hrely.2.2 b hb)

/-- A call commits. -/
theorem Balanced.commit (hsound : Sound contentSystem contentRegions Checked w)
    (h : Balanced likes₀ w) (hi : w.tasks i = some t) (hc : w.calls[i]? = some c)
    (hresult : w.results i = none) {a : Option BlogCommentItem} (hp : t.program = .done (.ok a)) :
    Balanced likes₀ { w.finish i (.ok a) with tables := t.write w.tables } := by
  have htracks : Tracks contentSystem contentRegions Checked c t w.tables := by
    obtain ⟨d, hd, ⟨e, he⟩ | htracks⟩ := hsound.tasks i t hi
    · rw [hp] at he
      cases he
    · obtain rfl := Option.some.inj (hc.symm.trans hd)
      exact htracks
  refine h.finish hi hresult hp (fun j v d hji hj hd b hb =>
    blogs_of_commit hsound h hi hc hp htracks hji hj hd hb) fun b row hrow hsettled => ?_
  cases hlikes : c.likes with
  | none =>
    obtain ⟨old, hold, hliked⟩ := liked_of_alone (h.onPost c (List.mem_of_getElem? hc)) hlikes
      (htracks.commit hp) hrow
    have hsettled' := settled_of_finish hi hc (fun u now hsome => by
      rw [hlikes] at hsome
      cases hsome) hsettled
    obtain ⟨hfinite, hcount⟩ := h.matching b old hold hsettled'
    exact ⟨hfinite, hliked.trans hcount⟩
  | some l =>
    obtain ⟨b', u, now⟩ := l
    have hphase := (standing_of_likes hlikes).mp (h.stands i t c hi hc)
    obtain ⟨row', hwrite, -, hmatches⟩ := hphase.exists_of_ok hp
    rw [hwrite] at hrow
    have hinsert : (w.tables.blogs.insert b' row').lookup b = some row := hrow
    rw [lookup_insert_eq] at hinsert
    split at hinsert
    · rename_i hb
      obtain rfl := Option.some.inj hinsert
      rw [hb]
      exact hmatches
    · rename_i hb
      refine h.matching b row hinsert (settled_of_finish hi hc (fun u' now' hsome => ?_) hsettled)
      exact absurd (Prod.mk.inj (Option.some.inj (hsome.symm.trans hlikes))).1 hb

/-! ### Steps -/

/-- A call begins. -/
theorem Balanced.start (h : Balanced likes₀ w) (horderly : World.Orderly w) (hkind : c.OnPost)
    (f : ℕ → ℕ → Bool) : Balanced likes₀ { w with
      calls := w.calls ++ [c]
      tasks := Function.update w.tasks w.calls.length (some { program := c.program })
      earlier := f } where
  onPost d hd := by
    rcases List.mem_append.mp hd with hd | hd
    · exact h.onPost d hd
    · rw [List.mem_singleton.mp hd]
      exact hkind
  stands j v d hj hd := by
    rcases entry_of_update hj with ⟨rfl, rfl⟩ | ⟨-, hold⟩
    · have hlast : (w.calls ++ [c])[w.calls.length]? = some d := hd
      rw [List.getElem?_concat_length] at hlast
      obtain rfl := Option.some.inj hlast
      cases hlikes : c.likes with
      | none => exact (standing_of_none hlikes).mpr (silent_program hkind hlikes)
      | some l =>
        obtain ⟨b, u, now⟩ := l
        obtain ⟨id, rfl, hid⟩ := exists_of_likes hlikes
        exact (standing_of_likes hlikes).mpr (.waiting (likeBlog_eq hid) rfl rfl)
    · have hfirst : (w.calls ++ [c])[j]? = some d := hd
      rw [List.getElem?_append_left (horderly.lt_length hold)] at hfirst
      exact h.stands j v d hold hfirst
  matching b row hrow hsettled := by
    refine h.matching b row hrow fun j v d u now hj hd hlikes => ?_
    have hlt := horderly.lt_length hj
    refine hsettled j v d u now ((Function.update_of_ne (Nat.ne_of_lt hlt) ..).trans hj) ?_ hlikes
    exact (List.getElem?_append_left hlt).trans hd
  parity b u := by
    have hsame : toggled { w with
        calls := w.calls ++ [c]
        tasks := Function.update w.tasks w.calls.length (some { program := c.program })
        earlier := f } b u = toggled w b u := by
      ext j
      rw [mem_toggled, mem_toggled]
      by_cases hlt : j < w.calls.length
      · have htask : Function.update w.tasks w.calls.length (some { program := c.program }) j = w.tasks j :=
          Function.update_of_ne (Nat.ne_of_lt hlt) ..
        unfold wrote
        dsimp only
        rw [List.getElem?_append_left hlt, htask]
        rfl
      · refine ⟨fun hnew => ?_, fun ⟨⟨d, hd, _⟩, _⟩ => absurd (List.getElem?_eq_some_iff.mp hd).1 hlt⟩
        obtain ⟨⟨d, hd, hlike⟩, hwrote⟩ := hnew
        obtain ⟨rfl, rfl⟩ := (entry_of_concat hd).resolve_left fun hold =>
          hlt (List.getElem?_eq_some_iff.mp hold).1
        obtain ⟨now, hlikes⟩ := isLike_iff.mp hlike
        obtain ⟨id, rfl, hid⟩ := exists_of_likes hlikes
        have hover : isOver { program := likeBlog id (some u) now } = false :=
          over_of_program (t := { program := likeBlog id (some u) now }) (likeBlog_eq hid) rfl
        unfold wrote succeeded at hwrote
        dsimp only at hwrote
        rw [(horderly.begun _ (Nat.le_refl _)).2, Function.update_self, Option.any_some] at hwrote
        exact absurd (hover.symm.trans hwrote) nofun
    rw [hsame]
    exact h.parity b u

/-- While a call that has not written holds a post, nobody has. -/
theorem Balanced.settled_of_held (h : Balanced likes₀ w) (hexclusive : w.Exclusive)
    (hi : w.tasks i = some t) (hover : isOver t = false) (hheld : .blog b ∈ t.held) : Settled w b := by
  intro j v d u now hj hd hlikes
  by_cases hji : j = i
  · subst hji
    obtain rfl := Option.some.inj (hi.symm.trans hj)
    exact hover
  · unfold isOver
    split
    · rename_i a hp
      obtain ⟨-, -, hheld', -⟩ := ((standing_of_likes hlikes).mp (h.stands j v d hj hd)).exists_of_ok hp
      exact absurd (hexclusive j i v t _ hj hi hheld' hheld) hji
    · rfl

/-- **The next step of a call keeps counters and sorted sets together.** -/
theorem Balanced.run (hsound : Sound contentSystem contentRegions Checked w)
    (horderly : World.Orderly w) (h : Balanced likes₀ w) (hi : w.tasks i = some t) :
    Balanced likes₀ (w.runTask i t) := by
  obtain ⟨c, hc, -⟩ := hsound.tasks i t hi
  have hresult := horderly.running i t hi
  have hstands := h.stands i t c hi hc
  cases hlikes : c.likes with
  | none =>
    have hsilent := (standing_of_none hlikes).mp hstands
    have hnever : ∀ t', c.likes ≠ none → isOver t' = isOver t := fun _ hsome => absurd hlikes hsome
    unfold World.runTask
    cases hp : t.program with
    | done r =>
      cases r with
      | ok a => exact h.commit hsound hi hc hresult hp
      | error e => exact h.fail hi hc hresult hp
    | select query next =>
      rw [hp] at hsilent
      exact h.put hi hc ((standing_of_none hlikes).mpr (hsilent _)) (hnever _)
    | exec row statement next =>
      rw [hp] at hsilent
      dsimp only
      split
      · exact h
      · exact h.put hi hc ((standing_of_none hlikes).mpr (hsilent _)) (hnever _)
    | send command next =>
      rw [hp] at hsilent
      exact hsilent.elim
  | some l =>
    obtain ⟨b, u, now⟩ := l
    have hgoes := ((standing_of_likes hlikes).mp hstands).goes (i := i) fun hover hheld row hrow =>
      h.matching b row hrow (h.settled_of_held hsound.exclusive hi hover hheld)
    generalize w.runTask i t = w' at hgoes
    cases hgoes with
    | waits => exact h
    | moves hover hover' hphase =>
      exact h.put hi hc ((standing_of_likes hlikes).mpr hphase) fun _ => hover'.trans hover.symm
    | toggles hover hover' hheld hscore hphase =>
      exact h.write hsound.exclusive hi hc hresult hlikes hover hover' hheld hscore hphase
    | commits hp => exact h.commit hsound hi hc hresult hp
    | fails hp => exact h.fail hi hc hresult hp

end worlds

/-! ## Runs -/

/-- A like, an edit or a withdrawal begins, or a call takes its next step. -/
def Faultless : Act Call → Prop
  | .start c => c.OnPost
  | .run _ => True
  | _ => False

/-- No call of `likeBlog` is in progress on the post. -/
def Idle (w : ContentWorld) (b : ℕ) : Prop :=
  ∀ i id user now, w.calls[i]? = some (.likeBlog id user now) → positive id = some b → w.tasks i = none

section runs

variable {s : Tables} {likes : Likes} {as : List (Act Call)} {w : ContentWorld} {b : ℕ} {u : ℤ}

/-- The invariant holds after every run without a fault. -/
theorem balanced_run (hstart : ∀ b row, s.blogs.lookup b = some row → Matches row (likes b))
    (has : ∀ a ∈ as, Faultless a) : Balanced likes (contentRun s likes as) := by
  have hrun := @Runs.run_invariant_of_along _ _ (World.step contentSystem) (fun _ a => Faultless a)
    (fun w => Sound contentSystem contentRegions Checked w ∧ World.Orderly w ∧ Balanced likes w)
    (fun w a hw ha => ?_) as (World.initial s likes)
    ⟨sound_initial s likes, World.orderly_initial s likes, ?_⟩ (Runs.along_of_forall _ as _ has)
  · exact hrun.2.2
  · obtain ⟨hsound, horderly, hbalanced⟩ := hw
    refine ⟨hsound.step content_disciplined a, horderly.step a, ?_⟩
    cases a with
    | start c =>
      simp only [World.step]
      split
      · exact hbalanced.start horderly ha _
      · exact hbalanced
    | run i =>
      simp only [World.step]
      split
      · rename_i t hi
        exact hbalanced.run hsound horderly hi
      · exact hbalanced
    | fail i sent => exact ha.elim
    | crash i => exact ha.elim
  · refine ⟨fun c hc => ?_, fun i t c hi => ?_, fun b row hrow _ => hstart b row hrow, fun b u => ?_⟩
    · cases hc
    · cases hi
    show likes b u ≠ none ↔ _
    have hempty : toggled (World.initial s likes) b u = ∅ := rfl
    rw [hempty, Finset.card_empty]
    unfold Xor
    simp

/-- Where nobody likes the post, nobody has written without a commit. -/
theorem Idle.settled (h : Idle w b) : Settled w b := by
  intro i t c u now hi hc hlikes
  obtain ⟨id, rfl, hid⟩ := exists_of_likes hlikes
  rw [h i id (some u) now hc hid] at hi
  cases hi

/-- Where nobody likes the post, those who have written to its sorted set have succeeded. -/
theorem Idle.toggled (h : Idle w b) : toggled w b u = successes w b u := by
  refine Finset.filter_congr fun i _ => ?_
  rw [Bool.and_eq_true, Bool.and_eq_true, Option.any_eq_true]
  refine and_congr_right fun ⟨c, hc, hlike⟩ => ?_
  obtain ⟨now, hlikes⟩ := isLike_iff.mp hlike
  obtain ⟨id, rfl, hid⟩ := exists_of_likes hlikes
  unfold wrote
  rw [h i id (some u) now hc hid, Option.any_none, Bool.or_false]

/-- A call of `likeBlog` that is about to count does what the score of its user says, and a like that is
there can be taken back. -/
theorem Balanced.update (h : Balanced likes w) (hexclusive : w.Exclusive) {i : ℕ} {t : ContentTask}
    {c : Call} {now : ℕ} (hi : w.tasks i = some t) (hc : w.calls[i]? = some c)
    (hlikes : c.likes = some (b, u, now)) (hheld : .blog b ∈ t.held)
    (hrequests : t.program.requests = some (.blog b)) :
    t.program = toggle b u now (w.store b u) ∧
      (w.store b u ≠ none → ((t.write w.tables).decrementLiked b).value = 1) := by
  cases (standing_of_likes hlikes).mp (h.stands i t c hi hc) with
  | asked hp hwrite _ hrow hvisible =>
    refine ⟨hp, fun hmember => ?_⟩
    have hover : isOver t = false := over_of_program hp (isOver_toggle _)
    obtain ⟨n, hn, -⟩ :=
      (h.matching b _ hrow (h.settled_of_held hexclusive hi hover hheld)).unlike hmember
    rw [hwrite]
    exact congrArg Answer.value (decrementLiked_of hrow hvisible hn)
  | waiting _ _ hnone =>
    rw [hnone] at hheld
    cases hheld
  | refused hp =>
    rw [hp] at hrequests
    cases hrequests
  | locked hp =>
    rw [hp] at hrequests
    cases hrequests
  | counted hp =>
    rw [hp] at hrequests
    cases hrequests
  | written hp =>
    rw [hp] at hrequests
    cases hrequests

end runs

/-- **Counters and sorted sets move together.** In every run of likes, edits and withdrawals without a
fault, from posts that count their sorted sets: while nobody is liking a post, it counts its sorted set,
and a user who was not in it at the start is in it when the number of their successful calls is odd; and
a call that is about to take a like back finds a counter above 0. -/
theorem likes_move_together {s : Tables} {likes : Likes}
    (hstart : ∀ b row, s.blogs.lookup b = some row → Matches row (likes b)) {as : List (Act Call)}
    (has : ∀ a ∈ as, Faultless a) :
    (∀ b, Idle (contentRun s likes as) b →
      (∀ row, (contentRun s likes as).tables.blogs.lookup b = some row →
        Matches row ((contentRun s likes as).store b)) ∧
      ∀ u, likes b u = none →
        ((contentRun s likes as).store b u ≠ none ↔ Odd (successes (contentRun s likes as) b u).card)) ∧
    ∀ i t id u now b, (contentRun s likes as).tasks i = some t →
      (contentRun s likes as).calls[i]? = some (.likeBlog id (some u) now) → positive id = some b →
      .blog b ∈ t.held → t.program.requests = some (.blog b) →
      t.program = toggle b u now ((contentRun s likes as).store b u) ∧
      ((contentRun s likes as).store b u ≠ none →
        ((t.write (contentRun s likes as).tables).decrementLiked b).value = 1) := by
  have hbalanced := balanced_run hstart has
  refine ⟨fun b hidle => ⟨fun row hrow => hbalanced.matching b row hrow hidle.settled, fun u hu => ?_⟩,
    fun i t id u now b hi hc hid hheld hrequests => ?_⟩
  · rw [hbalanced.parity b u, hidle.toggled, hu]
    unfold Xor
    simp
  · have hlikes : (Call.likeBlog id (some u) now).likes = some (b, u, now) := by
      show (positive id).map _ = _
      rw [hid, Option.map_some]
    exact hbalanced.update (contentRun_sound s likes as).exclusive hi hc hlikes hheld hrequests

/-- A first like, from the start to the commit. -/
def firstLike : List (Act Call) :=
  [.start (.likeBlog (some 1) (some 9) 100), .run 0, .run 0, .run 0, .run 0, .run 0]

/-- After a first like its user has a score, and the post counts one. -/
theorem likes_move_together_firstLike :
    (contentRun (onePost 0 0) (fun _ _ => none) firstLike).store 1 9 = some 100 ∧
    ∀ row, (contentRun (onePost 0 0) (fun _ _ => none) firstLike).tables.blogs.lookup 1 = some row →
      Matches row ((contentRun (onePost 0 0) (fun _ _ => none) firstLike).store 1) := by
  refine ⟨rfl, ((@likes_move_together (onePost 0 0) (fun _ _ => none)
    (fun b row hrow => ?_) firstLike fun a ha => ?_).1 1 fun i id user now hc _ => ?_).1⟩
  · obtain ⟨rfl, rfl⟩ := eq_of_lookup_singleton hrow
    have hnobody : members (fun _ => none) = ∅ := Set.eq_empty_of_forall_notMem fun u hu => hu rfl
    exact ⟨hnobody ▸ Set.finite_empty, by rw [hnobody, Set.ncard_empty]⟩
  · simp only [firstLike, List.mem_cons, List.not_mem_nil, or_false] at ha
    rcases ha with rfl | rfl | rfl | rfl | rfl | rfl <;> trivial
  · cases i with
    | zero => rfl
    | succ n => cases hc

end CampusHub.Content
