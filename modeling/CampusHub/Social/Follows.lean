import Mathlib.Data.Finset.Prod
import CampusHub.Domain
import CampusHub.Foundations.Pools

/-!
# Following, in the table and in Redis

`tb_follow` has the truth, and the sorted set `follows:<user>` is a projection of it that is written after
the row. The two writes of a call are apart, and calls interleave between them.

* `FollowStore`, `FollowCall`, `follows` — the two stores, and a call between two of its store calls.
* `Agrees` — the row of a pair is there exactly when its member is.
* `Orderly` — the calls about a pair do not overlap, and their store calls are answered.
* `follows_agree` — then the pair agrees whenever nobody is about it, and each call has done what it was
  asked.
* `follow_repairs`, `unfollow_leaves_stale` — a follow mends a pair that does not agree; nothing else does.

**Proof route.** A call writes one pair, so everything is about one pair and the calls about it; the others
leave it `Same`. `Knows` says what a call about the pair knows between its two writes, and `PairSection`
that no two such calls are under way. Each move of an orderly call is checked against that (`knows_move`),
and both theorems on agreement are instances: with `Q` true for a pair that agreed before, and with `Q`
false for one that did not.

**Where it fails.** `unfollow_leaves_stale` is the code's own branch: a call that unfollows and deletes no
row does not touch Redis, so a member whose `ZREM` failed after its row was deleted stays until somebody
follows again.

**Left out.** The ids and the dates of the rows, which nothing compares.
-/

namespace CampusHub.Social

open CampusHub.Domain CampusHub.Foundations CampusHub.Foundations.Maps CampusHub.Foundations.Pools

/-! ## The model -/

/-- The rows of `tb_follow` by their unique key, the sorted sets by their keys, and the clock in
milliseconds. Source: `V001__add_business_unique_constraints.sql`, `RedisFollowProjectionWriter.java`. -/
structure FollowStore where
  rows : Finset (LongId × LongId)
  following : String → FiniteMap String ℕ
  now : ℕ

/-- `"follows:" + userId` -/
def followsKey (userId : LongId) : String := "follows:" ++ userId.text

/-- Source: `MyBatisFollowCommandRepository.java` 26–35. A row that is there is a duplicate key, which
counts as success. -/
def FollowStore.create (actorId targetId : LongId) (s : FollowStore) : FollowStore :=
  { s with rows := insert (actorId, targetId) s.rows }

/-- Source: `MyBatisFollowCommandRepository.java` 38–40. -/
def FollowStore.delete (actorId targetId : LongId) (s : FollowStore) : FollowStore :=
  { s with rows := s.rows.erase (actorId, targetId) }

/-- `ZADD`. Source: `RedisFollowProjectionWriter.java` 14–16. -/
def FollowStore.add (actorId targetId : LongId) (s : FollowStore) : FollowStore :=
  { s with
    following := Function.update s.following (followsKey actorId)
      ((s.following (followsKey actorId)).insert targetId.text s.now) }

/-- `ZREM`. Source: `RedisFollowProjectionWriter.java` 19–21. -/
def FollowStore.remove (actorId targetId : LongId) (s : FollowStore) : FollowStore :=
  { s with
    following := Function.update s.following (followsKey actorId)
      ((s.following (followsKey actorId)).erase targetId.text) }

/-- What a call ends with. -/
inductive FollowResult where
  | returned
  | refused (e : BusinessException)
  /-- A call of a store threw. -/
  | raised
  deriving DecidableEq

/-- Where a call stands: before `exists`, before `create`, before `add`, before `delete`, before
`remove`. Source: `FollowCommandService.java` 22–33. -/
inductive FollowStage where
  | asked | absent | linked | unfollowing | unlinked
  | done (r : FollowResult)
  deriving DecidableEq

/-- A call of `follow(actorId, targetId, isFollow)`. -/
structure FollowCall where
  actorId : LongId
  targetId : LongId
  isFollow : Bool
  stage : FollowStage
  deriving DecidableEq

def cannotFollowSelf : BusinessException := ⟨.conflict, "不能关注自己"⟩

/-- The request of a call. -/
structure FollowRequest where
  actorId : LongId
  targetId : LongId
  isFollow : Bool

/-- The start of a call. Source: `FollowCommandService.java` 18–22. -/
def FollowRequest.enter (r : FollowRequest) : FollowCall where
  actorId := r.actorId
  targetId := r.targetId
  isFollow := r.isFollow
  stage :=
    if r.actorId = r.targetId then .done (.refused cannotFollowSelf)
    else if r.isFollow then .asked else .unfollowing

namespace FollowCall

variable (c : FollowCall)

/-- The call at another place. -/
def reach (stage : FollowStage) : FollowCall := { c with stage := stage }

/-- The next place of the call, if its store call is answered. -/
def after (fate : Fate) (stage : FollowStage) : FollowCall :=
  c.reach (if fate = .answered then stage else .done .raised)

/-- The next store call. Source: `FollowCommandService.java` 22–33. -/
def move (fate : Fate) (s : FollowStore) : FollowStore × FollowCall :=
  match c.stage with
  | .asked => (s, c.after fate (if (c.actorId, c.targetId) ∈ s.rows then .linked else .absent))
  | .absent => (fate.perform (.create c.actorId c.targetId) s, c.after fate .linked)
  | .linked => (fate.perform (.add c.actorId c.targetId) s, c.after fate (.done .returned))
  | .unfollowing =>
    (fate.perform (.delete c.actorId c.targetId) s,
      c.after fate (if (c.actorId, c.targetId) ∈ s.rows then .unlinked else .done .returned))
  | .unlinked => (fate.perform (.remove c.actorId c.targetId) s, c.after fate (.done .returned))
  | .done _ => (s, c)

end FollowCall

/-- The calls over the two stores; the surroundings let time pass. -/
def follows : System FollowStore FollowRequest FollowCall Fate ℕ where
  enter _ r := r.enter
  move fate s c := c.move fate s
  drift d s := { s with now := s.now + d }

/-- The state of the calls and the stores. -/
abbrev FollowPool := Pool FollowStore FollowCall

/-- The steps. -/
abbrev FollowAct := PoolAct FollowRequest Fate ℕ

namespace FollowStore

variable (s : FollowStore) (a t : LongId)

/-- The target is a member of the sorted set of the actor. -/
def Projected : Prop := t.text ∈ s.following (followsKey a)

instance : Decidable (s.Projected a t) := inferInstanceAs (Decidable (t.text ∈ s.following (followsKey a)))

/-- The row is there exactly when the member is. -/
def Agrees : Prop := (a, t) ∈ s.rows ↔ s.Projected a t

end FollowStore

/-- The call is about the pair. -/
def FollowCall.About (c : FollowCall) (a t : LongId) : Prop := c.actorId = a ∧ c.targetId = t

/-- The call is about the pair and under way. -/
def FollowCall.Busy (c : FollowCall) (a t : LongId) : Prop := c.About a t ∧ ∀ r, c.stage ≠ .done r

/-- Nobody is about the pair. -/
def Quiet (a t : LongId) (p : FollowPool) : Prop := ∀ i c, p.calls i = some c → ¬ c.Busy a t

/-- A call about the pair starts when nobody else is about it, and its store calls are answered. -/
def Orderly (a t : LongId) (p : FollowPool) : FollowAct → Prop
  | .enter _ r => r.actorId = a → r.targetId = t → Quiet a t p
  | .move i fate => ∀ c, p.calls i = some c → c.Busy a t → fate = .answered
  | .drift _ => True

/-- A call about the pair that returns has done what it was asked, in both stores. -/
def Settles (a t : LongId) (p : FollowPool) : FollowAct → Prop
  | .move i fate => ∀ c, p.calls i = some c → c.Busy a t →
      (c.move fate p.store).2.stage = .done .returned →
      ((a, t) ∈ (c.move fate p.store).1.rows ↔ c.isFollow = true) ∧
        ((c.move fate p.store).1.Projected a t ↔ c.isFollow = true)
  | _ => True

/-! ## What a store call does to a pair -/

section pairs

variable {s : FollowStore} {a t b u : LongId}

/-- Every user has a key. -/
@[simp] theorem followsKey_inj : followsKey a = followsKey b ↔ a = b := by
  simp [followsKey]

/-- The rows after one was created. -/
@[simp] theorem rows_create : (b, u) ∈ (FollowStore.create a t s).rows ↔
    (b = a ∧ u = t) ∨ (b, u) ∈ s.rows := by
  simp [FollowStore.create]

/-- The rows after one was deleted. -/
@[simp] theorem rows_delete : (b, u) ∈ (FollowStore.delete a t s).rows ↔
    ¬ (b = a ∧ u = t) ∧ (b, u) ∈ s.rows := by
  simp [FollowStore.delete]

/-- A member that is added is no row. -/
@[simp] theorem rows_add : (FollowStore.add a t s).rows = s.rows := rfl

/-- A member that is removed was no row. -/
@[simp] theorem rows_remove : (FollowStore.remove a t s).rows = s.rows := rfl

/-- A row that is created is no member. -/
@[simp] theorem projected_create : (FollowStore.create a t s).Projected b u ↔ s.Projected b u := Iff.rfl

/-- A row that is deleted was no member. -/
@[simp] theorem projected_delete : (FollowStore.delete a t s).Projected b u ↔ s.Projected b u := Iff.rfl

/-- The members after one was added. -/
@[simp] theorem projected_add : (FollowStore.add a t s).Projected b u ↔
    (b = a ∧ u = t) ∨ s.Projected b u := by
  unfold FollowStore.Projected FollowStore.add
  by_cases hb : b = a
  · subst hb
    simp [Finmap.mem_insert]
  · simp [Function.update_of_ne, hb]

/-- The members after one was removed. -/
@[simp] theorem projected_remove : (FollowStore.remove a t s).Projected b u ↔
    ¬ (b = a ∧ u = t) ∧ s.Projected b u := by
  unfold FollowStore.Projected FollowStore.remove
  by_cases hb : b = a
  · subst hb
    simp [Finmap.mem_erase]
  · simp [Function.update_of_ne, hb]

/-- The pair is the same in two stores. -/
def Same (s s' : FollowStore) (a t : LongId) : Prop :=
  ((a, t) ∈ s'.rows ↔ (a, t) ∈ s.rows) ∧ (s'.Projected a t ↔ s.Projected a t)

/-- Where a pair is the same it agrees as before. -/
theorem Same.agrees {s' : FollowStore} (h : Same s s' a t) : s'.Agrees a t ↔ s.Agrees a t := by
  unfold FollowStore.Agrees
  rw [h.1, h.2]

/-- A store call that leaves a pair alone does so when it fails. -/
theorem Same.perform {fate : Fate} {f : FollowStore → FollowStore} (h : Same s (f s) a t) :
    Same s (fate.perform f s) a t := by
  rcases fate.perform_cases f s with heq | heq
  · rwa [heq]
  · rw [heq]
    exact ⟨Iff.rfl, Iff.rfl⟩

end pairs

/-! ## What a move does -/

section moves

variable {s : FollowStore} {a t : LongId} {c : FollowCall} {fate : Fate}

/-- A call keeps its pair. -/
@[simp] theorem about_move : (c.move fate s).2.About a t ↔ c.About a t := by
  unfold FollowCall.move
  split <;> rfl

/-- A call keeps what it was asked. -/
@[simp] theorem isFollow_move : (c.move fate s).2.isFollow = c.isFollow := by
  unfold FollowCall.move
  split <;> rfl

/-- A call changes nothing about other pairs. -/
theorem move_other (h : ¬ c.About a t) : Same s (c.move fate s).1 a t := by
  have hpair : ¬ (a = c.actorId ∧ t = c.targetId) := fun heq => h ⟨heq.1.symm, heq.2.symm⟩
  have hrefl : Same s s a t := ⟨Iff.rfl, Iff.rfl⟩
  unfold FollowCall.move
  split
  · exact hrefl
  · exact Same.perform ⟨by simp [hpair], projected_create⟩
  · exact Same.perform ⟨Iff.rfl, by simp [hpair]⟩
  · exact Same.perform ⟨by simp [hpair], projected_delete⟩
  · exact Same.perform ⟨Iff.rfl, by simp [hpair]⟩
  · exact hrefl

/-- A call that has ended does nothing. -/
theorem move_done {r : FollowResult} (h : c.stage = .done r) : c.move fate s = (s, c) := by
  unfold FollowCall.move
  rw [h]

/-- A call about the pair that is not under way has ended. -/
theorem exists_done (habout : c.About a t) (h : ¬ c.Busy a t) : ∃ r, c.stage = .done r := by
  by_contra hopen
  exact h ⟨habout, fun r hr => hopen ⟨r, hr⟩⟩

end moves

/-! ## What a call knows of its pair -/

/-- What a call about the pair knows, `Q` being that the pair agreed before. -/
def Knows (Q : Prop) (a t : LongId) (s : FollowStore) (c : FollowCall) : Prop :=
  c.About a t →
    match c.stage with
    | .asked | .absent => c.isFollow = true
    | .linked => c.isFollow = true ∧ (a, t) ∈ s.rows
    | .unfollowing => c.isFollow = false ∧ (Q → s.Agrees a t)
    | .unlinked => c.isFollow = false ∧ (a, t) ∉ s.rows
    | .done _ => True

section knows

variable {Q : Prop} {a t : LongId} {s s' : FollowStore} {c : FollowCall} {p : FollowPool} {fate : Fate}

/-- What a call knows depends on its pair. -/
theorem Knows.same (h : Knows Q a t s c) (hsame : Same s s' a t) : Knows Q a t s' c := by
  intro habout
  have hc := h habout
  cases hstage : c.stage with
  | asked => simpa only [hstage] using hc
  | absent => simpa only [hstage] using hc
  | linked => simpa only [hstage, hsame.1] using hc
  | unfollowing => simpa only [hstage, hsame.agrees] using hc
  | unlinked => simpa only [hstage, hsame.1] using hc
  | done r => trivial

/-- A call that is not under way knows nothing. -/
theorem knows_of_not_busy (h : ¬ c.Busy a t) : Knows Q a t s c := by
  intro habout
  cases hstage : c.stage with
  | done r => trivial
  | _ => exact absurd ⟨habout, fun r => by rw [hstage]; simp⟩ h

/-- The calls about the pair keep to themselves. -/
abbrev PairSection (Q : Prop) (a t : LongId) : FollowPool → Prop :=
  Section (fun c : FollowCall => c.Busy a t) (fun s => Q → s.Agrees a t) (Knows Q a t)

/-- A call about the pair starts. -/
theorem knows_enter {r : FollowRequest} (h : PairSection Q a t p)
    (hquiet : r.actorId = a → r.targetId = t → Quiet a t p) : Knows Q a t p.store r.enter := by
  intro habout
  have hrest : Q → p.store.Agrees a t := h.rest (hquiet habout.1 habout.2)
  unfold FollowRequest.enter
  by_cases hself : r.actorId = r.targetId
  · simp only [hself, if_true]
  · cases hfollow : r.isFollow with
    | true => simp [hself]
    | false => simpa [hself] using hrest

/-- **A move of a call about the pair**, whose store call is answered: the call knows what it has to, and
when it has returned, both stores have what it was asked for. -/
theorem knows_move (h : Knows Q a t s c) (hbusy : c.Busy a t) :
    Knows Q a t (c.move .answered s).1 (c.move .answered s).2 ∧
      (¬ (c.move .answered s).2.Busy a t →
        ((a, t) ∈ (c.move .answered s).1.rows ↔ c.isFollow = true) ∧
          (Q → ((c.move .answered s).1.Projected a t ↔ c.isFollow = true)) ∧
          (c.isFollow = true → (c.move .answered s).1.Projected a t)) := by
  obtain ⟨⟨rfl, rfl⟩, hopen⟩ := hbusy
  have hknows := h ⟨rfl, rfl⟩
  unfold Knows FollowCall.Busy FollowCall.About FollowCall.move FollowCall.after FollowCall.reach
  cases hstage : c.stage with
  | asked =>
    simp only [hstage] at hknows
    by_cases hrow : (c.actorId, c.targetId) ∈ s.rows
    · simp [hrow, hknows]
    · simp [hrow, hknows]
  | absent =>
    simp only [hstage] at hknows
    simp [hknows]
  | linked =>
    simp only [hstage] at hknows
    simp [hknows]
  | unfollowing =>
    simp only [hstage] at hknows
    by_cases hrow : (c.actorId, c.targetId) ∈ s.rows
    · simp [hrow, hknows.1]
    · have hagrees : Q → ¬ s.Projected c.actorId c.targetId := fun hQ hmem => hrow ((hknows.2 hQ).mpr hmem)
      simpa [hrow, hknows.1] using hagrees
  | unlinked =>
    simp only [hstage] at hknows
    simp [hknows]
  | done r => exact absurd hstage (hopen r)

/-- **Every orderly step keeps the calls about the pair to themselves.** -/
theorem pairSection_step (h : PairSection Q a t p) {act : FollowAct} (hact : Orderly a t p act) :
    PairSection Q a t (follows.step p act) := by
  refine h.step (fun i r hr => ?_) (fun i fate c hmove hc => ?_) fun d _ => ?_
  · subst hr
    refine ⟨fun hbusy j u _ hu => hact hbusy.1.1 hbusy.1.2 j u hu, ?_⟩
    exact knows_enter h hact
  · subst hmove
    have heq : follows.move fate p.store c = c.move fate p.store := rfl
    simp only [heq]
    by_cases habout : c.About a t
    · by_cases hbusy : c.Busy a t
      · obtain rfl : fate = .answered := hact c hc hbusy
        obtain ⟨hknows, hout⟩ := knows_move (h.calls i c hc) hbusy
        refine ⟨fun _ hnot => absurd hbusy hnot, hknows, fun j u hj hu => ?_, fun hnot _ _ hQ => ?_⟩
        · -- nobody else is about the pair
          exact knows_of_not_busy fun hother => hj (h.single j i u c hu hc hother hbusy)
        · obtain ⟨hrow, hprojected, -⟩ := hout hnot
          exact hrow.trans (hprojected hQ).symm
      · obtain ⟨r, hdone⟩ := exists_done habout hbusy
        rw [move_done hdone]
        exact ⟨fun hin hout => absurd hin hout, knows_of_not_busy hbusy, fun j u _ hu => h.calls j u hu,
          fun _ hcase _ => hcase.resolve_left hbusy⟩
    · have hsame : Same p.store (c.move fate p.store).1 a t := move_other habout
      have hout : ∀ {c' : FollowCall}, c' = (c.move fate p.store).2 → ¬ c'.Busy a t := by
        rintro _ rfl hin
        exact habout (about_move.mp hin.1)
      refine ⟨fun hin => absurd hin (hout rfl), knows_of_not_busy (hout rfl), fun j u _ hu =>
        (h.calls j u hu).same hsame, fun _ hcase _ hQ => hsame.agrees.mpr (hcase.elim ?_ fun hR => hR hQ)⟩
      exact fun hin => absurd hin.1 habout
  · exact ⟨id, fun i c hc => (h.calls i c hc).same ⟨Iff.rfl, Iff.rfl⟩⟩

end knows

/-! ## Orderly runs -/

section runs

variable {Q : Prop} {a t : LongId} {p : FollowPool}

/-- Nobody is about the pair, and it agrees if `Q`. -/
theorem pairSection_quiet (hquiet : Quiet a t p) (hagrees : Q → p.store.Agrees a t) :
    PairSection Q a t p :=
  ⟨fun i _ c _ hc _ hbusy => absurd hbusy (hquiet i c hc), fun i c hc => knows_of_not_busy (hquiet i c hc),
    fun _ => hagrees⟩

/-- Orderly runs keep it. -/
theorem pairSection_run (h : PairSection Q a t p) {as : List FollowAct}
    (horderly : Runs.Along (Orderly a t) follows.step p as) :
    PairSection Q a t (Runs.run follows.step p as) :=
  Runs.run_invariant_of_along (I := PairSection Q a t) _
    (fun _ _ hp hact => pairSection_step hp hact) as p h horderly

/-- A call that returns has done what it was asked. -/
theorem settles_of_section (h : PairSection True a t p) {act : FollowAct} (hact : Orderly a t p act) :
    Settles a t p act := by
  cases act with
  | move i fate =>
    intro c hc hbusy hreturned
    obtain rfl : fate = .answered := hact c hc hbusy
    have hend : ¬ (c.move .answered p.store).2.Busy a t := fun hin => hin.2 _ hreturned
    obtain ⟨hrow, hprojected, -⟩ := (knows_move (h.calls i c hc) hbusy).2 hend
    exact ⟨hrow, hprojected trivial⟩
  | _ => trivial

end runs

/-- **The table and the projection agree** about a pair whose calls do not overlap and whose store calls are
answered, whatever the calls about other pairs do: whenever nobody is about the pair, the row is there
exactly when the member is, and a call that returns has done what it was asked in both. -/
theorem follows_agree (a t : LongId) (p : FollowPool) (hquiet : Quiet a t p)
    (hagrees : p.store.Agrees a t) (as : List FollowAct)
    (horderly : Runs.Along (Orderly a t) follows.step p as) :
    (Quiet a t (Runs.run follows.step p as) → (Runs.run follows.step p as).store.Agrees a t) ∧
      Runs.Along (Settles a t) follows.step p as := by
  have hstart : PairSection True a t p := pairSection_quiet hquiet fun _ => hagrees
  refine ⟨fun hend => (pairSection_run hstart horderly).rest hend trivial, ?_⟩
  exact Runs.along_of_along _ (fun q act hq hact => ⟨pairSection_step hq hact, settles_of_section hq hact⟩)
    as p hstart horderly

/-- Two is an id. -/
theorem two_le_longMax : 2 ≤ longMax := by decide

/-- A user. -/
def userOne : LongId := ⟨1, Nat.one_pos, one_le_longMax⟩

/-- Another user. -/
def userTwo : LongId := ⟨2, Nat.two_pos, two_le_longMax⟩

/-- A call that follows, from its start to its end. -/
def followTwo : List FollowAct :=
  [.enter 0 ⟨userOne, userTwo, true⟩, .move 0 .answered, .move 0 .answered, .move 0 .answered]

/-- No rows and no members. -/
def nobodyFollows : FollowStore := ⟨∅, fun _ => ∅, 0⟩

/-- A pair agrees after a call that follows. -/
theorem followTwo_agrees :
    (Quiet userOne userTwo (Runs.run follows.step (Pool.idle nobodyFollows) followTwo) →
        (Runs.run follows.step (Pool.idle nobodyFollows) followTwo).store.Agrees userOne userTwo) ∧
      Runs.Along (Settles userOne userTwo) follows.step (Pool.idle nobodyFollows) followTwo :=
  follows_agree userOne userTwo (Pool.idle nobodyFollows) (fun _ _ hc => by cases hc)
    (by unfold FollowStore.Agrees; decide) followTwo
    ⟨fun _ _ _ _ hc => (by cases hc), fun _ _ _ => rfl, fun _ _ _ => rfl, fun _ _ _ => rfl, trivial⟩

/-- **A follow mends its pair**: whatever the table and the projection had become, after an orderly call
that follows has returned they agree whenever nobody is about the pair. -/
theorem follow_repairs (a t : LongId) (p : FollowPool) (hquiet : Quiet a t p) (as bs : List FollowAct)
    (i : ℕ) (c : FollowCall) (hc : (Runs.run follows.step p as).calls i = some c) (hbusy : c.Busy a t)
    (hlinked : c.stage = .linked)
    (horderly : Runs.Along (Orderly a t) follows.step p (as ++ .move i .answered :: bs)) :
    let q := Runs.run follows.step p (as ++ .move i .answered :: bs)
    Quiet a t q → q.store.Agrees a t := by
  intro q hend
  obtain ⟨hbefore, hmove, hafter⟩ := (Runs.along_append _ as _ p).mp horderly
  have hsection : PairSection False a t (Runs.run follows.step p as) :=
    pairSection_run (pairSection_quiet hquiet False.elim) hbefore
  -- the call leaves the pair in order, and nobody else is about it
  have hreturned := pairSection_step hsection hmove
  have hknows := hsection.calls i c hc
  have hcalls := knows_move hknows hbusy
  have hstep := follows.step_move (d := .answered) hc
  have hstage : ((c.move .answered (Runs.run follows.step p as).store).2).stage = .done .returned := by
    simp [FollowCall.move, FollowCall.after, FollowCall.reach, hlinked]
  have hquiet' : Quiet a t (follows.step (Runs.run follows.step p as) (.move i .answered)) := by
    intro j u hu hin
    rw [hstep] at hu
    rcases entry_of_update hu with ⟨rfl, rfl⟩ | ⟨hj, hold⟩
    · exact hin.2 _ hstage
    · exact hj (hsection.single j i u c hold hc hin hbusy)
  have hagrees : (follows.step (Runs.run follows.step p as) (.move i .answered)).store.Agrees a t := by
    obtain ⟨hrow, -, hprojected⟩ := hcalls.2 fun hin => hin.2 _ hstage
    have hfollow : c.isFollow = true := by
      have := hknows hbusy.1
      simp only [hlinked] at this
      exact this.1
    rw [hstep]
    exact iff_of_true (hrow.mpr hfollow) (hprojected hfollow)
  have hfinal : PairSection True a t q := by
    show PairSection True a t (Runs.run follows.step p (as ++ .move i .answered :: bs))
    rw [Runs.run_append, Runs.run_cons]
    exact pairSection_run (pairSection_quiet hquiet' fun _ => hagrees) hafter
  exact hfinal.rest hend trivial

/-- A member without its row. -/
def staleTwo : FollowStore :=
  ⟨∅, Function.update (fun _ => ∅) (followsKey userOne) (Finmap.singleton userTwo.text 0), 0⟩

/-- A call that follows mends a member without its row. -/
theorem followTwo_repairs :
    let q := Runs.run follows.step (Pool.idle staleTwo) followTwo
    Quiet userOne userTwo q → q.store.Agrees userOne userTwo :=
  follow_repairs userOne userTwo (Pool.idle staleTwo) (fun _ _ hc => by cases hc)
    [.enter 0 ⟨userOne, userTwo, true⟩, .move 0 .answered, .move 0 .answered] [] 0
    ⟨userOne, userTwo, true, .linked⟩ rfl ⟨⟨rfl, rfl⟩, fun _ h => by cases h⟩ rfl
    ⟨fun _ _ _ _ hc => (by cases hc), fun _ _ _ => rfl, fun _ _ _ => rfl, fun _ _ _ => rfl, trivial⟩

/-! ## Members without a row -/

/-- The member is there without its row. -/
def FollowStore.Stale (s : FollowStore) (a t : LongId) : Prop := (a, t) ∉ s.rows ∧ s.Projected a t

/-- No request to follow the pair. -/
def NoFollow (a t : LongId) : FollowAct → Prop
  | .enter _ r => r.actorId = a → r.targetId = t → r.isFollow = false
  | _ => True

section stale

variable {a t : LongId} {p : FollowPool}

/-- The member is stale, and whoever is about the pair is before its `delete`. -/
abbrev StaleCalls (a t : LongId) : FollowPool → Prop :=
  Asserts (fun s : FollowStore => s.Stale a t) fun _ c => c.Busy a t → c.stage = .unfollowing

/-- Every step leaves the member without its row. -/
theorem staleCalls_step (h : StaleCalls a t p) {act : FollowAct} (hact : NoFollow a t act) :
    StaleCalls a t (follows.step p act) := by
  refine h.step (fun i r hr hbusy => ?_) (fun i fate c hmove hc => ?_) fun d _ => ?_
  · subst hr
    have hunfollow : r.isFollow = false := hact hbusy.1.1 hbusy.1.2
    have hopen := hbusy.2
    revert hopen
    show (∀ x, r.enter.stage ≠ .done x) → r.enter.stage = .unfollowing
    unfold FollowRequest.enter
    by_cases hself : r.actorId = r.targetId
    · simp [hself]
    · simp [hself, hunfollow]
  · have heq : follows.move fate p.store c = c.move fate p.store := rfl
    simp only [heq]
    obtain ⟨hrow, hmember⟩ := h.store
    by_cases hbusy : c.Busy a t
    · have hstage := h.calls i c hc hbusy
      obtain ⟨⟨rfl, rfl⟩, -⟩ := hbusy
      -- there is no row to delete, so the member is not removed
      have hdelete : Same p.store (c.move fate p.store).1 c.actorId c.targetId := by
        unfold FollowCall.move
        rw [hstage]
        exact Same.perform ⟨by simp [hrow], projected_delete⟩
      refine ⟨⟨fun h => hrow (hdelete.1.mp h), hdelete.2.mpr hmember⟩, fun hin => ?_,
        fun j u _ hu => h.calls j u hu⟩
      refine absurd hin.2 ?_
      unfold FollowCall.move FollowCall.after FollowCall.reach
      simp only [hstage, hrow, if_false]
      split
      · simp
      · simp
    · have hsame : Same p.store (c.move fate p.store).1 a t ∧ ¬ (c.move fate p.store).2.Busy a t := by
        by_cases habout : c.About a t
        · obtain ⟨r, hdone⟩ := exists_done habout hbusy
          rw [move_done hdone]
          exact ⟨⟨Iff.rfl, Iff.rfl⟩, hbusy⟩
        · exact ⟨move_other habout, fun hin => habout (about_move.mp hin.1)⟩
      exact ⟨⟨fun h => hrow (hsame.1.1.mp h), hsame.1.2.mpr hmember⟩, fun hin => absurd hin hsame.2,
        fun j u _ hu => h.calls j u hu⟩
  · exact ⟨h.store, h.calls⟩

end stale

/-- **Nothing but a follow mends a stale member**: as long as nobody asks to follow the pair, the member
stays without its row, whatever the calls do and whichever of their store calls fail. -/
theorem unfollow_leaves_stale (a t : LongId) (p : FollowPool) (hstale : p.store.Stale a t)
    (hcalls : ∀ i c, p.calls i = some c → c.Busy a t → c.stage = .unfollowing) (as : List FollowAct)
    (hno : ∀ act ∈ as, NoFollow a t act) : (Runs.run follows.step p as).store.Stale a t :=
  (Runs.run_invariant_of_along (I := StaleCalls a t) follows.step
    (fun _ _ hp hact => staleCalls_step hp hact) as p ⟨hstale, hcalls⟩
    (Runs.along_of_forall follows.step as p hno)).store

/-- A call that unfollows, from its start to its end. -/
def unfollowTwo : List FollowAct := [.enter 0 ⟨userOne, userTwo, false⟩, .move 0 .answered]

/-- The member is there, and the row is not. -/
theorem staleTwo_stale : staleTwo.Stale userOne userTwo := by
  unfold FollowStore.Stale staleTwo FollowStore.Projected
  simp

/-- A call that unfollows leaves the member. -/
theorem unfollowTwo_stale :
    (Runs.run follows.step (Pool.idle staleTwo) unfollowTwo).store.Stale userOne userTwo :=
  unfollow_leaves_stale userOne userTwo (Pool.idle staleTwo) staleTwo_stale (fun _ _ hc => by cases hc)
    unfollowTwo (by
      intro act hact
      rcases List.mem_cons.mp hact with rfl | hact
      · exact fun _ _ => rfl
      · rw [List.mem_singleton.mp hact]
        trivial)

end CampusHub.Social
