import Mathlib.Data.String.Basic
import CampusHub.Content.Hot
import CampusHub.Foundations.Guards
import CampusHub.Foundations.Scrolls

/-!
# The feed of followed authors

* `Feed` — the sorted set of one user: ids of posts, each under the time of its publication.
* `queryBlogOfFollow` — two members of it from a cursor on, and the next cursor.
* `follow_feed` — a client that follows the cursor gets every member once, in order, as long as no more than
  `Integer.MAX_VALUE` members share one time.

**Theorem** (`follow_feed`). A client starts at `(max₀, 0)` and follows the cursor. Tables, likes and
authors may change at every call, and the feed may gain members above `max₀`. Then the calls come to an end:
the client has read every member up to `max₀` once and in order; or a call is refused, since more than
`Integer.MAX_VALUE` members share one score; or a call throws, since a post that it reads is visible while
its author has no row. `follow_feed_crowded` has a run of each of the last two kinds.

**Proof route.** A cursor is a score with the number of members of this score that were read. `Between` says
that the cursor stands between the members `A` that were read and the rest `C`, in the sense of
`Foundations.Scrolls`; `Between.step` is the step lemma, and `Between.ends` the induction on the rest.

**Scores.** Redis compares the bound as a double. A time that is in a feed is below 2^53, so that rounding
the bound does not change which members are found (`le_toDouble_iff`).

**Left out.** Members that are removed while the client reads: the source never removes one.
-/

namespace CampusHub.Content

open CampusHub.Domain CampusHub.Foundations.Decimal CampusHub.Foundations.Guards
open CampusHub.Foundations.Scrolls CampusHub.Foundations.Slices

/-! ## The model -/

/-- Source: `BlogFeedDeliveryService.java` 111. -/
def validScore (score : ℤ) : Bool := decide (score > 0 ∧ score ≤ 9007199254740991)

/-- A member of a feed. -/
structure FeedEntry where
  score : ℕ
  blogId : ℕ
  deriving DecidableEq

/-- In front of another in `ZREVRANGE`: by the score, then by the bytes of the member. -/
def FeedEntry.Before (a b : FeedEntry) : Prop :=
  b.score < a.score ∨ b.score = a.score ∧ decimal b.blogId < decimal a.blogId

/-- The sorted set of a user, from the highest score down. -/
structure Feed where
  members : List FeedEntry
  sorted : members.Pairwise FeedEntry.Before
  distinct : (members.map FeedEntry.blogId).Nodup
  /-- What `deliver` lets in. Source: `BlogFeedDeliveryService.java` 99–109. -/
  admitted : ∀ e ∈ members, 0 < e.blogId ∧ e.blogId ≤ longMax ∧ validScore e.score = true

/-- A `long` that is not negative, as a `double`: 53 bits, ties to even. -/
def toDouble (n : ℕ) : ℕ :=
  let ulp := 2 ^ (Nat.log2 n - 52)
  if 2 * (n % ulp) < ulp ∨ 2 * (n % ulp) = ulp ∧ n / ulp % 2 = 0 then n / ulp * ulp
  else (n / ulp + 1) * ulp

/-- `ZREVRANGEBYSCORE key max 0 WITHSCORES LIMIT offset count` -/
def reverseRangeByScoreWithScores (feed : Feed) (max offset count : ℕ) : List (String × ℕ) :=
  (slice (feed.members.filter fun e => decide (e.score ≤ toDouble max)) offset count).map fun e =>
    (decimal e.blogId, e.score)

/-- Source: `ScrollResult.java`. -/
structure ScrollResult where
  list : List ShownBlog
  minTime : ℕ
  offset : ℕ

/-- `Integer.MAX_VALUE` -/
def intMax : ℕ := 2147483647

def feedOutOfRange : BusinessException :=
  { errorCode := .operationFailed, message := "Feed分页偏移超出支持范围" }

section query

variable (t : Tables) (authors : ℕ → Option UserDTO) (likes : Likes) (viewer : Option ℤ)

/-- Nothing at the end of the feed. Source: `BlogServiceImpl.java` 222–269. -/
def queryBlogOfFollow (feed : Feed) (max offset : ℕ) : Except Thrown (Option ScrollResult) :=
  let typedTuples := reverseRangeByScoreWithScores feed max offset 2
  if typedTuples.isEmpty then pure none
  else do
    let ids ← getOr (typedTuples.mapM fun tuple => parseLong tuple.1) .numberFormat
    let (minTime, os) := typedTuples.foldl (tally Prod.snd) (0, 1)
    let os ← if minTime = max then
        if intMax - os < offset then throw (.refused feedOutOfRange) else pure (os + offset)
      else pure os
    let blogs := inField (fun id : ℕ => (id : ℤ)) (visibleIds t) ids
    -- a post whose author has no row throws, and the call with it
    let list ← shownAll t authors likes viewer blogs
    pure (some { list := list, minTime := minTime, offset := os })

end query

/-! ## Scores as doubles -/

/-- Below two to the 53 a number is a double. -/
theorem toDouble_of_lt {n : ℕ} (h : n < 9007199254740992) : toDouble n = n := by
  have hlog : Nat.log2 n - 52 = 0 := by
    rcases Nat.eq_zero_or_pos n with rfl | hpos
    · rfl
    · have hlt : Nat.log2 n < 53 := (Nat.log2_lt hpos.ne').mpr h
      omega
  unfold toDouble
  simp [hlog, Nat.mod_one]

/-- Rounding does not go below two to the 53. -/
theorem le_toDouble {n : ℕ} (h : 9007199254740992 ≤ n) : 9007199254740992 ≤ toDouble n := by
  have hne : n ≠ 0 := by omega
  have hlog : 53 ≤ Nat.log2 n := (Nat.le_log2 hne).mpr h
  have hulp : 2 ^ Nat.log2 n = 2 ^ 52 * 2 ^ (Nat.log2 n - 52) := by
    rw [← Nat.pow_add]
    congr 1
    omega
  have hdouble : 2 ≤ 2 ^ (Nat.log2 n - 52) := by
    calc 2 = 2 ^ 1 := rfl
      _ ≤ 2 ^ (Nat.log2 n - 52) := Nat.pow_le_pow_right (by decide) (by omega)
  have hquotient : 2 ^ 52 ≤ n / 2 ^ (Nat.log2 n - 52) := by
    rw [Nat.le_div_iff_mul_le (by positivity), ← hulp]
    exact Nat.log2_self_le hne
  have hfloor : 9007199254740992 ≤ n / 2 ^ (Nat.log2 n - 52) * 2 ^ (Nat.log2 n - 52) := by
    calc 9007199254740992 = 2 ^ 52 * 2 := by norm_num
      _ ≤ n / 2 ^ (Nat.log2 n - 52) * 2 ^ (Nat.log2 n - 52) := Nat.mul_le_mul hquotient hdouble
  unfold toDouble
  simp only
  split
  · exact hfloor
  · exact hfloor.trans (Nat.mul_le_mul_right _ (Nat.le_succ _))

/-- Rounding the bound does not change which scores are below it. -/
theorem le_toDouble_iff {score : ℕ} (h : validScore score = true) (max : ℕ) :
    score ≤ toDouble max ↔ score ≤ max := by
  have hscore := (of_decide_eq_true h).2
  by_cases hmax : max < 9007199254740992
  · rw [toDouble_of_lt hmax]
  · have hround := le_toDouble (not_lt.mp hmax)
    omega

/-! ## One call -/

/-- The member of an entry, with its score. -/
def FeedEntry.tuple (e : FeedEntry) : String × ℕ := (decimal e.blogId, e.score)

/-- The members up to a score, from the highest down. -/
def Feed.upTo (feed : Feed) (max : ℕ) : List FeedEntry :=
  feed.members.filter fun e => decide (e.score ≤ max)

/-- The members up to a score. -/
theorem Feed.mem_upTo {feed : Feed} {max : ℕ} {e : FeedEntry} :
    e ∈ feed.upTo max ↔ e ∈ feed.members ∧ e.score ≤ max := by
  unfold Feed.upTo
  rw [List.mem_filter, decide_eq_true_iff]

/-- The scores of the members up to a score fall. -/
theorem Feed.falling_upTo (feed : Feed) (max : ℕ) :
    (feed.upTo max).Pairwise fun a b => b.score ≤ a.score := by
  refine (feed.sorted.filter _).imp fun hbefore => ?_
  rcases hbefore with hlt | ⟨heq, -⟩
  · exact hlt.le
  · exact heq.le

section call

variable {t : Tables} {authors : ℕ → Option UserDTO} {likes : Likes} {viewer : Option ℤ} {feed : Feed}
  {max₀ max offset : ℕ} {A C : List FeedEntry}

/-- A call reads the next two members behind its cursor. -/
theorem range_eq (hsplit : feed.upTo max₀ = A ++ C) (hmax : max ≤ max₀)
    (hmarks : Marks FeedEntry.score A C max offset) :
    reverseRangeByScoreWithScores feed max offset 2 = (C.take 2).map FeedEntry.tuple := by
  have hbound : (feed.members.filter fun e => decide (e.score ≤ toDouble max)) =
      (feed.upTo max₀).filter fun e => decide (e.score ≤ max) := by
    unfold Feed.upTo
    rw [List.filter_filter]
    refine List.filter_congr fun e he => ?_
    rw [← Bool.decide_and, decide_eq_decide, le_toDouble_iff (feed.admitted e he).2.2]
    exact ⟨fun h => ⟨h, h.trans hmax⟩, And.left⟩
  unfold reverseRangeByScoreWithScores slice
  rw [hbound, hsplit, hmarks.drop_filter]
  rfl

/-- Behind the last member there is no answer. -/
theorem query_end (hsplit : feed.upTo max₀ = A) (hmax : max ≤ max₀)
    (hmarks : Marks FeedEntry.score A [] max offset) :
    queryBlogOfFollow t authors likes viewer feed max offset = .ok none := by
  unfold queryBlogOfFollow
  rw [range_eq (hsplit.trans (List.append_nil A).symm) hmax hmarks]
  rfl

/-- The members of a feed are numbers of posts. -/
theorem mapM_member {part : List FeedEntry} (h : ∀ e ∈ part, e.blogId ≤ longMax) :
    ((part.map FeedEntry.tuple).mapM fun tuple => parseLong tuple.1) =
      some (part.map fun e => (e.blogId : ℤ)) := by
  induction part with
  | nil => rfl
  | cons e part ih =>
    have hmax : e.blogId ≤ 9223372036854775807 := h e List.mem_cons_self
    have hlong : (e.blogId : ℤ) ≤ llongMax := by
      have hvalue : llongMax = 9223372036854775807 := rfl
      omega
    have hid : parseLong e.tuple.1 = some (e.blogId : ℤ) := parseLong_decimal hlong
    rw [List.map_cons, List.mapM_cons, hid, ih fun e' he' => h e' (List.mem_cons_of_mem e he')]
    rfl

/-- The shown posts of a part. -/
def shownOf (t : Tables) (authors : ℕ → Option UserDTO) (likes : Likes) (viewer : Option ℤ)
    (part : List FeedEntry) : Except Thrown (List ShownBlog) :=
  shownAll t authors likes viewer
    (inField (fun id : ℕ => (id : ℤ)) (visibleIds t) (part.map fun e => (e.blogId : ℤ)))

/-- A member of a part has a post that is visible and whose author has no row. -/
def Orphaned (t : Tables) (authors : ℕ → Option UserDTO) (part : List FeedEntry) : Prop :=
  ∃ e ∈ part, ∃ blog, t.blogs.lookup e.blogId = some blog ∧ blog.withdrawn = 0 ∧ authors blog.userId = none

/-- The posts that the statement finds are the visible ones of the part. -/
theorem mem_found {part : List FeedEntry} {id : ℕ} :
    id ∈ inField (fun id : ℕ => (id : ℤ)) (visibleIds t) (part.map fun e => (e.blogId : ℤ)) ↔
      ∃ e ∈ part, e.blogId = id ∧ ∃ blog, t.blogs.lookup id = some blog ∧ blog.withdrawn = 0 := by
  rw [mem_inField, mem_visibleIds, List.mem_map]
  constructor
  · rintro ⟨hvisible, e, he, heq⟩
    exact ⟨e, he, by exact_mod_cast heq, hvisible⟩
  · rintro ⟨e, he, rfl, hvisible⟩
    exact ⟨hvisible, e, he, rfl⟩

/-- The posts of a part are shown; or one of them has an author without a row, and then the call throws. -/
theorem shownOf_cases (t : Tables) (authors : ℕ → Option UserDTO) (likes : Likes) (viewer : Option ℤ)
    (part : List FeedEntry) :
    (¬ Orphaned t authors part ∧ ∃ list, shownOf t authors likes viewer part = .ok list) ∨
      Orphaned t authors part ∧ shownOf t authors likes viewer part = .error .nullPointer := by
  rcases shownAll_cases authors likes viewer
    (fun id hid => (mem_found.mp hid).elim fun _ h => h.2.2.imp fun _ hblog => hblog.1) with
    ⟨hauthored, list, hlist, -⟩ | ⟨⟨id, hid, blog, hblog, hnone⟩, hthrown⟩
  · refine .inl ⟨?_, list, hlist⟩
    rintro ⟨e, he, blog, hblog, hvisible, hnone⟩
    exact hauthored e.blogId (mem_found.mpr ⟨e, he, rfl, blog, hblog, hvisible⟩) blog hblog hnone
  · obtain ⟨e, he, rfl, blog', hblog', hvisible⟩ := mem_found.mp hid
    obtain rfl := Option.some.inj (hblog.symm.trans hblog')
    exact .inr ⟨⟨e, he, blog, hblog, hvisible, hnone⟩, hthrown⟩

/-- The last step of a call: the answer for the posts that are shown. -/
theorem bind_pure_eq_map {ε α β : Type} (x : Except ε α) (f : α → β) : (x >>= fun a => pure (f a)) = x.map f := by
  cases x with
  | error e => rfl
  | ok a => rfl

/-- A call with members: the next cursor with the posts, or the refusal when it would count too many. -/
theorem query_part {last : FeedEntry} (hsplit : feed.upTo max₀ = A ++ C) (hmax : max ≤ max₀)
    (hmarks : Marks FeedEntry.score A C max offset) (hlast : (C.take 2).getLast? = some last) :
    queryBlogOfFollow t authors likes viewer feed max offset =
      if last.score = max ∧
          intMax < offset + (C.take 2).countP (fun e => decide (e.score = last.score)) then
        .error (.refused feedOutOfRange)
      else (shownOf t authors likes viewer (C.take 2)).map fun list => some
        { list := list, minTime := last.score
          offset := (if last.score = max then offset else 0) +
            (C.take 2).countP fun e => decide (e.score = last.score) } := by
  have hmem : ∀ e ∈ C.take 2, e ∈ feed.members := by
    intro e he
    have hup : e ∈ feed.upTo max₀ := by
      rw [hsplit]
      exact List.mem_append_right A (List.mem_of_mem_take he)
    exact (Feed.mem_upTo.mp hup).1
  have hids := mapM_member fun e he => (feed.admitted e (hmem e he)).2.1
  have hfalling : (C.take 2).Pairwise fun a b => b.score ≤ a.score := by
    have h := feed.falling_upTo max₀
    rw [hsplit] at h
    exact (List.pairwise_append.mp h).2.1.sublist (List.take_sublist 2 C)
  have hfold : ((C.take 2).map FeedEntry.tuple).foldl (tally Prod.snd) (0, 1) =
      (last.score, (C.take 2).countP fun e => decide (e.score = last.score)) := by
    rw [List.foldl_map]
    refine foldl_tally hfalling (fun e he => ?_) hlast
    have hscore := (of_decide_eq_true (feed.admitted e (hmem e he)).2.2).1
    omega
  have hsome : ((C.take 2).map FeedEntry.tuple).isEmpty = false := by
    rw [List.isEmpty_eq_false_iff, Ne, List.map_eq_nil_iff]
    intro hnil
    rw [hnil] at hlast
    cases hlast
  have hcount : ((C.take 2).countP fun e => decide (e.score = last.score)) ≤ 2 :=
    List.countP_le_length.trans (List.length_take_le 2 C)
  have hint : intMax = 2147483647 := rfl
  unfold queryBlogOfFollow
  rw [range_eq hsplit hmax hmarks]
  simp only [hsome, Bool.false_eq_true, if_false, hids, getOr_some_bind, hfold]
  by_cases hsame : last.score = max
  · rw [if_pos hsame, if_pos hsame]
    by_cases hfar : intMax < offset + (C.take 2).countP fun e => decide (e.score = last.score)
    · have hguard : intMax - ((C.take 2).countP fun e => decide (e.score = last.score)) < offset := by
        omega
      rw [if_pos hguard, if_pos ⟨hsame, hfar⟩]
      rfl
    · have hguard : ¬ intMax - ((C.take 2).countP fun e => decide (e.score = last.score)) < offset := by
        omega
      rw [if_neg hguard, if_neg fun h => hfar h.2, Nat.add_comm offset]
      exact bind_pure_eq_map ..
  · rw [if_neg hsame, if_neg hsame, if_neg fun h => hsame h.1, Nat.zero_add]
    exact bind_pure_eq_map ..

end call

/-! ## A client that follows the cursor -/

/-- No entry is in front of one that is in front of it. -/
theorem FeedEntry.Before.asymm {a b : FeedEntry} (h : a.Before b) : ¬ b.Before a := by
  rintro (hlt | ⟨heq, hlt⟩)
  · rcases h with hlt' | ⟨heq', -⟩
    · exact absurd hlt hlt'.asymm
    · exact absurd hlt heq'.symm.not_lt
  · rcases h with hlt' | ⟨-, hlt'⟩
    · exact absurd heq hlt'.ne'
    · exact absurd hlt (lt_asymm hlt')

/-- Feeds with the same members up to a score list them in the same order. -/
theorem upTo_congr {f g : Feed} {max : ℕ}
    (h : ∀ e : FeedEntry, e.score ≤ max → (e ∈ f.members ↔ e ∈ g.members)) : f.upTo max = g.upTo max := by
  have hmem : ∀ e, e ∈ f.upTo max ↔ e ∈ g.upTo max := by
    intro e
    rw [Feed.mem_upTo, Feed.mem_upTo]
    constructor
    · rintro ⟨he, hle⟩
      exact ⟨(h e hle).mp he, hle⟩
    · rintro ⟨he, hle⟩
      exact ⟨(h e hle).mpr he, hle⟩
  have hf := (List.Nodup.of_map _ f.distinct).filter fun e => decide (e.score ≤ max)
  have hg := (List.Nodup.of_map _ g.distinct).filter fun e => decide (e.score ≤ max)
  refine List.Perm.eq_of_pairwise (fun a b _ _ hab hba => absurd hba hab.asymm) (f.sorted.filter _)
    (g.sorted.filter _) ?_
  exact (List.perm_ext_iff_of_nodup hf hg).mpr hmem

section client

variable (t : ℕ → Tables) (authors : ℕ → ℕ → Option UserDTO) (likes : ℕ → Likes) (viewer : Option ℤ)
  (feed : ℕ → Feed) (max₀ : ℕ)

/-- The answer to call `k`. -/
def answer (k : ℕ) (cursor : ℕ × ℕ) : Except Thrown (Option ScrollResult) :=
  queryBlogOfFollow (t k) (authors k) (likes k) viewer (feed k) cursor.1 cursor.2

/-- The cursor of call `k`; none when the calls before it have come to an end. -/
def cursorAt : ℕ → Option (ℕ × ℕ)
  | 0 => some (max₀, 0)
  | k + 1 => (cursorAt k).bind fun cursor =>
    match answer t authors likes viewer feed k cursor with
    | .ok (some result) => some (result.minTime, result.offset)
    | _ => none

/-- The members that call `k` reads. -/
def batchAt (k : ℕ) : List String :=
  match cursorAt t authors likes viewer feed max₀ k with
  | some cursor => (reverseRangeByScoreWithScores (feed k) cursor.1 cursor.2 2).map Prod.fst
  | none => []

/-- The members of the calls before call `n`. -/
def batches (n : ℕ) : List String := (List.range n).flatMap (batchAt t authors likes viewer feed max₀)

/-- The members of the feed up to the start, as they were then, in its order. -/
def expected : List String := ((feed 0).upTo max₀).map fun e => decimal e.blogId

/-- Call `n` finds the end, and the calls before it have read every member once, in order. -/
def Completes (n : ℕ) : Prop :=
  ∃ cursor, cursorAt t authors likes viewer feed max₀ n = some cursor ∧
    answer t authors likes viewer feed n cursor = .ok none ∧
    batches t authors likes viewer feed max₀ n = expected feed max₀

/-- Call `n` is refused, and the calls before it have read the first members, in order. -/
def IsRefused (n : ℕ) : Prop :=
  ∃ cursor, cursorAt t authors likes viewer feed max₀ n = some cursor ∧
    answer t authors likes viewer feed n cursor = .error (.refused feedOutOfRange) ∧
    batches t authors likes viewer feed max₀ n <+: expected feed max₀

/-- Call `n` throws, since a post that it reads is visible and its author has no row; the calls before it have read
the first members, in order. -/
def IsThrown (n : ℕ) : Prop :=
  ∃ cursor, cursorAt t authors likes viewer feed max₀ n = some cursor ∧
    answer t authors likes viewer feed n cursor = .error .nullPointer ∧
    batches t authors likes viewer feed max₀ n <+: expected feed max₀ ∧
    ∃ id blog, decimal id ∈ batchAt t authors likes viewer feed max₀ n ∧ (t n).blogs.lookup id = some blog ∧
      blog.withdrawn = 0 ∧ authors n blog.userId = none

/-- Call `k` stands between the members `A` that are read and the rest `C`. -/
def Between (k : ℕ) (A C : List FeedEntry) : Prop :=
  ∃ max offset, cursorAt t authors likes viewer feed max₀ k = some (max, offset) ∧ max ≤ max₀ ∧
    Marks FeedEntry.score A C max offset ∧ (feed 0).upTo max₀ = A ++ C ∧
    batches t authors likes viewer feed max₀ k = A.map fun e => decimal e.blogId

variable {t authors likes viewer feed max₀} {k : ℕ} {A C : List FeedEntry}

/-- At the start nothing is read. -/
theorem between_start : Between t authors likes viewer feed max₀ 0 [] ((feed 0).upTo max₀) :=
  ⟨max₀, 0, rfl, le_rfl, marks_nil fun _ he => (Feed.mem_upTo.mp he).2, rfl, rfl⟩

/-- The next cursor is the one that the answer names. -/
theorem cursorAt_succ {cursor : ℕ × ℕ} {result : ScrollResult}
    (hcursor : cursorAt t authors likes viewer feed max₀ k = some cursor)
    (hanswer : answer t authors likes viewer feed k cursor = .ok (some result)) :
    cursorAt t authors likes viewer feed max₀ (k + 1) = some (result.minTime, result.offset) := by
  rw [cursorAt, hcursor, Option.bind_some, hanswer]

/-- Behind a call that throws there are no calls. -/
theorem cursorAt_thrown {cursor : ℕ × ℕ} {e : Thrown}
    (hcursor : cursorAt t authors likes viewer feed max₀ k = some cursor)
    (hanswer : answer t authors likes viewer feed k cursor = .error e) (m : ℕ) :
    cursorAt t authors likes viewer feed max₀ (k + 1 + m) = none := by
  induction m with
  | zero => rw [Nat.add_zero, cursorAt, hcursor, Option.bind_some, hanswer]
  | succ m ih =>
    rw [← Nat.add_assoc, cursorAt, ih]
    rfl

/-- The members of one call more come at the end. -/
theorem batches_succ (k : ℕ) : batches t authors likes viewer feed max₀ (k + 1) =
    batches t authors likes viewer feed max₀ k ++ batchAt t authors likes viewer feed max₀ k := by
  unfold batches
  rw [List.range_succ, List.flatMap_append, List.flatMap_singleton]

/-- At the end of the feed the client is done. -/
theorem Between.completes (h : Between t authors likes viewer feed max₀ k A [])
    (hfeed : ∀ k, (feed k).upTo max₀ = (feed 0).upTo max₀) :
    Completes t authors likes viewer feed max₀ k := by
  obtain ⟨max, offset, hcursor, hmax, hmarks, hsplit, hbatches⟩ := h
  rw [List.append_nil] at hsplit
  refine ⟨(max, offset), hcursor, query_end ((hfeed k).trans hsplit) hmax hmarks, ?_⟩
  rw [hbatches, expected, hsplit]

/-- The members that a call between `A` and `C` reads. -/
theorem batchAt_between {max offset : ℕ} (hcursor : cursorAt t authors likes viewer feed max₀ k = some (max, offset))
    (hsplit : (feed k).upTo max₀ = A ++ C) (hmax : max ≤ max₀) (hmarks : Marks FeedEntry.score A C max offset) :
    batchAt t authors likes viewer feed max₀ k = (C.take 2).map fun e => decimal e.blogId := by
  unfold batchAt
  simp only [hcursor, range_eq hsplit hmax hmarks, List.map_map]
  rfl

/-- **Step lemma**: a call before the end moves on by the members that it reads; or it is refused, and then more
than `Integer.MAX_VALUE` members share one score; or it throws at an author without a row. -/
theorem Between.step (h : Between t authors likes viewer feed max₀ k A C)
    (hfeed : ∀ k, (feed k).upTo max₀ = (feed 0).upTo max₀) (hC : C ≠ []) :
    Between t authors likes viewer feed max₀ (k + 1) (A ++ C.take 2) (C.drop 2) ∨
      (IsRefused t authors likes viewer feed max₀ k ∧
        ∃ score ≤ max₀, intMax < ((feed 0).upTo max₀).countP fun e => decide (e.score = score)) ∨
      IsThrown t authors likes viewer feed max₀ k := by
  obtain ⟨max, offset, hcursor, hmax, hmarks, hsplit, hbatches⟩ := h
  have hk : (feed k).upTo max₀ = A ++ C := (hfeed k).trans hsplit
  have hbatch := batchAt_between hcursor hk hmax hmarks
  have hread : batches t authors likes viewer feed max₀ k <+: expected feed max₀ := by
    rw [hbatches, expected, hsplit, List.map_append]
    exact List.prefix_append _ _
  obtain ⟨last, hlast⟩ : ∃ last, (C.take 2).getLast? = some last := by
    refine ⟨_, List.getLast?_eq_getLast_of_ne_nil fun hnil => ?_⟩
    rcases List.take_eq_nil_iff.mp hnil with htwo | hnil
    · cases htwo
    · exact hC hnil
  have hanswer : queryBlogOfFollow (t k) (authors k) (likes k) viewer (feed k) max offset = _ :=
    query_part hk hmax hmarks hlast
  have hfalling : (C.take 2 ++ C.drop 2).Pairwise fun a b => b.score ≤ a.score := by
    have hall := (feed k).falling_upTo max₀
    rw [hk] at hall
    rw [List.take_append_drop]
    exact (List.pairwise_append.mp hall).2.1
  have hnext : Marks FeedEntry.score (A ++ C.take 2) (C.drop 2) last.score
      ((if last.score = max then offset else 0) +
        (C.take 2).countP fun e => decide (e.score = last.score)) := by
    refine Marks.next ?_ hfalling hlast
    rwa [List.take_append_drop]
  have hle : last.score ≤ max := hmarks.below last (List.mem_of_mem_take (List.mem_of_getLast? hlast))
  by_cases hfar : last.score = max ∧
      intMax < offset + (C.take 2).countP fun e => decide (e.score = last.score)
  · right
    left
    rw [if_pos hfar] at hanswer
    refine ⟨⟨(max, offset), hcursor, hanswer, hread⟩, max, hmax, ?_⟩
    have hcount := hnext.count
    rw [if_pos hfar.1, hfar.1] at hcount
    have hpart : (A ++ C.take 2).countP (fun e => decide (e.score = max)) ≤
        ((feed 0).upTo max₀).countP fun e => decide (e.score = max) := by
      rw [hsplit]
      exact ((List.take_sublist 2 C).append_left A).countP_le
    rw [hfar.1] at hfar
    omega
  · rw [if_neg hfar] at hanswer
    rcases shownOf_cases (t k) (authors k) (likes k) viewer (C.take 2) with
      ⟨-, list, hlist⟩ | ⟨⟨e, he, blog, hblog, hvisible, hnone⟩, hthrown⟩
    · left
      rw [hlist] at hanswer
      refine ⟨last.score, _, cursorAt_succ hcursor hanswer, hle.trans hmax, hnext, ?_, ?_⟩
      · rw [hsplit, List.append_assoc, List.take_append_drop]
      · rw [batches_succ, hbatches, hbatch, List.map_append]
    · right
      right
      rw [hthrown] at hanswer
      refine ⟨(max, offset), hcursor, hanswer, hread, e.blogId, blog, ?_, hblog, hvisible, hnone⟩
      rw [hbatch]
      exact List.mem_map_of_mem he

/-- **Run lemma**: from every place on, the calls come to an end. -/
theorem Between.ends (hfeed : ∀ k, (feed k).upTo max₀ = (feed 0).upTo max₀) :
    ∀ m k A C, C.length ≤ m → Between t authors likes viewer feed max₀ k A C →
      ∃ n, Completes t authors likes viewer feed max₀ n ∨
        (IsRefused t authors likes viewer feed max₀ n ∧
          ∃ score ≤ max₀, intMax < ((feed 0).upTo max₀).countP fun e => decide (e.score = score)) ∨
        IsThrown t authors likes viewer feed max₀ n := by
  intro m
  induction m with
  | zero =>
    intro k A C hlength h
    obtain rfl := List.eq_nil_of_length_eq_zero (Nat.le_zero.mp hlength)
    exact ⟨k, .inl (h.completes hfeed)⟩
  | succ m ih =>
    intro k A C hlength h
    by_cases hC : C = []
    · subst hC
      exact ⟨k, .inl (h.completes hfeed)⟩
    · rcases h.step hfeed hC with hnext | hends
      · refine ih (k + 1) _ _ ?_ hnext
        have hpos := List.length_pos_iff.mpr hC
        rw [List.length_drop]
        omega
      · exact ⟨k, .inr hends⟩

end client

/-- **The feed is read once, in order**, by a client that follows the cursor from `(max₀, 0)`, whatever posts
and authors the tables hold at each call, as long as the members up to `max₀` stay: after finitely many calls it
has every member; or it is refused, which takes more than `Integer.MAX_VALUE` members under one score; or a call
throws, which takes a visible post whose author has no row. -/
theorem follow_feed (t : ℕ → Tables) (authors : ℕ → ℕ → Option UserDTO) (likes : ℕ → Likes) (viewer : Option ℤ)
    {feed : ℕ → Feed} {max₀ : ℕ}
    (hfeed : ∀ k (e : FeedEntry), e.score ≤ max₀ → (e ∈ (feed k).members ↔ e ∈ (feed 0).members)) :
    (expected feed max₀).Nodup ∧
      ∃ n, Completes t authors likes viewer feed max₀ n ∨
        (IsRefused t authors likes viewer feed max₀ n ∧
          ∃ score ≤ max₀, intMax < ((feed 0).upTo max₀).countP fun e => decide (e.score = score)) ∨
        IsThrown t authors likes viewer feed max₀ n := by
  constructor
  · have hids : ((feed 0).upTo max₀).map FeedEntry.blogId |>.Nodup :=
      (feed 0).distinct.sublist ((List.filter_sublist).map _)
    have h := hids.map decimal_injective
    rwa [List.map_map] at h
  · exact Between.ends (fun k => upTo_congr (hfeed k)) _ 0 [] _ le_rfl between_start

/-- Three posts of one time, and an older one. -/
def tiedMembers : Feed where
  members := [⟨1000, 9⟩, ⟨1000, 8⟩, ⟨1000, 7⟩, ⟨500, 3⟩]
  sorted := by
    unfold FeedEntry.Before
    decide +kernel
  distinct := by decide
  admitted := by decide

/-- The same feed after a later post. -/
def grownMembers : Feed where
  members := [⟨2000, 10⟩, ⟨1000, 9⟩, ⟨1000, 8⟩, ⟨1000, 7⟩, ⟨500, 3⟩]
  sorted := by
    unfold FeedEntry.Before
    decide +kernel
  distinct := by decide
  admitted := by decide

/-- A page ends within the three posts, and the later post comes between the calls: the client still gets them
all. -/
theorem follow_feed_grown :
    ∃ n, Completes (fun _ => elevenPosts) (fun _ _ => some ⟨none, none⟩) (fun _ _ _ => none) none
      (fun k => if k = 0 then tiedMembers else grownMembers) 1000 n := by
  have hfeed : ∀ k (e : FeedEntry), e.score ≤ 1000 → (e ∈ (if k = 0 then tiedMembers else grownMembers).members ↔
      e ∈ (if 0 = 0 then tiedMembers else grownMembers).members) := by
    intro k e he
    by_cases hk : k = 0
    · rw [hk]
    · simp only [hk, if_false, if_true]
      constructor
      · intro hmem
        rcases List.mem_cons.mp hmem with rfl | hmem
        · exact absurd he (by decide)
        · exact hmem
      · exact fun hmem => List.mem_cons_of_mem _ hmem
  obtain ⟨-, n, hcompletes | ⟨-, score, -, hmany⟩ | ⟨_, _, _, _, _, _, _, _, _, hnone⟩⟩ :=
    follow_feed (fun _ => elevenPosts) (fun _ _ => some ⟨none, none⟩) (fun _ _ _ => none) none hfeed
  · exact ⟨n, hcompletes⟩
  · have hfew : (tiedMembers.upTo 1000).countP (fun e => decide (e.score = score)) ≤ 4 :=
      List.countP_le_length.trans (List.length_filter_le ..)
    exact absurd hmany (not_lt.mpr (hfew.trans (by decide)))
  · cases hnone

/-! ## A crowded score -/

/-- The ids `1`, …, `n`, from the last text down. -/
def crowdIds (n : ℕ) : List ℕ :=
  (List.range' 1 n).mergeSort fun a b => decide (decimal b ≤ decimal a)

/-- These are the ids in another order. -/
theorem crowdIds_perm (n : ℕ) : (crowdIds n).Perm (List.range' 1 n) := List.mergeSort_perm _ _

/-- No id comes twice. -/
theorem nodup_crowdIds (n : ℕ) : (crowdIds n).Nodup := by
  rw [(crowdIds_perm n).nodup_iff]
  exact List.nodup_range'

/-- The texts of the ids of a crowd fall. -/
theorem sorted_crowdIds (n : ℕ) : (crowdIds n).Pairwise fun a b => decimal b < decimal a := by
  have hsorted : (crowdIds n).Pairwise fun a b => decide (decimal b ≤ decimal a) = true := by
    refine List.pairwise_mergeSort (fun a b c hab hbc => ?_) (fun a b => ?_) _
    · exact decide_eq_true ((of_decide_eq_true hbc).trans (of_decide_eq_true hab))
    · rw [Bool.or_eq_true, decide_eq_true_iff, decide_eq_true_iff]
      exact le_total _ _
  refine hsorted.imp₂ (fun a b hle hne => ?_) (nodup_crowdIds n)
  exact lt_of_le_of_ne (of_decide_eq_true hle) fun heq => hne (decimal_injective heq).symm

/-- A feed of `n` posts of one time. -/
def crowd (n : ℕ) (hn : n ≤ longMax) : Feed where
  members := (crowdIds n).map fun id => ⟨1, id⟩
  sorted := List.pairwise_map.mpr ((sorted_crowdIds n).imp fun hlt => Or.inr ⟨rfl, hlt⟩)
  distinct := by
    rw [List.map_map]
    exact (nodup_crowdIds n).map fun _ _ h => h
  admitted := by
    intro e he
    obtain ⟨id, hid, rfl⟩ := List.mem_map.mp he
    have hid := List.mem_range'_1.mp ((crowdIds_perm n).mem_iff.mp hid)
    have hlow : 0 < id := hid.1
    have hhigh : id ≤ longMax := by omega
    exact ⟨hlow, hhigh, rfl⟩

section crowd

variable {n : ℕ} {hn : n ≤ longMax} {t : ℕ → Tables} {authors : ℕ → ℕ → Option UserDTO} {likes : ℕ → Likes}
  {viewer : Option ℤ} {k : ℕ}

/-- All posts have the time 1. -/
theorem score_of_crowd {e : FeedEntry} (h : e ∈ (crowd n hn).members) : e.score = 1 := by
  obtain ⟨id, -, rfl⟩ := List.mem_map.mp h
  rfl

/-- There are as many members as ids. -/
theorem length_crowd : (crowd n hn).members.length = n := by
  unfold crowd
  rw [List.length_map, (crowdIds_perm n).length_eq, List.length_range']

/-- All members are up to the time 1. -/
theorem upTo_crowd : (crowd n hn).upTo 1 = (crowd n hn).members :=
  List.filter_eq_self.mpr fun _ he => decide_eq_true (score_of_crowd he).le

/-- The call behind `2 * k` members of the crowd. -/
theorem answer_crowd (hauthors : ∀ k user, authors k user ≠ none) (hk : 2 * k + 2 ≤ n) :
    (intMax < 2 * k + 2 →
      answer t authors likes viewer (fun _ => crowd n hn) k (1, 2 * k) = .error (.refused feedOutOfRange)) ∧
    (2 * k + 2 ≤ intMax → ∃ list, answer t authors likes viewer (fun _ => crowd n hn) k (1, 2 * k) =
      .ok (some { list := list, minTime := 1, offset := 2 * k + 2 })) := by
  have hsplit : (crowd n hn).upTo 1 =
      (crowd n hn).members.take (2 * k) ++ (crowd n hn).members.drop (2 * k) := by
    rw [upTo_crowd, List.take_append_drop]
  have hone : ∀ e ∈ ((crowd n hn).members.drop (2 * k)).take 2, e.score = 1 := fun e he =>
    score_of_crowd (List.mem_of_mem_drop (List.mem_of_mem_take he))
  have hmarks : Marks FeedEntry.score ((crowd n hn).members.take (2 * k))
      ((crowd n hn).members.drop (2 * k)) 1 (2 * k) := by
    refine ⟨fun _ he => (score_of_crowd (List.mem_of_mem_take he)).ge,
      fun _ he => (score_of_crowd (List.mem_of_mem_drop he)).le, ?_⟩
    rw [List.countP_eq_length.mpr fun _ he => decide_eq_true (score_of_crowd (List.mem_of_mem_take he)),
      List.length_take, length_crowd]
    omega
  have hlength : (((crowd n hn).members.drop (2 * k)).take 2).length = 2 := by
    rw [List.length_take, List.length_drop, length_crowd]
    omega
  have hne : ((crowd n hn).members.drop (2 * k)).take 2 ≠ [] := by
    rw [← List.length_pos_iff, hlength]
    decide
  have hlast := List.getLast?_eq_getLast_of_ne_nil hne
  have hscore := hone _ (List.getLast_mem hne)
  have hcount : (((crowd n hn).members.drop (2 * k)).take 2).countP (fun e => decide (e.score =
      ((((crowd n hn).members.drop (2 * k)).take 2).getLast hne).score)) = 2 := by
    rw [List.countP_eq_length.mpr fun e he => decide_eq_true ((hone e he).trans hscore.symm), hlength]
  have hanswer : queryBlogOfFollow (t k) (authors k) (likes k) viewer (crowd n hn) 1 (2 * k) = _ :=
    query_part hsplit le_rfl hmarks hlast
  rw [hcount, hscore, if_pos rfl] at hanswer
  constructor
  · intro hfar
    rw [if_pos ⟨rfl, hfar⟩] at hanswer
    exact hanswer
  · intro hnear
    rw [if_neg fun h => absurd h.2 (not_lt.mpr hnear)] at hanswer
    rcases shownOf_cases (t k) (authors k) (likes k) viewer
      (((crowd n hn).members.drop (2 * k)).take 2) with ⟨-, list, hlist⟩ | ⟨⟨-, -, blog, -, -, hnone⟩, -⟩
    · rw [hlist] at hanswer
      exact ⟨list, hanswer⟩
    · exact absurd hnone (hauthors k blog.userId)

/-- The client counts on until the next offset is no `int`. -/
theorem cursorAt_crowd (hauthors : ∀ k user, authors k user ≠ none) (hk : 2 * k ≤ intMax) (hn' : intMax < n) :
    cursorAt t authors likes viewer (fun _ => crowd n hn) 1 k = some (1, 2 * k) := by
  induction k with
  | zero => rfl
  | succ k ih =>
    obtain ⟨list, hanswer⟩ : ∃ list, answer t authors likes viewer (fun _ => crowd n hn) k (1, 2 * k) =
        .ok (some { list := list, minTime := 1, offset := 2 * k + 2 }) :=
      (answer_crowd hauthors (by omega)).2 hk
    exact cursorAt_succ (ih (by omega)) hanswer

/-- More than `Integer.MAX_VALUE` posts of one time are not read to the end. -/
theorem not_completes_crowd (hauthors : ∀ k user, authors k user ≠ none) (hn' : intMax < n) (m : ℕ) :
    ¬ Completes t authors likes viewer (fun _ => crowd n hn) 1 m := by
  rintro ⟨cursor, hcursor, hend, -⟩
  -- the call whose next offset would be 2147483648
  obtain ⟨k, hk⟩ : ∃ k, 2 * k + 1 = intMax := ⟨1073741823, rfl⟩
  rcases Nat.lt_or_ge k m with hlater | hbefore
  · have hk' : cursorAt t authors likes viewer (fun _ => crowd n hn) 1 k = some (1, 2 * k) :=
      cursorAt_crowd hauthors (by omega) hn'
    have hrefused : answer t authors likes viewer (fun _ => crowd n hn) k (1, 2 * k) =
        .error (.refused feedOutOfRange) := (answer_crowd hauthors (by omega)).1 (by omega)
    obtain ⟨j, rfl⟩ := Nat.exists_eq_add_of_lt hlater
    have hnone := cursorAt_thrown hk' hrefused j
    rw [Nat.add_right_comm k 1 j, hcursor] at hnone
    cases hnone
  · have hm : cursorAt t authors likes viewer (fun _ => crowd n hn) 1 m = some (1, 2 * m) :=
      cursorAt_crowd hauthors (by omega) hn'
    obtain rfl := Option.some.inj (hcursor.symm.trans hm)
    by_cases hfar : intMax < 2 * m + 2
    · rw [(answer_crowd hauthors (by omega)).1 hfar] at hend
      cases hend
    · obtain ⟨list, hanswer⟩ : ∃ list, answer t authors likes viewer (fun _ => crowd n hn) m (1, 2 * m) =
          .ok (some { list := list, minTime := 1, offset := 2 * m + 2 }) :=
        (answer_crowd hauthors (by omega)).2 (not_lt.mp hfar)
      rw [hanswer] at hend
      cases hend

end crowd

/-- A client whose first call throws reads nothing. -/
theorem not_completes_of_thrown {t : ℕ → Tables} {authors : ℕ → ℕ → Option UserDTO} {likes : ℕ → Likes}
    {viewer : Option ℤ} {feed : ℕ → Feed} {max₀ : ℕ} {e : Thrown}
    (h : answer t authors likes viewer feed 0 (max₀, 0) = .error e) (n : ℕ) :
    ¬ Completes t authors likes viewer feed max₀ n := by
  rintro ⟨cursor, hcursor, hend, -⟩
  cases n with
  | zero =>
    obtain rfl := Option.some.inj hcursor
    rw [h] at hend
    cases hend
  | succ n =>
    have hnone : cursorAt t authors likes viewer feed max₀ (0 + 1 + n) = none := cursorAt_thrown rfl h n
    rw [Nat.zero_add, Nat.add_comm 1 n, hcursor] at hnone
    cases hnone

/-- A feed with one post more than `Integer.MAX_VALUE`, all of one time; and a feed whose posts are there, while
their author has no row. -/
theorem follow_feed_crowded :
    (¬ ∃ n, Completes (fun _ => elevenPosts) (fun _ _ => some ⟨none, none⟩) (fun _ _ _ => none) none
        (fun _ => crowd 2147483648 (by decide)) 1 n) ∧
      ¬ ∃ n, Completes (fun _ => elevenPosts) (fun _ _ => none) (fun _ _ _ => none) none
        (fun _ => tiedMembers) 1000 n := by
  constructor
  · rintro ⟨n, h⟩
    have hauthors : ∀ k user : ℕ, (fun _ _ => some ⟨none, none⟩ : ℕ → ℕ → Option UserDTO) k user ≠ none :=
      fun _ _ hnone => by cases hnone
    exact not_completes_crowd hauthors (by decide) n h
  · rintro ⟨n, h⟩
    have hsplit : tiedMembers.upTo 1000 = [] ++ tiedMembers.members := by decide
    have hlast : (tiedMembers.members.take 2).getLast? = some ⟨1000, 8⟩ := rfl
    have hanswer : queryBlogOfFollow elevenPosts (fun _ => none) (fun _ _ => none) none tiedMembers 1000 0 = _ :=
      query_part hsplit le_rfl (marks_nil (by decide)) hlast
    rcases shownOf_cases elevenPosts (fun _ => none) (fun _ _ => none) none
      (tiedMembers.members.take 2) with ⟨hnot, -⟩ | ⟨-, hthrown⟩
    · exact hnot ⟨⟨1000, 9⟩, by decide, _, rfl, rfl, rfl⟩
    · rw [if_neg (by decide), hthrown] at hanswer
      have hfirst : answer (fun _ => elevenPosts) (fun _ _ => none) (fun _ _ _ => none) none
          (fun _ => tiedMembers) 0 (1000, 0) = .error .nullPointer := hanswer
      exact not_completes_of_thrown hfirst n h

end CampusHub.Content
