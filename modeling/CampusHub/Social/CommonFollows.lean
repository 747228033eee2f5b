import CampusHub.Social.Follows

/-!
# Who two users both follow

`common` reads the two sorted sets and not the table.

* `common` — the query; `none` is an exception.
* `Texts` — every member is the text of an id, so that no member fails to parse.
* `projected_was_followed` — a member had its row at some time.
* `common_truthful` — the answer in every run.

**Theorem** (`common_truthful`). In every run, whatever calls overlap or fail, and while other calls go on
between its two reads, the query answers. Whoever it names was followed by both, each at some time before
the set was read; and a user whose pairs were written by orderly calls that are over is named exactly when
both follow.

**Proof route.** The members of the sorted sets are written by `add` alone, which writes the text of an id
(`texts_run`), so that no `Long.valueOf` throws. The two early answers for an empty set are what the general
case would answer (`common_eq`). A member was added by a call that had written its row before
(`projected_was_followed`).

**Left out.** Members that were in Redis before the first call, as from an older version of the application.
-/

namespace CampusHub.Social

open CampusHub.Domain CampusHub.Foundations CampusHub.Foundations.Decimal CampusHub.Foundations.Maps
open CampusHub.Foundations.Pools

/-! ## The query -/

/-- The columns of `tb_user` that are copied, and the copy. Source: `UserDTO.java`. -/
structure UserDTO where
  id : LongId
  nickName : Option String
  icon : Option String
  deriving DecidableEq

/-- `selectBatchIds`: the statement of an empty list does not parse. Source:
`MyBatisFollowUserReader.java` 20–22. -/
def findByIds (users : List UserDTO) (ids : Finset ℤ) : Option (List UserDTO) :=
  if ids = ∅ then none else some (users.filter fun u => (u.id.val : ℤ) ∈ ids)

/-- `Long.valueOf` of all of them. -/
def valuesOf (members : Finset String) : Option (Finset ℤ) :=
  if ∀ m ∈ members, (parseLong m).isSome then some (members.image fun m => (parseLong m).getD 0) else none

/-- Source: `FollowQueryService.java` 26–39. -/
def common (users : List UserDTO) (current target : FiniteMap String ℕ) : Option (List UserDTO) :=
  if current.keys = ∅ ∨ target.keys = ∅ then some []
  else
    let intersect := current.keys ∩ target.keys
    if intersect = ∅ then some []
    else do
      let ids ← valuesOf intersect
      findByIds users ids

section query

variable {users : List UserDTO} {current target : FiniteMap String ℕ}

/-- The text of an id is a number. -/
theorem parseLong_text (t : LongId) : parseLong t.text = some (t.val : ℤ) := by
  refine parseLong_decimal ?_
  have hmax : (longMax : ℤ) = llongMax := by decide
  rw [← hmax]
  exact_mod_cast t.le_max

/-- The ids of members that are texts of ids. -/
theorem valuesOf_texts {members : Finset String} (h : ∀ m ∈ members, ∃ t : LongId, m = t.text) :
    ∃ ids, valuesOf members = some ids ∧ ∀ t : LongId, (t.val : ℤ) ∈ ids ↔ t.text ∈ members := by
  have hsome : ∀ m ∈ members, (parseLong m).isSome := by
    intro m hm
    obtain ⟨t, rfl⟩ := h m hm
    rw [parseLong_text]
    rfl
  refine ⟨_, if_pos hsome, fun t => ?_⟩
  rw [Finset.mem_image]
  constructor
  · rintro ⟨m, hm, hvalue⟩
    obtain ⟨u, rfl⟩ := h m hm
    rw [parseLong_text, Option.getD_some, Nat.cast_inj] at hvalue
    obtain ⟨u, _, _⟩ := u
    obtain ⟨t, _, _⟩ := t
    simp only at hvalue
    subst hvalue
    exact hm
  · intro hm
    exact ⟨t.text, hm, by rw [parseLong_text]; rfl⟩

/-- **The two early answers change nothing**: when every member is the text of an id the query answers, with
the users who are members of both sets. -/
theorem common_eq (h : ∀ m ∈ current.keys, ∃ t : LongId, m = t.text) :
    common users current target =
      some (users.filter fun u => u.id.text ∈ current ∧ u.id.text ∈ target) := by
  have hempty : ∀ {members : Finset String}, members = ∅ →
      (∀ u : UserDTO, u.id.text ∈ current ∧ u.id.text ∈ target → u.id.text ∈ members) →
      (users.filter fun u => u.id.text ∈ current ∧ u.id.text ∈ target) = [] := by
    rintro members rfl hmem
    rw [List.filter_eq_nil_iff]
    intro u _ hu
    exact absurd (hmem u (of_decide_eq_true hu)) (Finset.notMem_empty _)
  unfold common
  split
  · rename_i hnone
    rcases hnone with hnone | hnone
    · rw [hempty hnone fun u hu => Finmap.mem_keys.mpr hu.1]
    · rw [hempty hnone fun u hu => Finmap.mem_keys.mpr hu.2]
  · simp only
    split
    · rename_i hnone
      rw [hempty hnone fun u hu => Finset.mem_inter.mpr ⟨Finmap.mem_keys.mpr hu.1, Finmap.mem_keys.mpr hu.2⟩]
    · rename_i hsome
      obtain ⟨ids, hids, hmem⟩ :=
        valuesOf_texts fun m hm => h m (Finset.mem_inter.mp hm).1
      have hids_ne : ids ≠ ∅ := by
        obtain ⟨m, hm⟩ := Finset.nonempty_iff_ne_empty.mpr hsome
        obtain ⟨t, rfl⟩ := h m (Finset.mem_inter.mp hm).1
        exact Finset.nonempty_iff_ne_empty.mp ⟨_, (hmem t).mpr hm⟩
      rw [hids, Option.bind_eq_bind, Option.bind_some, findByIds, if_neg hids_ne]
      simp only [hmem, Finset.mem_inter, Finmap.mem_keys]

end query

/-! ## What the sorted sets hold -/

/-- Every member is the text of an id. -/
def Texts (s : FollowStore) : Prop := ∀ key m, m ∈ s.following key → ∃ t : LongId, m = t.text

section texts

variable {s : FollowStore} {a t : LongId}

/-- A sorted set of such members may be put in. -/
theorem Texts.update (h : Texts s) (key : String) {members : FiniteMap String ℕ}
    (hmembers : ∀ m, m ∈ members → ∃ t : LongId, m = t.text) :
    ∀ k m, m ∈ Function.update s.following key members k → ∃ t : LongId, m = t.text := by
  intro k m hm
  by_cases hk : k = key
  · subst hk
    rw [Function.update_self] at hm
    exact hmembers m hm
  · rw [Function.update_of_ne hk] at hm
    exact h k m hm

/-- Every step of a call keeps to texts of ids. -/
theorem Texts.move (h : Texts s) (fate : Fate) (c : FollowCall) : Texts (c.move fate s).1 := by
  have hperform : ∀ {f : FollowStore → FollowStore}, Texts (f s) → Texts (fate.perform f s) := by
    intro f hf
    rcases fate.perform_cases f s with heq | heq
    · rwa [heq]
    · rwa [heq]
  unfold FollowCall.move
  split
  · exact h
  · exact hperform h
  · refine hperform (h.update _ fun m hm => ?_)
    rcases (Finmap.mem_insert).mp hm with rfl | hold
    · exact ⟨c.targetId, rfl⟩
    · exact h _ m hold
  · exact hperform h
  · refine hperform (h.update _ fun m hm => ?_)
    exact h _ m (Finmap.mem_erase.mp hm).2
  · exact h

/-- Every run keeps to texts of ids. -/
theorem texts_run {p : FollowPool} (h : Texts p.store) (as : List FollowAct) :
    Texts (Runs.run follows.step p as).store :=
  (Asserts.run_stable (J := fun _ _ => True) (fun _ _ _ => trivial)
    (fun fate _ c hs _ => ⟨hs.move fate c, trivial, fun _ _ => trivial⟩)
    (fun _ _ hs => ⟨hs, fun _ _ => trivial⟩) as ⟨h, fun _ _ _ => trivial⟩).store

/-- No member, and no call that is about to add it. -/
abbrev Unprojected (a t : LongId) : FollowPool → Prop :=
  Asserts (fun s : FollowStore => ¬ s.Projected a t) fun _ c => c.About a t → c.stage ≠ .linked

/-- Without the row nobody adds the member. -/
theorem unprojected_step {p : FollowPool} (h : Unprojected a t p) {act : FollowAct}
    (hbefore : (a, t) ∉ p.store.rows) (hafter : (a, t) ∉ (follows.step p act).store.rows) :
    Unprojected a t (follows.step p act) := by
  refine h.step (fun i r _ _ => ?_) (fun i fate c hmove hc => ?_) fun d _ => ⟨h.store, h.calls⟩
  · show r.enter.stage ≠ .linked
    unfold FollowRequest.enter
    simp only
    split
    · simp
    · split <;> simp
  · have heq : follows.move fate p.store c = c.move fate p.store := rfl
    simp only [heq]
    by_cases habout : c.About a t
    · have hstage := h.calls i c hc habout
      have hrows : (a, t) ∉ (c.move fate p.store).1.rows := by
        rw [hmove, follows.step_move hc] at hafter
        exact hafter
      obtain ⟨rfl, rfl⟩ := habout
      refine ⟨?_, fun _ => ?_, fun j u _ hu => h.calls j u hu⟩
      · intro hmember
        refine h.store ?_
        revert hmember
        unfold FollowCall.move
        split
        · exact id
        · exact fun hmember => (fate.perform_cases _ _).elim (fun heq => by rwa [heq] at hmember)
            fun heq => by rwa [heq] at hmember
        · rename_i hlinked
          exact absurd hlinked hstage
        · exact fun hmember => (fate.perform_cases _ _).elim (fun heq => by rwa [heq] at hmember)
            fun heq => by rwa [heq] at hmember
        · exact fun hmember => (fate.perform_cases _ _).elim
            (fun heq => by rw [heq, projected_remove] at hmember; exact hmember.2)
            fun heq => by rwa [heq] at hmember
        · exact id
      · revert hrows
        unfold FollowCall.move FollowCall.after FollowCall.reach
        split
        · simp only [hbefore, if_false]
          intro _
          split <;> simp
        · intro hrows
          cases fate with
          | answered => simp at hrows
          | _ => simp
        · simp only
          intro _
          split <;> simp
        · simp only [hbefore, if_false]
          intro _
          split <;> simp
        · simp only
          intro _
          split <;> simp
        · intro _
          exact hstage
    · exact ⟨fun hmember => h.store ((move_other habout).2.mp hmember),
        fun hin => absurd (about_move.mp hin) habout, fun j u _ hu => h.calls j u hu⟩

end texts

/-- **A member had its row at some time**, in every run in which the pair starts without a member and
without calls. -/
theorem projected_was_followed {a t : LongId} {p : FollowPool} (hstart : Unprojected a t p)
    (as : List FollowAct) (hend : (Runs.run follows.step p as).store.Projected a t) :
    ∃ as₁ as₂, as = as₁ ++ as₂ ∧ (a, t) ∈ (Runs.run follows.step p as₁).store.rows :=
  Runs.exists_prefix (I := Unprojected a t) (Q := fun p => (a, t) ∈ p.store.rows) follows.step
    (fun _ _ hp hbefore hafter => unprojected_step hp hbefore hafter) as hstart
    fun hnot => hnot.store hend

/-- The stores before the first follow. -/
def emptyFollows (now : ℕ) : FollowPool := Pool.idle ⟨∅, fun _ => ∅, now⟩

/-- **What the query answers**, when it reads the two sorted sets in the worlds that `as` and `as ++ bs`
reach. -/
structure CommonTruthful (users : List UserDTO) (now : ℕ) (actor target : LongId) (as bs : List FollowAct)
    (answer : List UserDTO) : Prop where
  /-- Whoever is named was followed by both, each at a time before its set was read. -/
  followed : ∀ u ∈ answer, u ∈ users ∧
    (∃ cs ds, as = cs ++ ds ∧ (actor, u.id) ∈ (Runs.run follows.step (emptyFollows now) cs).store.rows) ∧
    ∃ cs ds, as ++ bs = cs ++ ds ∧
      (target, u.id) ∈ (Runs.run follows.step (emptyFollows now) cs).store.rows
  /-- A user the calls about whom are orderly and over is named exactly when both follow. -/
  exact : ∀ u ∈ users,
    Runs.Along (Orderly actor u.id) follows.step (emptyFollows now) as →
    Quiet actor u.id (Runs.run follows.step (emptyFollows now) as) →
    Runs.Along (Orderly target u.id) follows.step (emptyFollows now) (as ++ bs) →
    Quiet target u.id (Runs.run follows.step (emptyFollows now) (as ++ bs)) →
    (u ∈ answer ↔ (actor, u.id) ∈ (Runs.run follows.step (emptyFollows now) as).store.rows ∧
      (target, u.id) ∈ (Runs.run follows.step (emptyFollows now) (as ++ bs)).store.rows)

/-- **The query always answers, and only with users whom both had followed**: in every run, whatever calls
overlap or fail, and while other calls go on between its two reads. -/
theorem common_truthful (users : List UserDTO) (now : ℕ) (actor target : LongId) (as bs : List FollowAct) :
    ∃ answer, common users
        ((Runs.run follows.step (emptyFollows now) as).store.following (followsKey actor))
        ((Runs.run follows.step (emptyFollows now) (as ++ bs)).store.following (followsKey target)) =
          some answer ∧
      CommonTruthful users now actor target as bs answer := by
  have htexts : Texts (Runs.run follows.step (emptyFollows now) as).store :=
    texts_run (fun _ _ hm => absurd hm (Finmap.notMem_empty)) as
  refine ⟨_, common_eq fun m hm => htexts _ m (Finmap.mem_keys.mp hm), ?_, ?_⟩
  · intro u hu
    obtain ⟨hmem, hboth⟩ := List.mem_filter.mp hu
    obtain ⟨hactor, htarget⟩ := of_decide_eq_true hboth
    have hstart : ∀ b, Unprojected b u.id (emptyFollows now) := fun b =>
      asserts_idle fun hm => absurd hm (Finmap.notMem_empty)
    exact ⟨hmem, projected_was_followed (hstart actor) as hactor,
      projected_was_followed (hstart target) (as ++ bs) htarget⟩
  · intro u hu horderly hquiet horderly' hquiet'
    have hstart : ∀ b, (emptyFollows now).store.Agrees b u.id := fun b =>
      iff_of_false (Finset.notMem_empty _) (Finmap.notMem_empty)
    have hnobody : ∀ b, Quiet b u.id (emptyFollows now) := fun b i c hc => by cases hc
    have hactor := (pairSection_run (pairSection_quiet (hnobody actor) fun _ : True => hstart actor)
      horderly).rest hquiet trivial
    have htarget := (pairSection_run (pairSection_quiet (hnobody target) fun _ : True => hstart target)
      horderly').rest hquiet' trivial
    rw [List.mem_filter, decide_eq_true_iff, and_iff_right hu]
    exact and_congr hactor.symm htarget.symm

end CampusHub.Social
