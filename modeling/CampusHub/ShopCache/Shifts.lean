import CampusHub.Foundations.Fence
import CampusHub.Foundations.Maps
import CampusHub.ShopCache.World

/-!
# What a step does to a shop

* `Shop.Holds`, `Shop.fence` — the copies of the row, in the cache and in the hands of the readers.
* `Tame` — what a task can become without an invalidation of its own.
* `Shift` — what a step does: work, a turn of the epoch, a commit, or a row of the outbox is settled.
* `step_shift` — every step with fresh UUIDs is one of these.
* `Known` — every epoch and generation that is in use was drawn; `Known.shift` keeps it.

**Theorem** (`step_shift`). Whatever a task does next, under UUIDs that are new, the step is a `Shift`: work
that leaves the epoch and at most publishes a copy that somebody held; a turn of the epoch to one that
nobody has seen; a commit; or the deletion of an outbox row by the worker that has invalidated for its
generation.

**Proof route.** The tasks have many places, and four kinds of shifts. So the cases over places are made
once (`maintain_shift` for the writers and workers, `query_shift` for the readers), and everything after is
about shifts. `Tame` is what the tasks need: a task gets hold of a copy only from the row or from a copy
that was there, and knows only epochs that were seen.

**Left out.** What a copy says. That it is the current row is the business of `ShopCache.Currency`.
-/

namespace CampusHub.ShopCache

open CampusHub.Redis CampusHub.Foundations CampusHub.Foundations.Guards CampusHub.Foundations.Maps

variable {ρ : Type}

/-! ## What a task holds -/

namespace Task

/-- The epoch that a reader saw. -/
def epoch : Task ρ → Option String
  | .loading _ epoch | .loaded _ epoch _ => some epoch
  | _ => none

/-- The generation that a worker read. -/
def generation : Task ρ → Option String
  | .recovering generation | .invalidated generation | .failing generation _ => some generation
  | _ => none

/-- What a reader answers. -/
def result : Task ρ → Option (Option ρ)
  | .unlocking _ (.value v) | .returned v => some v
  | _ => none

end Task

namespace Shop

/-- The current epoch. -/
def epoch (s : Shop ρ) : String := (s.redis.get .epoch).getD ""

/-- A copy of a row with its epoch, in the cache or with a reader. -/
def Holds (C : EnvelopeCodec ρ) (s : Shop ρ) (e : String) (v : Option ρ) : Prop :=
  s.redis.get .data = some (C.render (envelope e v)) ∨ ∃ k token, s.tasks k = some (.loaded token e v)

/-- **The cache of a shop as copies behind an epoch.** -/
def fence (C : EnvelopeCodec ρ) (s : Shop ρ) : Fence String (Option ρ) where
  epoch := s.epoch
  held := {p | s.Holds C p.1 p.2}

/-- The epoch is current, or of a copy, or a reader saw it. -/
def Seen (C : EnvelopeCodec ρ) (s : Shop ρ) (e : String) : Prop :=
  e = s.epoch ∨ (∃ v, s.redis.get .data = some (C.render (envelope e v))) ∨
    ∃ k t, s.tasks k = some t ∧ t.epoch = some e

/-- The epoch of a copy is one that was seen. -/
theorem Holds.seen {C : EnvelopeCodec ρ} {s : Shop ρ} {e : String} {v : Option ρ}
    (h : s.Holds C e v) : s.Seen C e :=
  h.elim (fun hdata => .inr (.inl ⟨v, hdata⟩)) fun ⟨k, _, hk⟩ => .inr (.inr ⟨k, _, hk, rfl⟩)

end Shop

/-- **What a task can become** without an invalidation of its own. -/
structure Tame (C : EnvelopeCodec ρ) (s : Shop ρ) (k : ℕ) (t : Option (Task ρ)) : Prop where
  epoch : ∀ t' e, t = some t' → t'.epoch = some e → s.Seen C e
  copy : ∀ token e v, t = some (.loaded token e v) → s.Holds C e v ∨ v = s.row
  generation : ∀ t' g, t = some t' → t'.generation = some g →
    (∃ t₀, s.tasks k = some t₀ ∧ t₀.generation = some g) ∨
      ∃ entry, s.outbox = some entry ∧ entry.generation = g
  confirmed : ∀ g, t = some (.invalidated g) → s.tasks k = some (.invalidated g)
  result : ∀ t' v, t = some t' → t'.result = some v →
    s.Holds C s.epoch v ∨ ∃ t₀, s.tasks k = some t₀ ∧ t₀.result = some v

section tame

variable {C : EnvelopeCodec ρ} {s : Shop ρ} {k : ℕ}

/-- A task can stay as it is. -/
theorem tame_self : Tame C s k (s.tasks k) where
  epoch t' _ ht he := .inr (.inr ⟨k, t', ht, he⟩)
  copy token _ _ ht := .inl (.inr ⟨k, token, ht⟩)
  generation t' _ ht hg := .inl ⟨t', ht, hg⟩
  confirmed _ ht := ht
  result t' _ ht hv := .inr ⟨t', ht, hv⟩

/-- A task can end, or come to a point where it holds nothing. -/
theorem tame_of_plain {t : Option (Task ρ)} (h : ∀ t', t = some t' →
    t'.epoch = none ∧ t'.generation = none ∧ t'.result = none) : Tame C s k t where
  epoch t' e ht he := by rw [(h t' ht).1] at he; cases he
  copy token e v ht := by cases (h _ ht).1
  generation t' g ht hg := by rw [(h t' ht).2.1] at hg; cases hg
  confirmed g ht := by cases (h _ ht).2.1
  result t' v ht hv := by rw [(h t' ht).2.2] at hv; cases hv

/-- A task can come to a point if what it holds there was seen. -/
theorem tame_some {t : Task ρ} (hepoch : ∀ e, t.epoch = some e → s.Seen C e)
    (hcopy : ∀ token e v, t = .loaded token e v → s.Holds C e v ∨ v = s.row)
    (hgeneration : ∀ g, t.generation = some g →
      (∃ t₀, s.tasks k = some t₀ ∧ t₀.generation = some g) ∨
        ∃ entry, s.outbox = some entry ∧ entry.generation = g)
    (hconfirmed : ∀ g, t = .invalidated g → s.tasks k = some (.invalidated g))
    (hresult : ∀ v, t.result = some v →
      s.Holds C s.epoch v ∨ ∃ t₀, s.tasks k = some t₀ ∧ t₀.result = some v) : Tame C s k (some t) where
  epoch _ e ht he := by
    obtain rfl := Option.some.inj ht
    exact hepoch e he
  copy token e v ht := hcopy token e v (Option.some.inj ht)
  generation _ g ht hg := by
    obtain rfl := Option.some.inj ht
    exact hgeneration g hg
  confirmed g ht := hconfirmed g (Option.some.inj ht)
  result _ v ht hv := by
    obtain rfl := Option.some.inj ht
    exact hresult v hv

/-- A task can come to a point where it holds a result only. -/
theorem tame_of_result {t : Task ρ} (hepoch : t.epoch = none) (hgeneration : t.generation = none)
    (hresult : ∀ v, t.result = some v →
      s.Holds C s.epoch v ∨ ∃ t₀, s.tasks k = some t₀ ∧ t₀.result = some v) : Tame C s k (some t) := by
  refine tame_some (fun e he => ?_) (fun token e v ht => ?_) (fun g hg => ?_) (fun g ht => ?_) hresult
  · rw [hepoch] at he
    cases he
  · subst ht
    cases hepoch
  · rw [hgeneration] at hg
    cases hg
  · subst ht
    cases hgeneration

end tame

/-! ## Steps -/

/-- The database is as before, but for the attempts counted. -/
def SameDb (s s' : Shop ρ) : Prop :=
  s'.row = s.row ∧ s'.history = s.history ∧
    s'.outbox.map Invalidation.generation = s.outbox.map Invalidation.generation

/-- **What a step does to a shop.** -/
inductive Shift (C : EnvelopeCodec ρ) (s s' : Shop ρ) : Prop
  | work {k : ℕ} {t : Option (Task ρ)} (ht : Tame C s k t)
      (htasks : s'.tasks = Function.update s.tasks k t)
      (hepoch : s'.redis .epoch = s.redis .epoch)
      (hdata : s'.redis.get .data = s.redis.get .data ∨ s'.redis.get .data = none ∨
        ∃ e v, s.Holds C e v ∧ s'.redis.get .data = some (C.render (envelope e v)))
      (hdb : SameDb s s') (hdrawn : s.drawn ⊆ s'.drawn)
      (hstrays : ∀ e ∈ s'.strays, e ∈ s.strays ∨ e ∉ s.drawn ∧ e ∈ s'.drawn)
  /-- The epoch turns to one that nobody has seen. -/
  | turn {k : ℕ} {t : Option (Task ρ)} {new : String}
      (ht : Tame C s k t ∨ ∃ g, s.tasks k = some (.recovering g) ∧ t = some (.invalidated g))
      (htasks : s'.tasks = Function.update s.tasks k t)
      (hepoch : s'.redis .epoch = some ⟨.str new, none⟩)
      (hnew : (new ∉ s.drawn ∧ s'.strays = s.strays ∧ s'.drawn = insert new s.drawn) ∨
        (new ∈ s.strays ∧ s'.strays = s.strays.erase new ∧ s'.drawn = s.drawn))
      (hdata : s'.redis.get .data = s.redis.get .data ∨ s'.redis.get .data = none)
      (hdb : SameDb s s')
  | commit {k : ℕ} {row : ρ} {g : String} (hfresh : g ∉ s.drawn)
      (hcommit : s' = s.commit k row g)
  /-- A row of the outbox is deleted if it has the generation. -/
  | settle {k : ℕ} {g : String} (hk : s.tasks k = some (.invalidated g))
      (hsettle : s' = { s.setTask k none with
        outbox := s.outbox.filter fun e => e.generation ≠ g })

/-- **What is in use was drawn**, and nobody has seen the epochs of the invalidations under way; the
epoch does not expire. -/
structure Known (C : EnvelopeCodec ρ) (s : Shop ρ) : Prop where
  persistent : s.redis.ttl .epoch = none
  rendered : ∀ raw, s.redis.get .data = some raw → ∃ e v, raw = C.render (envelope e v)
  seen : ∀ e, s.Seen C e → e ∈ s.drawn
  entry : ∀ e, s.outbox = some e → e.generation ∈ s.drawn
  claimed : ∀ k t g, s.tasks k = some t → t.generation = some g → g ∈ s.drawn
  strays : ∀ e ∈ s.strays, e ∈ s.drawn ∧ ¬ s.Seen C e

section steps

variable {C : EnvelopeCodec ρ} {s : Shop ρ}

/-- **What a reader reads** is a copy of the current epoch, or a miss. -/
theorem Known.read (h : Known C s) {sn : Snapshot ρ} (hread : s.read C = some sn) :
    sn.epoch = s.epoch ∧ (sn.present = true → s.Holds C s.epoch sn.value) := by
  unfold Shop.read at hread
  split at hread
  · rename_i epoch raw hrun
    have hplan : epoch = s.epoch ∧ raw = (s.redis.get .data).getD "" := by
      cases hplan : shopCacheRead s.redis CacheKey.data .epoch with
      | error o =>
        rw [hplan] at hrun
        obtain rfl : o = .answer (epoch, raw) := hrun
        simp [shopCacheRead, wrongType] at hplan
      | ok p =>
        rw [hplan] at hrun
        simp only [shopCacheRead, ensure_bind_eq_ok] at hplan
        obtain ⟨-, -, hp⟩ := hplan
        obtain rfl := Except.ok.inj hp
        have hpair := Outcome.answer.inj hrun
        rw [Prod.mk.injEq] at hpair
        exact ⟨hpair.1.symm, hpair.2.symm⟩
    obtain ⟨rfl, rfl⟩ := hplan
    cases hdata : s.redis.get .data with
    | none =>
      rw [hdata] at hread
      obtain rfl := Option.some.inj hread
      exact ⟨rfl, fun hp => by cases hp⟩
    | some raw =>
      obtain ⟨e, v, rfl⟩ := h.rendered raw hdata
      rw [hdata, Option.getD_some] at hread
      obtain ⟨sn', hsn, hepoch, hpresent, hvalue⟩ := snapshot_render (C := C) s.epoch e v
      obtain rfl := Option.some.inj (hread.symm.trans hsn)
      refine ⟨hepoch, fun hp => .inl ?_⟩
      rw [hvalue hp, hpresent.mp hp, hdata]
  · cases hread

/-- A task that holds what a reader read. -/
theorem tame_of_read (h : Known C s) {k : ℕ} {sn : Snapshot ρ} (hread : s.read C = some sn)
    (hpresent : sn.present = true) {t : Task ρ} (hepoch : t.epoch = none)
    (hgeneration : t.generation = none) (hresult : t.result = some sn.value) :
    Tame C s k (some t) := by
  refine tame_of_result hepoch hgeneration fun v hv => .inl ?_
  obtain rfl := Option.some.inj (hresult.symm.trans hv)
  exact (h.read hread).2 hpresent

/-- A step that only changes a task. -/
theorem shift_of_setTask {k : ℕ} {t : Option (Task ρ)} (ht : Tame C s k t) :
    Shift C s (s.setTask k t) :=
  .work ht rfl rfl (.inl rfl) ⟨rfl, rfl, rfl⟩ subset_rfl fun _ he => .inl he

/-- A step that does nothing is a shift. -/
theorem shift_refl : Shift C s s :=
  .work (k := 0) tame_self (Function.update_eq_self ..).symm rfl (.inl rfl) ⟨rfl, rfl, rfl⟩
    subset_rfl fun _ he => .inl he

/-- **What an invalidation does**, in the hands of a task. -/
theorem shift_of_invalidate {k : ℕ} {epoch : String} (hfresh : epoch ∉ s.drawn) (fate : Fate)
    (f : Bool → Option (Task ρ)) (hf : Tame C s k (f false))
    (ht : Tame C s k (f true) ∨
      ∃ g, s.tasks k = some (.recovering g) ∧ f true = some (.invalidated g)) :
    Shift C s ((s.invalidateShop epoch fate).2.setTask k (f (s.invalidateShop epoch fate).1)) := by
  have hdrawn : s.drawn ⊆ insert epoch s.drawn := Finset.subset_insert _ _
  have hturned : ∀ {ks : Keyspace CacheKey} {b : Bool}, Turned s.redis epoch ks →
      Shift C s (Shop.setTask { s with drawn := insert epoch s.drawn, redis := ks } k (f b)) := by
    intro ks b hks
    refine .turn ?_ rfl hks.1 (.inl ⟨hfresh, rfl, rfl⟩) hks.2 ⟨rfl, rfl, rfl⟩
    cases b with
    | false => exact .inl hf
    | true => exact ht
  have hsame : Shift C s (Shop.setTask { s with drawn := insert epoch s.drawn } k (f false)) :=
    .work hf rfl rfl (.inl rfl) ⟨rfl, rfl, rfl⟩ hdrawn fun _ he => .inl he
  cases fate with
  | answered =>
    rcases invalidate_run s.now s.redis epoch with ⟨hone, hks⟩ | ⟨hone, hks⟩
    · simp only [Shop.invalidateShop, hone, decide_true]
      exact hturned hks
    · simp only [Shop.invalidateShop, hks, decide_eq_false hone]
      exact hsame
  | unheard =>
    rcases invalidate_run s.now s.redis epoch with ⟨-, hks⟩ | ⟨-, hks⟩
    · exact hturned hks
    · simp only [Shop.invalidateShop, hks]
      exact hsame
  | cut n =>
    rcases invalidate_cut s.now s.redis epoch n with hks | hks
    · simp only [Shop.invalidateShop, hks]
      exact hsame
    · exact hturned hks
  | lost => exact hsame
  | late =>
    refine .work hf rfl rfl (.inl rfl) ⟨rfl, rfl, rfl⟩ hdrawn fun e he => ?_
    rcases Finset.mem_insert.mp he with rfl | he
    · exact .inr ⟨hfresh, Finset.mem_insert_self _ _⟩
    · exact .inl he

/-- A change of keys other than the epoch that at most takes the data away. -/
theorem shift_of_redis (now : ℕ) {ks : Keyspace CacheKey} {k : ℕ} {t : Option (Task ρ)}
    (ht : Tame C s k t) (hepoch : ks .epoch = s.redis .epoch)
    (hdata : ks.get .data = s.redis.get .data ∨ ks.get .data = none) :
    Shift C s { s with redis := ks, now := now, tasks := Function.update s.tasks k t } :=
  .work ht rfl hepoch (hdata.imp_right .inl)
    ⟨rfl, rfl, rfl⟩ subset_rfl fun _ he => .inl he

/-- The steps of the writers, the callbacks and the workers. -/
theorem maintain_shift {a : ShopAct ρ} (hfresh : s.Fresh a) :
    Shift C s (s.maintain a) := by
  cases a with
  | create k row g =>
    simp only [Shop.maintain]
    split
    · exact .commit hfresh rfl
    · exact shift_refl
  | update k change g =>
    simp only [Shop.maintain]
    split
    · exact .commit hfresh rfl
    · exact shift_refl
  | callback k epoch fate =>
    simp only [Shop.maintain]
    split
    · exact shift_of_invalidate hfresh fate (fun _ => none) (tame_of_plain nofun)
        (.inl (tame_of_plain nofun))
    · exact shift_refl
  | poll k =>
    simp only [Shop.maintain]
    split
    · rename_i entry _ hentry
      refine shift_of_setTask (tame_some nofun nofun (fun g hg => ?_) nofun nofun)
      exact .inr ⟨entry, hentry, Option.some.inj hg⟩
    · exact shift_refl
  | recover k epoch fate errorClass =>
    simp only [Shop.maintain]
    split
    · rename_i g hk
      exact shift_of_invalidate hfresh fate (fun b => some (Shop.afterInvalidation g errorClass b))
        (tame_some nofun nofun (fun g' hg => .inl ⟨_, hk, hg⟩) nofun nofun) (.inr ⟨g, hk, rfl⟩)
    · exact shift_refl
  | complete k =>
    simp only [Shop.maintain]
    split
    · rename_i g hk
      exact .settle hk rfl
    · exact shift_refl
  | fail k =>
    simp only [Shop.maintain]
    split
    · refine .work (k := k) (t := none) (tame_of_plain nofun) rfl rfl (.inl rfl) ⟨rfl, rfl, ?_⟩
        subset_rfl fun _ he => .inl he
      cases s.outbox with
      | none => rfl
      | some e =>
        simp only [Option.map_some]
        split <;> rfl
    · exact shift_refl
  | arrive epoch n =>
    simp only [Shop.maintain]
    split
    · rename_i hmem
      rcases invalidate_cut s.now s.redis epoch n with hks | hks
      · rw [hks]
        exact .work (k := 0) tame_self (Function.update_eq_self ..).symm rfl (.inl rfl)
          ⟨rfl, rfl, rfl⟩ subset_rfl fun e he => .inl (Finset.mem_of_mem_erase he)
      · exact .turn (k := 0) (.inl tame_self) (Function.update_eq_self ..).symm hks.1
          (.inr ⟨hmem, rfl, rfl⟩) hks.2 ⟨rfl, rfl, rfl⟩
    · exact shift_refl
  | _ => exact shift_refl

/-- **What a publication does**, in the hands of its reader. -/
theorem shift_of_publish {k : ℕ} {token epoch : String} {value : Option ρ}
    (hk : s.tasks k = some (.loaded token epoch value)) (random : ℕ) {t : Task ρ}
    (hepoch : t.epoch = none) (hgeneration : t.generation = none)
    (hresult : ∀ v, t.result = some v → v = value ∧
      (Plan.run s.now (s.publishPlan C token epoch value random) s.redis).1 = .answer 1) :
    Shift C s (Shop.setTask { s with
      redis := (Plan.run s.now (s.publishPlan C token epoch value random) s.redis).2 } k (some t)) := by
  have hcopy : s.Holds C epoch value := .inr ⟨k, token, hk⟩
  have hcases := publish_cases s.now s.redis CacheKey.data .epoch .lock token epoch
    (C.render (envelope epoch value)) (Foundations.Decimal.decimal (Shop.ttlMillis value random))
  have ht : Tame C s k (some t) := by
    refine tame_of_result hepoch hgeneration fun v hv => ?_
    obtain ⟨rfl, hone⟩ := hresult v hv
    rcases hcases with ⟨-, hne⟩ | ⟨-, hobserved, -⟩
    · exact absurd hone hne
    · left
      rwa [show s.epoch = epoch from hobserved]
  rcases hcases with ⟨hks, -⟩ | ⟨-, -, hdata, hframe⟩
  · rw [Shop.publishPlan, hks]
    exact shift_of_setTask ht
  · exact .work ht rfl (hframe .epoch (by decide)) (.inr (.inr ⟨epoch, value, hcopy, hdata⟩))
      ⟨rfl, rfl, rfl⟩ subset_rfl fun _ he => .inl he

/-- The steps of the readers. -/
theorem query_shift (h : Known C s) (a : ShopAct ρ) : Shift C s (s.query C a) := by
  cases a with
  | query k inTransaction =>
    simp only [Shop.query]
    split
    · refine shift_of_setTask ?_
      split
      · exact tame_of_plain (by simp [Task.epoch, Task.generation, Task.result])
      · split
        · rename_i sn hread
          split
          · exact tame_of_read h hread ‹_› rfl rfl rfl
          · exact tame_of_plain (by simp [Task.epoch, Task.generation, Task.result])
        · exact tame_of_plain (by simp [Task.epoch, Task.generation, Task.result])
    · exact shift_refl
  | tryLock k token =>
    simp only [Shop.query]
    split
    · have hframe := fun {k' : CacheKey} (hk' : k' ≠ .lock) =>
        setIfAbsent_frame s.now s.redis token hk'
      refine shift_of_redis _ (tame_of_plain fun t ht => ?_) (hframe (by decide))
        (.inl (Keyspace.get_congr (hframe (by decide))))
      obtain rfl := Option.some.inj ht
      split <;> simp [Task.epoch, Task.generation, Task.result]
    · exact shift_refl
  | check k =>
    simp only [Shop.query]
    split
    · refine shift_of_setTask ?_
      split
      · rename_i sn hread
        split
        · exact tame_of_read h hread ‹_› rfl rfl rfl
        · refine tame_some (fun e he => ?_) nofun nofun nofun nofun
          obtain rfl := Option.some.inj he
          exact .inl (h.read hread).1
      · exact tame_of_plain (by simp [Task.epoch, Task.generation, Task.result])
    · exact shift_refl
  | load k =>
    simp only [Shop.query]
    split
    · rename_i token epoch hk
      refine shift_of_setTask (tame_some (fun e he => ?_) (fun token' e v ht => ?_) nofun nofun nofun)
      · exact .inr (.inr ⟨k, _, hk, he⟩)
      · exact .inr (Task.loaded.inj ht).2.2.symm
    · exact shift_refl
  | publish k random fate =>
    simp only [Shop.query]
    split
    · rename_i token epoch value hk
      cases fate with
      | answered =>
        refine shift_of_publish hk random rfl rfl fun v hv => ?_
        generalize (Plan.run s.now (s.publishPlan C token epoch value random) s.redis).1 = o at hv
        unfold Shop.verdict at hv
        split at hv
        · exact ⟨(Option.some.inj hv).symm, rfl⟩
        · cases hv
        · cases hv
      | unheard => exact shift_of_publish hk random rfl rfl nofun
      | _ => exact shift_of_setTask (tame_of_plain (by simp [Task.epoch, Task.generation, Task.result]))
    · exact shift_refl
  | unlock k reached =>
    simp only [Shop.query]
    split
    · rename_i token verdict hk
      have hframe : ∀ {k' : CacheKey}, k' ≠ .lock → (if reached then
          (Plan.run s.now (shopCacheUnlock s.redis .lock token) s.redis).2 else s.redis) k' =
          s.redis k' := by
        intro k' hk'
        split
        · exact unlock_frame s.now s.redis token hk'
        · rfl
      refine shift_of_redis s.now ?_ (hframe (by decide))
        (.inl (Keyspace.get_congr (hframe (by decide))))
      cases verdict with
      | value v =>
        exact tame_some nofun nofun nofun nofun fun v' hv => .inr ⟨_, hk, hv⟩
      | rejected => exact tame_of_plain (by simp [Task.epoch, Task.generation, Task.result])
      | thrown => exact tame_of_plain (by simp [Task.epoch, Task.generation, Task.result])
    · exact shift_refl
  | refill k again =>
    simp only [Shop.query]
    split
    · refine shift_of_setTask ?_
      split
      · rename_i sn hread
        split
        · exact tame_of_read h hread ‹_› rfl rfl rfl
        · split <;> exact tame_of_plain (by simp [Task.epoch, Task.generation, Task.result])
      · exact tame_of_plain (by simp [Task.epoch, Task.generation, Task.result])
    · exact shift_refl
  | abort k =>
    simp only [Shop.query]
    split
    all_goals first
      | exact shift_refl
      | exact shift_of_setTask (tame_of_plain (by simp [Task.epoch, Task.generation, Task.result]))
  | _ => exact shift_refl

/-- **Every step with fresh UUIDs is a shift.** -/
theorem step_shift (h : Known C s) {a : ShopAct ρ} (hfresh : s.Fresh a) :
    Shift C s (s.step C a) := by
  cases a with
  | tick d =>
    rw [Shop.step, ← Function.update_eq_self (f := s.tasks) 0]
    refine shift_of_redis _ tame_self (Keyspace.purge_of_persistent h.persistent) ?_
    rcases Keyspace.purge_eq_or_none s.redis (s.now + d) .data with hdata | hdata
    · exact .inl (Keyspace.get_congr hdata)
    · exact .inr (by rw [Keyspace.get, hdata])
  | evict k =>
    rw [Shop.step]
    split
    · exact shift_refl
    · rename_i hk
      have hremove : ∀ k', s.redis.remove k k' = if k' = k then none else s.redis k' :=
        s.redis.remove_apply k
      have hstep : ({ s with redis := s.redis.remove k } : Shop ρ) = { s with
          redis := s.redis.remove k
          now := s.now
          tasks := Function.update s.tasks 0 (s.tasks 0) } := by
        rw [Function.update_eq_self]
      rw [hstep]
      refine shift_of_redis _ tame_self ?_ ?_
      · rw [hremove, if_neg (Ne.symm hk)]
      · by_cases hdata : CacheKey.data = k
        · exact .inr (by rw [Keyspace.get, hremove, if_pos hdata])
        · exact .inl (Keyspace.get_congr (by rw [hremove, if_neg hdata]))
  | crash k => exact shift_of_setTask (tame_of_plain fun _ h => by cases h)
  | create k row g => exact maintain_shift hfresh
  | update k change g => exact maintain_shift hfresh
  | callback k epoch fate => exact maintain_shift hfresh
  | poll k => exact maintain_shift hfresh
  | recover k epoch fate errorClass => exact maintain_shift hfresh
  | complete k => exact maintain_shift hfresh
  | fail k => exact maintain_shift hfresh
  | arrive epoch n => exact maintain_shift hfresh
  | query k inTransaction => exact query_shift h (.query k inTransaction)
  | tryLock k token => exact query_shift h (.tryLock k token)
  | check k => exact query_shift h (.check k)
  | load k => exact query_shift h (.load k)
  | publish k random fate => exact query_shift h (.publish k random fate)
  | unlock k reached => exact query_shift h (.unlock k reached)
  | refill k again => exact query_shift h (.refill k again)
  | abort k => exact query_shift h (.abort k)

end steps

/-! ## What a shift keeps -/

section shifts

variable {C : EnvelopeCodec ρ} {s s' : Shop ρ}

/-- The copies after a task became another. -/
theorem holds_of_task {k : ℕ} {t : Option (Task ρ)} (ht : Tame C s k t) {k' : ℕ}
    {token e : String} {v : Option ρ}
    (h : Function.update s.tasks k t k' = some (.loaded token e v)) :
    s.Holds C e v ∨ v = s.row := by
  rcases entry_of_write h with ⟨-, rfl⟩ | ⟨-, hold⟩
  · exact ht.copy token e v rfl
  · exact .inl (.inr ⟨k', token, hold⟩)

/-- The epochs that readers saw after a task became another. -/
theorem seen_of_task {k : ℕ} {t : Option (Task ρ)} (ht : Tame C s k t) {k' : ℕ} {t' : Task ρ}
    {e : String} (h : Function.update s.tasks k t k' = some t') (he : t'.epoch = some e) :
    s.Seen C e := by
  rcases entry_of_write h with ⟨-, rfl⟩ | ⟨-, hold⟩
  · exact ht.epoch t' e rfl he
  · exact .inr (.inr ⟨k', t', hold, he⟩)

/-- The task of a turn holds no copy and saw no epoch, or it is tame. -/
theorem turn_tame {k : ℕ} {t : Option (Task ρ)}
    (ht : Tame C s k t ∨ ∃ g, s.tasks k = some (.recovering g) ∧ t = some (.invalidated g)) :
    (∀ t' e, t = some t' → t'.epoch = some e → s.Seen C e) ∧
    (∀ token e v, t = some (.loaded token e v) → s.Holds C e v ∨ v = s.row) := by
  rcases ht with ht | ⟨g, -, rfl⟩
  · exact ⟨ht.epoch, ht.copy⟩
  · refine ⟨fun t' e ht' he => ?_, nofun⟩
    obtain rfl := Option.some.inj ht'
    cases he

/-- **The copies of a shift**: copies from before, and copies of the row. -/
theorem Shift.holds (h : Shift C s s') {e : String} {v : Option ρ} (hv : s'.Holds C e v) :
    s.Holds C e v ∨ v = s.row := by
  cases h with
  | work ht htasks _ hdata _ _ _ =>
    rcases hv with hv | ⟨k', token, hk'⟩
    · rcases hdata with hsame | hnone | ⟨e', v', hholds, hnew⟩
      · exact .inl (.inl (hsame ▸ hv))
      · rw [hnone] at hv
        cases hv
      · obtain ⟨rfl, rfl⟩ := envelope_injective (Option.some.inj (hnew.symm.trans hv))
        exact .inl hholds
    · rw [htasks] at hk'
      exact holds_of_task ht hk'
  | @turn k t _ ht htasks _ _ hdata _ =>
    rcases hv with hv | ⟨k', token, hk'⟩
    · rcases hdata with hsame | hnone
      · exact .inl (.inl (hsame ▸ hv))
      · rw [hnone] at hv
        cases hv
    · rw [htasks] at hk'
      rcases entry_of_write hk' with ⟨-, rfl⟩ | ⟨-, hold⟩
      · exact (turn_tame ht).2 token e v rfl
      · exact .inl (.inr ⟨k', token, hold⟩)
  | commit _ hcommit =>
    subst hcommit
    rcases hv with hv | ⟨k', token, hk'⟩
    · exact .inl (.inl hv)
    · rcases entry_of_write hk' with ⟨-, hnone⟩ | ⟨-, hold⟩
      · cases hnone
      · exact .inl (.inr ⟨k', token, hold⟩)
  | settle _ hsettle =>
    subst hsettle
    rcases hv with hv | ⟨k', token, hk'⟩
    · exact .inl (.inl hv)
    · rcases entry_of_write hk' with ⟨-, hnone⟩ | ⟨-, hold⟩
      · cases hnone
      · exact .inl (.inr ⟨k', token, hold⟩)

/-- **The epochs of a shift**: epochs from before, and the current one. -/
theorem Shift.seen_or (h : Shift C s s') {e : String}
    (he : (∃ v, s'.redis.get .data = some (C.render (envelope e v))) ∨
      ∃ k t, s'.tasks k = some t ∧ t.epoch = some e) : s.Seen C e := by
  rcases he with ⟨v, hv⟩ | ⟨k', t', hk', he⟩
  · cases h with
    | work _ _ _ hdata _ _ _ =>
      rcases hdata with hsame | hnone | ⟨e', v', hholds, hnew⟩
      · exact .inr (.inl ⟨v, hsame ▸ hv⟩)
      · rw [hnone] at hv
        cases hv
      · obtain ⟨rfl, rfl⟩ := envelope_injective (Option.some.inj (hnew.symm.trans hv))
        exact hholds.seen
    | turn _ _ _ _ hdata _ =>
      rcases hdata with hsame | hnone
      · exact .inr (.inl ⟨v, hsame ▸ hv⟩)
      · rw [hnone] at hv
        cases hv
    | commit _ hcommit =>
      subst hcommit
      exact .inr (.inl ⟨v, hv⟩)
    | settle _ hsettle =>
      subst hsettle
      exact .inr (.inl ⟨v, hv⟩)
  · cases h with
    | work ht htasks _ _ _ _ _ =>
      rw [htasks] at hk'
      exact seen_of_task ht hk' he
    | turn ht htasks _ _ _ _ =>
      rw [htasks] at hk'
      rcases entry_of_write hk' with ⟨-, rfl⟩ | ⟨-, hold⟩
      · exact (turn_tame ht).1 t' e rfl he
      · exact .inr (.inr ⟨k', t', hold, he⟩)
    | commit _ hcommit =>
      subst hcommit
      rcases entry_of_write hk' with ⟨-, ht'⟩ | ⟨-, hold⟩
      · obtain rfl := Option.some.inj ht'
        cases he
      · exact .inr (.inr ⟨k', t', hold, he⟩)
    | settle _ hsettle =>
      subst hsettle
      rcases entry_of_write hk' with ⟨-, ht'⟩ | ⟨-, hold⟩
      · cases ht'
      · exact .inr (.inr ⟨k', t', hold, he⟩)

/-- The epochs that are seen after a shift were seen before, but for the current one. -/
theorem Shift.seen (h : Shift C s s') {e : String} (he : s'.Seen C e) :
    s.Seen C e ∨ e = s'.epoch :=
  he.elim .inr fun he => .inl (h.seen_or he)

/-- The epoch of a copy was seen before the shift. -/
theorem Shift.seen_of_holds (h : Shift C s s') {e : String} {v : Option ρ} (hv : s'.Holds C e v) :
    s.Seen C e :=
  h.seen_or (hv.imp (fun hdata => ⟨v, hdata⟩) fun ⟨k, _, hk⟩ => ⟨k, _, hk, rfl⟩)

/-- **The answers of a shift**: answers from before, and copies of the current epoch. -/
theorem Shift.result (h : Shift C s s') {k : ℕ} {t : Task ρ} {v : Option ρ}
    (hk : s'.tasks k = some t) (hv : t.result = some v) :
    s.Holds C s.epoch v ∨ ∃ t₀, s.tasks k = some t₀ ∧ t₀.result = some v := by
  have htame : ∀ {k' : ℕ} {t' : Option (Task ρ)}, Tame C s k' t' →
      Function.update s.tasks k' t' k = some t →
      s.Holds C s.epoch v ∨ ∃ t₀, s.tasks k = some t₀ ∧ t₀.result = some v := by
    intro k' t' ht hk
    rcases entry_of_write hk with ⟨rfl, rfl⟩ | ⟨-, hold⟩
    · exact ht.result t v rfl hv
    · exact .inr ⟨t, hold, hv⟩
  cases h with
  | work ht htasks _ _ _ _ _ => exact htame ht (htasks ▸ hk)
  | turn ht htasks _ _ _ _ =>
    rcases ht with ht | ⟨g, -, rfl⟩
    · exact htame ht (htasks ▸ hk)
    · rw [htasks] at hk
      rcases entry_of_write hk with ⟨-, ht'⟩ | ⟨-, hold⟩
      · obtain rfl := Option.some.inj ht'
        cases hv
      · exact .inr ⟨t, hold, hv⟩
  | commit _ hcommit =>
    subst hcommit
    rcases entry_of_write hk with ⟨-, ht'⟩ | ⟨-, hold⟩
    · obtain rfl := Option.some.inj ht'
      cases hv
    · exact .inr ⟨t, hold, hv⟩
  | settle _ hsettle =>
    subst hsettle
    rcases entry_of_write hk with ⟨-, ht'⟩ | ⟨-, hold⟩
    · cases ht'
    · exact .inr ⟨t, hold, hv⟩

/-- The epoch of a turn was seen by nobody. -/
theorem Known.unseen (h : Known C s) {new : String}
    (hnew : (new ∉ s.drawn ∧ s'.strays = s.strays ∧ s'.drawn = insert new s.drawn) ∨
      (new ∈ s.strays ∧ s'.strays = s.strays.erase new ∧ s'.drawn = s.drawn)) : ¬ s.Seen C new :=
  hnew.elim (fun hfresh hseen => hfresh.1 (h.seen new hseen)) fun hstray => (h.strays new hstray.1).2

/-- What was drawn stays so. -/
theorem Shift.drawn_subset (h : Shift C s s') : s.drawn ⊆ s'.drawn := by
  cases h with
  | work _ _ _ _ _ hdrawn _ => exact hdrawn
  | turn _ _ _ hnew _ _ =>
    rcases hnew with ⟨-, -, hdrawn⟩ | ⟨-, -, hdrawn⟩
    · rw [hdrawn]
      exact Finset.subset_insert _ _
    · rw [hdrawn]
  | commit _ hcommit =>
    subst hcommit
    exact Finset.subset_insert _ _
  | settle _ hsettle =>
    subst hsettle
    exact subset_rfl

/-- The generations of the outbox and of the workers stay drawn. -/
theorem Known.generations (h : Known C s) (hshift : Shift C s s') :
    (∀ e, s'.outbox = some e → e.generation ∈ s'.drawn) ∧
    ∀ k t g, s'.tasks k = some t → t.generation = some g → g ∈ s'.drawn := by
  have hsub := hshift.drawn_subset
  have hentry : ∀ e, s'.outbox.map Invalidation.generation =
      s.outbox.map Invalidation.generation → s'.outbox = some e → e.generation ∈ s.drawn := by
    intro e hsame he
    rw [he, Option.map_some, eq_comm, Option.map_eq_some_iff] at hsame
    obtain ⟨e₀, he₀, hg⟩ := hsame
    exact hg ▸ h.entry e₀ he₀
  have htask : ∀ {k : ℕ} {t : Option (Task ρ)}, Tame C s k t → ∀ k' t' g,
      Function.update s.tasks k t k' = some t' → t'.generation = some g → g ∈ s.drawn := by
    intro k t ht k' t' g hk' hg
    rcases entry_of_write hk' with ⟨-, rfl⟩ | ⟨-, hold⟩
    · rcases ht.generation t' g rfl hg with ⟨t₀, ht₀, hg₀⟩ | ⟨e, he, rfl⟩
      · exact h.claimed _ t₀ g ht₀ hg₀
      · exact h.entry e he
    · exact h.claimed k' t' g hold hg
  cases hshift with
  | work ht htasks _ _ hdb _ _ =>
    refine ⟨fun e he => hsub (hentry e hdb.2.2 he), fun k' t' g hk' hg => hsub ?_⟩
    rw [htasks] at hk'
    exact htask ht k' t' g hk' hg
  | turn ht htasks _ _ _ hdb =>
    refine ⟨fun e he => hsub (hentry e hdb.2.2 he), fun k' t' g hk' hg => hsub ?_⟩
    rw [htasks] at hk'
    rcases ht with ht | ⟨g₀, hk, rfl⟩
    · exact htask ht k' t' g hk' hg
    · rcases entry_of_write hk' with ⟨-, ht'⟩ | ⟨-, hold⟩
      · obtain rfl := Option.some.inj ht'
        obtain rfl := Option.some.inj hg
        exact h.claimed _ _ _ hk rfl
      · exact h.claimed k' t' g hold hg
  | commit _ hcommit =>
    subst hcommit
    refine ⟨fun e he => ?_, fun k' t' g hk' hg => hsub ?_⟩
    · obtain rfl := Option.some.inj he
      exact Finset.mem_insert_self _ _
    · rcases entry_of_write hk' with ⟨-, ht'⟩ | ⟨-, hold⟩
      · obtain rfl := Option.some.inj ht'
        cases hg
      · exact h.claimed k' t' g hold hg
  | settle _ hsettle =>
    subst hsettle
    refine ⟨fun e he => ?_, fun k' t' g hk' hg => ?_⟩
    · exact h.entry e (Option.filter_eq_some_iff.mp he).1
    · rcases entry_of_write hk' with ⟨-, ht'⟩ | ⟨-, hold⟩
      · cases ht'
      · exact h.claimed k' t' g hold hg

/-- **Every shift keeps what is in use drawn.** -/
theorem Known.shift (h : Known C s) (hshift : Shift C s s') : Known C s' := by
  obtain ⟨hentry, hclaimed⟩ := h.generations hshift
  have hsub := hshift.drawn_subset
  have hdata : s'.redis.get .data = s.redis.get .data ∨ s'.redis.get .data = none ∨
      ∃ e v, s'.redis.get .data = some (C.render (envelope e v)) := by
    cases hshift with
    | work _ _ _ hdata _ _ _ => exact hdata.imp_right (.imp_right fun ⟨e, v, _, hv⟩ => ⟨e, v, hv⟩)
    | turn _ _ _ _ hdata _ => exact hdata.imp_right .inl
    | commit _ hcommit => exact .inl (by rw [hcommit]; rfl)
    | settle _ hsettle => exact .inl (by rw [hsettle]; rfl)
  have hrendered : ∀ raw, s'.redis.get .data = some raw → ∃ e v, raw = C.render (envelope e v) := by
    intro raw hraw
    rcases hdata with hsame | hnone | ⟨e, v, hnew⟩
    · exact h.rendered raw (hsame ▸ hraw)
    · rw [hnone] at hraw
      cases hraw
    · exact ⟨e, v, Option.some.inj (hraw.symm.trans hnew)⟩
  have hsame : s'.redis .epoch = s.redis .epoch → s'.epoch = s.epoch := fun hepoch =>
    congrArg (·.getD "") (Keyspace.get_congr hepoch)
  have hcurrent : s.Seen C s.epoch := .inl rfl
  have hold : ∀ e, s'.Seen C e → s.Seen C e ∨ e = s'.epoch := fun e he => hshift.seen he
  have hkept : s'.redis .epoch = s.redis .epoch → ∀ e, s'.Seen C e → s.Seen C e :=
    fun hepoch e he => (hold e he).elim id fun heq => by rwa [heq, hsame hepoch]
  refine ⟨?_, hrendered, ?_, hentry, hclaimed, ?_⟩
  · cases hshift with
    | work _ _ hepoch _ _ _ _ => exact (Keyspace.ttl_congr hepoch).trans h.persistent
    | turn _ _ hepoch _ _ _ => rw [Keyspace.ttl, hepoch]; rfl
    | commit _ hcommit => exact hcommit ▸ h.persistent
    | settle _ hsettle => exact hsettle ▸ h.persistent
  · intro e he
    rcases hold e he with he | rfl
    · exact hsub (h.seen e he)
    · cases hshift with
      | work _ _ hepoch _ _ _ _ => exact hsub (hsame hepoch ▸ h.seen _ hcurrent)
      | turn _ _ hepoch hnew _ _ =>
        rw [Shop.epoch, Keyspace.get, hepoch]
        rcases hnew with ⟨-, -, hdrawn⟩ | ⟨hmem, -, hdrawn⟩
        · rw [hdrawn]
          exact Finset.mem_insert_self _ _
        · rw [hdrawn]
          exact (h.strays _ hmem).1
      | commit _ hcommit => exact hsub (hcommit ▸ h.seen _ hcurrent)
      | settle _ hsettle => exact hsub (hsettle ▸ h.seen _ hcurrent)
  · intro e he
    cases hshift with
    | work _ _ hepoch _ _ _ hstrays =>
      rcases hstrays e he with he | ⟨hfresh, hdrawn⟩
      · exact ⟨hsub (h.strays e he).1, fun hseen => (h.strays e he).2 (hkept hepoch e hseen)⟩
      · exact ⟨hdrawn, fun hseen => hfresh (h.seen e (hkept hepoch e hseen))⟩
    | @turn _ _ new _ _ hepoch hnew _ _ =>
      have hmem : e ∈ s.strays ∧ e ≠ new := by
        rcases hnew with ⟨hfresh, hstrays, -⟩ | ⟨-, hstrays, -⟩
        · rw [hstrays] at he
          exact ⟨he, fun heq => hfresh (heq ▸ (h.strays e he).1)⟩
        · rw [hstrays] at he
          exact ⟨Finset.mem_of_mem_erase he, Finset.ne_of_mem_erase he⟩
      refine ⟨hsub (h.strays e hmem.1).1, fun hseen => ?_⟩
      rcases hold e hseen with hseen | heq
      · exact (h.strays e hmem.1).2 hseen
      · rw [Shop.epoch, Keyspace.get, hepoch] at heq
        exact hmem.2 heq
    | commit _ hcommit =>
      subst hcommit
      exact ⟨hsub (h.strays e he).1, fun hseen => (h.strays e he).2 (hkept rfl e hseen)⟩
    | settle _ hsettle =>
      subst hsettle
      exact ⟨hsub (h.strays e he).1, fun hseen => (h.strays e he).2 (hkept rfl e hseen)⟩

end shifts

end CampusHub.ShopCache
