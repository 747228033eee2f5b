import CampusHub.ShopCache.Shifts

/-!
# The cache is current, and reads do not go back

* `Settled` — without a row in the outbox, what the cache may answer is the row of the shop.
* `cache_current` — so it is in every world that a run reaches.
* `Fenced` — what the cache may answer is not older than a given write.
* `read_includes_write` — a read that starts after an invalidation answers no older row.

**Theorem** (`cache_current`). In every world that a run with fresh UUIDs reaches, if the outbox has no row
for a shop, then an entry of the current epoch is the envelope of the committed row, or of its absence.

**Theorem** (`read_includes_write`). After an invalidation has turned the epoch of a shop, a query that
starts later answers the row that was committed at the time of the turn, or a later one.

**Proof route.** Both speak of what the cache may answer: the copies of the current epoch. A shift that
turns the epoch leaves none of them (`Shift.current_turn`), any other one at most adds copies of the row
(`Shift.current_copy`), which is the fence of `Foundations.Fence`. `Settled` and `Fenced` are two invariants
of this form, and differ in what they ask of a copy.

**Left out.** How long an outbox row may stay: while one is there, the cache may answer the old row.
-/

namespace CampusHub.ShopCache

open CampusHub.Redis CampusHub.Domain CampusHub.Foundations CampusHub.Foundations.Maps

variable {ρ : Type} {C : EnvelopeCodec ρ}

/-! ## A shift and the fence -/

section fences

variable {s s' : Shop ρ} {P : Option ρ → Prop}

/-- The epoch is read off its key. -/
theorem epoch_congr (h : s'.redis .epoch = s.redis .epoch) : s'.epoch = s.epoch :=
  congrArg (·.getD "") (Keyspace.get_congr h)

/-- A shift that does not turn the epoch keeps what the cache may answer, copies of the row apart. -/
theorem Shift.current_copy (h : Shift C s s') (hepoch : s'.epoch = s.epoch)
    (hcurrent : (s.fence C).Current P) (hrow : P s.row) : (s'.fence C).Current P := by
  refine hcurrent.copy hepoch fun e v hv => (h.holds hv).imp_right ?_
  rintro (rfl : v = s.row)
  exact hrow

/-- After a turn the cache answers nothing. -/
theorem Shift.current_turn (h : Shift C s s') (hnew : ¬ s.Seen C s'.epoch) :
    (s'.fence C).Current P :=
  Fence.current_turn {e | s.Seen C e} (fun _ _ hv => h.seen_of_holds hv) hnew

/-- **A shift keeps what the cache may answer**, as far as it holds of the row. -/
theorem Shift.current (h : Shift C s s') (hknown : Known C s) (hcurrent : (s.fence C).Current P)
    (hrow : P s.row) : (s'.fence C).Current P := by
  have hshift := h
  cases h with
  | work _ _ hepoch _ _ _ _ => exact hshift.current_copy (epoch_congr hepoch) hcurrent hrow
  | turn _ _ hepoch hnew _ _ =>
    refine hshift.current_turn ?_
    rw [Shop.epoch, Keyspace.get, hepoch]
    exact hknown.unseen hnew
  | commit _ hcommit => exact hshift.current_copy (by rw [hcommit]; rfl) hcurrent hrow
  | settle _ hsettle => exact hshift.current_copy (by rw [hsettle]; rfl) hcurrent hrow

end fences

/-! ## The cache is current -/

/-- **Without a row in the outbox the cache may answer only the row of the shop**, and so it is when
a worker has invalidated for the generation that is there. -/
structure Settled (C : EnvelopeCodec ρ) (s : Shop ρ) : Prop where
  known : Known C s
  clear : s.outbox = none → (s.fence C).Current (· = s.row)
  confirmed : ∀ k g entry, s.tasks k = some (.invalidated g) → s.outbox = some entry →
    entry.generation = g → (s.fence C).Current (· = s.row)

/-- **Every shift keeps a shop settled.** -/
theorem Settled.shift {s s' : Shop ρ} (h : Settled C s) (hshift : Shift C s s') : Settled C s' := by
  have hcurrent : (s.fence C).Current (· = s.row) → (s'.fence C).Current (· = s.row) := fun hc =>
    hshift.current h.known hc rfl
  have hturned : ¬ s.Seen C s'.epoch → (s'.fence C).Current (· = s'.row) := fun hnew =>
    hshift.current_turn hnew
  have hknown := h.known.shift hshift
  cases hshift with
  | @work k t ht htasks _ _ hdb _ _ =>
    obtain ⟨hrow, -, houtbox⟩ := hdb
    refine ⟨hknown, fun hnone => ?_, fun k' g entry hk' hentry hg => ?_⟩
    · rw [hnone, Option.map_none, eq_comm, Option.map_eq_none_iff] at houtbox
      rw [hrow]
      exact hcurrent (h.clear houtbox)
    · rw [hentry, Option.map_some, eq_comm, Option.map_eq_some_iff] at houtbox
      obtain ⟨entry₀, hentry₀, hg₀⟩ := houtbox
      have hold : s.tasks k' = some (.invalidated g) := by
        rw [htasks] at hk'
        rcases entry_of_write hk' with ⟨rfl, ht'⟩ | ⟨-, hold⟩
        · exact ht.confirmed g ht'
        · exact hold
      rw [hrow]
      exact hcurrent (h.confirmed k' g entry₀ hold hentry₀ (hg₀.trans hg))
  | turn _ _ hepoch hnew _ hdb =>
    have hunseen : ¬ s.Seen C s'.epoch := by
      rw [Shop.epoch, Keyspace.get, hepoch]
      exact h.known.unseen hnew
    exact ⟨hknown, fun _ => hturned hunseen, fun _ _ _ _ _ _ => hturned hunseen⟩
  | commit hfresh hcommit =>
    subst hcommit
    refine ⟨hknown, fun hnone => (by cases hnone), fun k' g' entry hk' hentry hg => ?_⟩
    obtain rfl := Option.some.inj hentry
    rcases entry_of_write hk' with ⟨-, ht'⟩ | ⟨-, hold⟩
    · cases ht'
    · exact absurd (h.known.claimed k' _ g' hold rfl) (hg ▸ hfresh)
  | @settle k g hk hsettle =>
    subst hsettle
    refine ⟨hknown, fun hnone => ?_, fun k' g' entry hk' hentry hg => ?_⟩
    · cases hentry : s.outbox with
      | none => exact hcurrent (h.clear hentry)
      | some entry =>
        refine hcurrent (h.confirmed k g entry hk hentry ?_)
        by_contra hne
        simp only [hentry, Option.filter_some, hne, ne_eq, not_false_iff, decide_true,
          if_true] at hnone
        cases hnone
    · rcases entry_of_write hk' with ⟨-, ht'⟩ | ⟨-, hold⟩
      · cases ht'
      · exact hcurrent (h.confirmed k' g' entry hold (Option.filter_eq_some_iff.mp hentry).1 hg)

/-- A shop before its first call is settled. -/
theorem settled_initial (row : Option ρ) (now : ℕ) : Settled C (Shop.initial row now) where
  known := by
    refine ⟨rfl, nofun, fun e he => ?_, nofun, nofun, nofun⟩
    rcases he with rfl | ⟨v, hv⟩ | ⟨k, t, hk, -⟩
    · exact Finset.mem_singleton_self _
    · cases hv
    · cases hk
  clear _ v hv := by
    rcases hv with hv | ⟨k, token, hk⟩
    · cases hv
    · cases hk
  confirmed k g entry hk := by cases hk

/-- An act changes its own shop only. -/
theorem step_apply (w : World ρ) (a : Act ρ) (s : LongId) :
    step C w a s = if s = a.shop then (w a.shop).step C a.act else w s :=
  Function.update_apply ..

/-- **A step of the world is a shift of every shop.** -/
theorem world_shift {w : World ρ} {a : Act ρ} {s : LongId} (hknown : Known C (w s))
    (hfresh : FreshUuids w a) : Shift C (w s) (step C w a s) := by
  rw [step_apply]
  split
  · rename_i hs
    subst hs
    exact step_shift hknown hfresh
  · exact shift_refl

/-- Every run keeps every shop settled. -/
theorem settled_run (rows : LongId → Option ρ) (now : ℕ) {as : List (Act ρ)}
    (hfresh : Runs.Along FreshUuids (step C) (initial rows now) as) (s : LongId) :
    Settled C (Runs.run (step C) (initial rows now) as s) :=
  Runs.run_invariant_of_along (I := fun w : World ρ => Settled C (w s)) _
    (fun _ _ hs hok => hs.shift (world_shift hs.known hok)) as _ (settled_initial (rows s) now) hfresh

/-- **The cache is current whenever no invalidation is pending.** In every world that a run with fresh
UUIDs reaches, if the outbox has no row for a shop, then an entry of its current epoch is the envelope of
its committed row, or of its absence. -/
theorem cache_current (C : EnvelopeCodec ρ) (rows : LongId → Option ρ) (now : ℕ)
    (as : List (Act ρ)) (s : LongId)
    (hfresh : Runs.Along FreshUuids (step C) (initial rows now) as) :
    let shop := Runs.run (step C) (initial rows now) as s
    shop.outbox = none → ∀ raw entry, shop.redis.get .data = some raw → C.parse raw = some entry →
      entry.epoch = shop.epoch → raw = C.render (envelope shop.epoch shop.row) := by
  intro shop hnone raw entry hraw hparse hepoch
  have h : Settled C shop := settled_run rows now hfresh s
  obtain ⟨e, v, rfl⟩ := h.known.rendered raw hraw
  rw [C.parse_render, Option.some.injEq] at hparse
  have he : e = shop.epoch := by rw [← hepoch, ← hparse]; rfl
  rw [he] at hraw ⊢
  rw [show v = shop.row from h.clear hnone v (.inl hraw)]

section refill

/-- A shop. -/
def firstShop : LongId := ⟨1, Nat.one_pos, one_le_longMax⟩

/-- A reader fills the cache. -/
def fill (k : ℕ) (token : String) : List (Act String) :=
  [.query k false, .tryLock k token, .check k, .load k, .publish k 0 .answered, .unlock k true].map
    (Act.mk firstShop)

/-- The name of the shop changes, its writer dies before the callback, and a worker takes the row of
the outbox. -/
def rename : List (Act String) :=
  [.update 0 (fun _ => "Blue") "g", .crash 0, .poll 0, .recover 0 "e" .answered "", .complete 0].map
    (Act.mk firstShop)

/-- What the reader leaves in the cache after the recovery is the envelope of the new row. -/
theorem rename_current :
    ShopName.codec.render (envelope "e" (some "Blue")) =
      let shop := Runs.run (step ShopName.codec) (initial (fun _ => some "Red") 0)
        (rename ++ fill 1 "t") firstShop
      ShopName.codec.render (envelope shop.epoch shop.row) := by
  refine cache_current ShopName.codec (fun _ => some "Red") 0 (rename ++ fill 1 "t") firstShop
    ⟨?_, trivial, trivial, ?_, trivial, trivial, trivial, trivial, trivial, trivial, trivial, trivial⟩
    (by decide +kernel) _ (envelope "e" (some "Blue")) (by decide +kernel)
    (ShopName.codec.parse_render _) (by decide +kernel)
  · show "g" ∉ _
    decide +kernel
  · show "e" ∉ _
    decide +kernel

end refill

/-! ## Reads do not go back -/

/-- The rows that were committed from the `i`-th on. -/
def Shop.Past (s : Shop ρ) (i : ℕ) (v : Option ρ) : Prop := ∃ m, i ≤ m ∧ s.history[m]? = some v

section past

variable {s s' : Shop ρ} {i : ℕ}

/-- The history of a shop only grows. -/
theorem Shift.history (h : Shift C s s') : s.history <+: s'.history := by
  cases h with
  | work _ _ _ _ hdb _ _ => exact hdb.2.1 ▸ List.prefix_rfl
  | turn _ _ _ _ _ hdb => exact hdb.2.1 ▸ List.prefix_rfl
  | commit _ hcommit => exact hcommit ▸ List.prefix_append ..
  | settle _ hsettle => exact hsettle ▸ List.prefix_rfl

/-- The history only grows, so that a row stays where it was. -/
theorem Shop.Past.shift {v : Option ρ} (h : s.Past i v) (hshift : Shift C s s') : s'.Past i v := by
  obtain ⟨m, him, hm⟩ := h
  obtain ⟨later, hlater⟩ := hshift.history
  refine ⟨m, him, ?_⟩
  rw [← hlater, List.getElem?_append_left (List.getElem?_eq_some_iff.mp hm).1, hm]

/-- The row stays among the rows from the `i`-th on. -/
theorem Shift.past_row (h : Shift C s s') (hrow : s.Past i s.row) : s'.Past i s'.row := by
  have hold := hrow.shift h
  cases h with
  | work _ _ _ _ hdb _ _ => exact hdb.1 ▸ hold
  | turn _ _ _ _ _ hdb => exact hdb.1 ▸ hold
  | @commit k row g _ hcommit =>
    subst hcommit
    obtain ⟨m, him, hm⟩ := hrow
    have hlt : m < s.history.length := (List.getElem?_eq_some_iff.mp hm).1
    exact ⟨s.history.length, by omega, List.getElem?_concat_length ..⟩
  | settle _ hsettle => exact hsettle ▸ hold

/-- **A turn makes every copy void.** -/
theorem Shift.current_of_turn (h : Shift C s s') (hknown : Known C s)
    (hepoch : s'.epoch ≠ s.epoch) {P : Option ρ → Prop} : (s'.fence C).Current P := by
  have hshift := h
  cases h with
  | work _ _ hsame _ _ _ _ => exact absurd (epoch_congr hsame) hepoch
  | turn _ _ hturn hnew _ _ =>
    refine hshift.current_turn ?_
    rw [Shop.epoch, Keyspace.get, hturn]
    exact hknown.unseen hnew
  | commit _ hcommit => exact absurd (by rw [hcommit]; rfl) hepoch
  | settle _ hsettle => exact absurd (by rw [hsettle]; rfl) hepoch

end past

/-- **What the cache may answer is not older than the `i`-th committed row.** -/
structure Fenced (C : EnvelopeCodec ρ) (i : ℕ) (s : Shop ρ) : Prop where
  known : Known C s
  row : s.Past i s.row
  current : (s.fence C).Current (s.Past i)

/-- The answer of the task is not older than the `i`-th committed row. -/
def Answered (i k : ℕ) (s : Shop ρ) : Prop :=
  ∀ t v, s.tasks k = some t → t.result = some v → s.Past i v

section fenced

variable {s s' : Shop ρ} {i k : ℕ}

/-- A shift keeps the fence. -/
theorem Fenced.shift (h : Fenced C i s) (hshift : Shift C s s') : Fenced C i s' where
  known := h.known.shift hshift
  row := hshift.past_row h.row
  current := (hshift.current h.known h.current h.row).mono fun _ hv => hv.shift hshift

/-- What a task answers stays, or is behind the fence. -/
theorem Answered.shift (h : Answered i k s) (hfenced : Fenced C i s) (hshift : Shift C s s') :
    Answered i k s' := by
  intro t v hk hv
  rcases hshift.result hk hv with hholds | ⟨t₀, hk₀, hv₀⟩
  · exact (hfenced.current v hholds).shift hshift
  · exact (h t₀ v hk₀ hv₀).shift hshift

end fenced

/-- The row of a shop is the last one of its history. -/
structure Recorded (C : EnvelopeCodec ρ) (s : Shop ρ) : Prop where
  known : Known C s
  last : s.history.getLast? = some s.row

/-- The last row of the history is the row. -/
theorem Recorded.shift {s s' : Shop ρ} (h : Recorded C s) (hshift : Shift C s s') :
    Recorded C s' where
  known := h.known.shift hshift
  last := by
    cases hshift with
    | work _ _ _ _ hdb _ _ => rw [hdb.1, hdb.2.1, h.last]
    | turn _ _ _ _ _ hdb => rw [hdb.1, hdb.2.1, h.last]
    | commit _ hcommit =>
      subst hcommit
      exact List.getLast?_concat
    | settle _ hsettle =>
      subst hsettle
      exact h.last

/-- The row is one of the rows from any of them on. -/
theorem Recorded.past {s : Shop ρ} (h : Recorded C s) {i : ℕ} (hi : i < s.history.length) :
    s.Past i s.row :=
  ⟨s.history.length - 1, by omega, List.getLast?_eq_getElem?.symm.trans h.last⟩

/-- Every run keeps the history. -/
theorem recorded_run (rows : LongId → Option ρ) (now : ℕ) {as : List (Act ρ)}
    (hfresh : Runs.Along FreshUuids (step C) (initial rows now) as) (s : LongId) :
    Recorded C (Runs.run (step C) (initial rows now) as s) :=
  Runs.run_invariant_of_along (I := fun w : World ρ => Recorded C (w s)) _
    (fun _ _ hs hok => hs.shift (world_shift hs.known hok)) as _
    ⟨(settled_initial (rows s) now).known, rfl⟩ hfresh

/-- Every run keeps the fence. -/
theorem fenced_run {w : World ρ} {as : List (Act ρ)} {s : LongId} {i : ℕ}
    (hfresh : Runs.Along FreshUuids (step C) w as) (h : Fenced C i (w s)) :
    Fenced C i (Runs.run (step C) w as s) :=
  Runs.run_invariant_of_along (I := fun w : World ρ => Fenced C i (w s)) _
    (fun _ _ hs hok => hs.shift (world_shift hs.known hok)) as _ h hfresh

/-- A task that starts behind the fence answers nothing older. -/
theorem answered_run {w : World ρ} {as : List (Act ρ)} {s : LongId} {i k : ℕ}
    (hfresh : Runs.Along FreshUuids (step C) w as) (h : Fenced C i (w s))
    (hk : Answered i k (w s)) : Answered i k (Runs.run (step C) w as s) :=
  (Runs.run_invariant_of_along (I := fun w : World ρ => Fenced C i (w s) ∧ Answered i k (w s)) _
    (fun _ _ hs hok =>
      have hshift := world_shift hs.1.known hok
      ⟨hs.1.shift hshift, hs.2.shift hs.1 hshift⟩) as _ ⟨h, hk⟩ hfresh).2

/-- **Reads after an invalidation do not go back.** Once an invalidation turned the epoch of a shop after
its `i`-th row was committed, every query that starts later and returns a value returns the `i`-th row or
a later one. -/
theorem read_includes_write (C : EnvelopeCodec ρ) (rows : LongId → Option ρ) (now : ℕ)
    (before : List (Act ρ)) (turn : Act ρ) (between rest : List (Act ρ)) (s : LongId) (i k : ℕ)
    (v : Option ρ)
    (hfresh : Runs.Along FreshUuids (step C) (initial rows now)
      (before ++ turn :: (between ++ rest))) :
    let w := Runs.run (step C) (initial rows now) before
    let turned := step C w turn
    let started := Runs.run (step C) turned between
    let ended := Runs.run (step C) started rest
    i < (w s).history.length → (turned s).epoch ≠ (w s).epoch → (started s).tasks k = none →
      (ended s).tasks k = some (.returned v) → (ended s).Past i v := by
  intro w turned started ended hi hepoch hstart hend
  obtain ⟨hbefore, hturn, hafter⟩ := (Runs.along_append (step C) before _ _).mp hfresh
  obtain ⟨hbetween, hrest⟩ := (Runs.along_append (step C) between rest _).mp hafter
  have hw : Recorded C (w s) := recorded_run rows now hbefore s
  have hshift : Shift C (w s) (turned s) := world_shift hw.known hturn
  have hturned : Fenced C i (turned s) :=
    ⟨hw.known.shift hshift, hshift.past_row (hw.past hi), hshift.current_of_turn hw.known hepoch⟩
  -- the query is not there yet, so it has not answered anything old
  have hnone : Answered i k (started s) := fun t _ ht _ => by
    rw [hstart] at ht
    cases ht
  exact answered_run hrest (fenced_run hbetween hturned) hnone _ v hend rfl

/-- A reader after the callback, which only turned the epoch, finds the new name though the old one was
in the cache. -/
theorem rename_read :
    let old := Runs.run (step ShopName.codec) (initial (fun _ => some "Red") 0)
      (fill 1 "t" ++ [⟨firstShop, .update 0 (fun _ => "Blue") "g"⟩])
    let turned := step ShopName.codec old ⟨firstShop, .callback 0 "e" (.cut 1)⟩
    (Runs.run (step ShopName.codec) turned (fill 2 "u") firstShop).Past 1 (some "Blue") := by
  refine read_includes_write ShopName.codec (fun _ => some "Red") 0 _ _ [] (fill 2 "u") firstShop 1 2 _
    ⟨trivial, trivial, trivial, trivial, trivial, trivial, ?_, ?_, trivial, trivial, trivial, trivial,
      trivial, trivial, trivial⟩
    (by decide +kernel) (by decide +kernel) (by decide +kernel) (by decide +kernel)
  · show "g" ∉ _
    decide +kernel
  · show "e" ∉ _
    decide +kernel

end CampusHub.ShopCache
