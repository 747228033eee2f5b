import CampusHub.Foundations.Maps
import Mathlib.Data.Set.Insert

/-!
# Messages in custody

A queue gives entries to workers. An entry is finished with once its message is done, or its message
is filed as a letter for review, and a letter can be put back into the queue.

* `Custody` — what is accepted, done, queued, filed and put back.
* `Step` — what can happen to it.
* `Covered` — no accepted message is lost; `Covered.step` keeps it.
* `Single` — a message is in one place at most; `Single.step` keeps it while every letter that is put
  back is noted.
* `existsUnique_place` — a message that is not done is in exactly one place.

Two statements, with different needs. That no message is lost (`Covered.step`) holds for whatever the
operators do with the letters. That no message is in two places (`Single.step`) holds as long as every
letter that is put back is noted under its own name: a letter that is put back under another name can be put
back again. `existsUnique_place` puts both together for a message that is not done.

**Proof route.** `Step` lists what can happen, and both theorems go through its cases; `single_put` and
`Holds.of_put` say what an added entry can change about where a message is.

**Not here.** The queue itself, who holds its entries, and how often an entry is given out. An entry is open
or not, and the users say when.
-/

namespace CampusHub.Foundations

open CampusHub.Foundations.Maps

/-- The messages `μ` of a queue with entries `ι` and letters `δ`. `queued` and `filed` give the message
of an open entry and of a letter, `index` the letter a message was filed under last. -/
@[ext] structure Custody (μ ι δ : Type) where
  accepted : Set μ
  done : Set μ
  queued : ι → Option μ
  filed : δ → Option μ
  index : μ → δ → Prop
  replayed : Set δ

namespace Custody

variable {μ ι δ : Type}

/-- Where a message can be. -/
inductive Place (ι δ : Type) where
  | entry (i : ι)
  | letter (l : δ)

/-- The message is there: in an open entry, or in the letter of its index, not put back. -/
def Holds (s : Custody μ ι δ) (m : μ) : Place ι δ → Prop
  | .entry i => s.queued i = some m
  | .letter l => s.index m l ∧ l ∉ s.replayed

variable [DecidableEq μ] [DecidableEq ι] [DecidableEq δ]

/-- **What can happen.** `noted` says that a letter which is put back is noted as such. -/
inductive Step (noted : Prop) (s : Custody μ ι δ) : Custody μ ι δ → Prop
  | rest {done : Set μ} (hdone : s.done ⊆ done) : Step noted s { s with done := done }
  | accept {m : μ} {i : ι} (hnew : m ∉ s.accepted) (hslot : s.queued i = none) :
      Step noted s { s with
        accepted := insert m s.accepted
        queued := Function.update s.queued i (some m) }
  /-- The message of the entry is done. -/
  | finish {m : μ} {i : ι} (hqueued : s.queued i = some m) (hdone : m ∈ s.done) :
      Step noted s { s with queued := Function.update s.queued i none }
  /-- The message of the entry is filed. -/
  | file {m : μ} {i : ι} {l : δ} (hqueued : s.queued i = some m) (hfresh : s.filed l = none)
      (hreplayed : l ∉ s.replayed) :
      Step noted s { s with
        queued := Function.update s.queued i none
        filed := Function.update s.filed l (some m)
        index := Function.update s.index m (· = l) }
  /-- The message of the letter is put back. -/
  | replay {m : μ} {i : ι} {l : δ} (hfiled : s.filed l = some m) (hreplayed : l ∉ s.replayed)
      (hslot : s.queued i = none) :
      Step noted s { s with
        queued := Function.update s.queued i (some m)
        replayed := insert l s.replayed }
  /-- The message of the letter is put back, and that is not noted. -/
  | astray {m : μ} {i : ι} {l : δ} (hfiled : s.filed l = some m) (hslot : s.queued i = none)
      (hnoted : ¬ noted) : Step noted s { s with queued := Function.update s.queued i (some m) }

/-- **No accepted message is lost.** -/
structure Covered (s : Custody μ ι δ) : Prop where
  filed : ∀ m l, s.index m l → s.filed l = some m
  covered : ∀ m ∈ s.accepted, m ∈ s.done ∨ ∃ p, s.Holds m p

/-- **A message is in one place at most.** -/
structure Single (s : Custody μ ι δ) : Prop where
  queued : ∀ i m, s.queued i = some m → m ∈ s.accepted
  filed : ∀ l m, s.filed l = some m → m ∈ s.accepted
  latest : ∀ l m, s.filed l = some m → l ∉ s.replayed → s.index m l
  single : ∀ m p q, s.Holds m p → s.Holds m q → p = q

/-! ## Places -/

section places

variable {μ ι δ : Type} {s : Custody μ ι δ}

/-- What holds a message still holds it when only entries are added. -/
theorem Holds.put [DecidableEq ι] {i : ι} {m : μ} {p : Place ι δ} (hslot : s.queued i = none) {m' : μ}
    (h : s.Holds m p) :
    Holds { s with queued := Function.update s.queued i (some m') } m p := by
  cases p with
  | entry j =>
    show Function.update s.queued i (some m') j = some m
    rw [Function.update_of_ne, h]
    rintro rfl
    rw [show s.queued j = some m from h] at hslot
    cases hslot
  | letter l => exact h

/-- What holds a message after an entry was added. -/
theorem Holds.of_put [DecidableEq ι] {i : ι} {m m' : μ} {p : Place ι δ}
    (h : Holds { s with queued := Function.update s.queued i (some m) } m' p) :
    p = .entry i ∧ m' = m ∨ s.Holds m' p := by
  cases p with
  | entry j =>
    rcases entry_of_update h with ⟨rfl, rfl⟩ | ⟨-, hold⟩
    · exact .inl ⟨rfl, rfl⟩
    · exact .inr hold
  | letter l => exact .inr h

/-- A message that is nowhere is put in an entry, and it is there only. -/
theorem single_put [DecidableEq ι] (hone : ∀ m p q, s.Holds m p → s.Holds m q → p = q) {i : ι}
    {m : μ} (hnowhere : ∀ p, ¬ s.Holds m p) (m' : μ) (p q : Place ι δ)
    (hp : Holds { s with queued := Function.update s.queued i (some m) } m' p)
    (hq : Holds { s with queued := Function.update s.queued i (some m) } m' q) : p = q := by
  rcases hp.of_put with ⟨rfl, rfl⟩ | hold
  · rcases hq.of_put with ⟨rfl, -⟩ | hold
    · rfl
    · exact absurd hold (hnowhere q)
  · rcases hq.of_put with ⟨rfl, rfl⟩ | hold'
    · exact absurd hold (hnowhere p)
    · exact hone m' p q hold hold'

/-- A message that was not accepted is nowhere. -/
theorem Single.not_holds (h : Single s) (hc : Covered s) {m : μ} (hm : m ∉ s.accepted)
    (p : Place ι δ) : ¬ s.Holds m p := by
  cases p with
  | entry i => exact fun hp => hm (h.queued i m hp)
  | letter l => exact fun hp => hm (h.filed l m (hc.filed m l hp.1))

/-- **A message that is not done is in exactly one place.** -/
theorem existsUnique_place (hc : Covered s) (hs : Single s) {m : μ} (hm : m ∈ s.accepted)
    (hdone : m ∉ s.done) : ∃! p, s.Holds m p := by
  obtain ⟨p, hp⟩ := (hc.covered m hm).resolve_left hdone
  exact ⟨p, hp, fun q hq => hs.single m q p hq hp⟩

end places

/-! ## Steps -/

section steps

variable {μ ι δ : Type} [DecidableEq μ] [DecidableEq ι] [DecidableEq δ] {noted : Prop}
  {s t : Custody μ ι δ}

/-- **Every step keeps the accepted messages covered.** -/
theorem Covered.step (h : Covered s) (hstep : Step noted s t) : Covered t := by
  cases hstep with
  | rest hdone => exact ⟨h.filed, fun m hm => (h.covered m hm).imp_left fun hm => hdone hm⟩
  | @accept m i hnew hslot =>
    refine ⟨h.filed, fun m' hm' => ?_⟩
    rcases hm' with rfl | hm'
    · exact .inr ⟨.entry i, Function.update_self ..⟩
    · exact (h.covered m' hm').imp_right fun ⟨p, hp⟩ => ⟨p, hp.put hslot⟩
  | @finish m i hqueued hdone =>
    refine ⟨h.filed, fun m' hm' => ?_⟩
    rcases h.covered m' hm' with hm' | ⟨p, hp⟩
    · exact .inl hm'
    · cases p with
      | entry j =>
        by_cases hj : j = i
        · subst hj
          have hsame : m' = m := Option.some.inj ((show s.queued j = some m' from hp).symm.trans hqueued)
          exact .inl (hsame ▸ hdone)
        · exact .inr ⟨.entry j, (Function.update_of_ne hj ..).trans hp⟩
      | letter l => exact .inr ⟨.letter l, hp⟩
  | @file m i l hqueued hfresh hreplayed =>
    refine ⟨fun m' l' hl' => ?_, fun m' hm' => ?_⟩
    · dsimp only at hl' ⊢
      by_cases hm : m' = m
      · subst hm
        rw [Function.update_self] at hl'
        rw [hl', Function.update_self]
      · rw [Function.update_of_ne hm] at hl'
        rw [Function.update_of_ne, h.filed m' l' hl']
        rintro rfl
        rw [h.filed m' l' hl'] at hfresh
        cases hfresh
    · by_cases hm : m' = m
      · subst hm
        refine .inr ⟨.letter l, ?_, hreplayed⟩
        show Function.update s.index m' (· = l) m' l
        rw [Function.update_self]
      · refine (h.covered m' hm').imp_right fun ⟨p, hp⟩ => ⟨p, ?_⟩
        cases p with
        | entry j =>
          refine (Function.update_of_ne ?_ ..).trans hp
          rintro rfl
          exact hm (Option.some.inj ((show s.queued j = some m' from hp).symm.trans hqueued))
        | letter l' =>
          refine ⟨?_, hp.2⟩
          show Function.update s.index m (· = l) m' l'
          rw [Function.update_of_ne hm]
          exact hp.1
  | @replay m i l hfiled hreplayed hslot =>
    refine ⟨h.filed, fun m' hm' => (h.covered m' hm').imp_right fun ⟨p, hp⟩ => ?_⟩
    cases p with
    | entry j => exact ⟨.entry j, hp.put (p := .entry j) hslot⟩
    | letter l' =>
      by_cases hl : l' = l
      · subst hl
        have hsame : m' = m := Option.some.inj ((h.filed m' l' hp.1).symm.trans hfiled)
        exact ⟨.entry i, (Function.update_self ..).trans (by rw [hsame])⟩
      · exact ⟨.letter l', hp.1, fun hmem => hmem.elim hl hp.2⟩
  | astray _ hslot _ =>
    exact ⟨h.filed, fun m' hm' => (h.covered m' hm').imp_right fun ⟨p, hp⟩ => ⟨p, hp.put hslot⟩⟩

/-- **Every step keeps each message in one place**, a letter that is put back being noted. -/
theorem Single.step (h : Single s) (hc : Covered s) (hstep : Step True s t) : Single t := by
  cases hstep with
  | rest hdone => exact ⟨h.queued, h.filed, h.latest, h.single⟩
  | @accept m i hnew hslot =>
    refine ⟨fun j m' hj => ?_, fun l m' hl => .inr (h.filed l m' hl), h.latest,
      single_put h.single (h.not_holds hc hnew)⟩
    rcases entry_of_update hj with ⟨-, rfl⟩ | ⟨-, hold⟩
    · exact .inl rfl
    · exact .inr (h.queued j m' hold)
  | @finish m i hqueued hdone =>
    have hold : ∀ m' p, Holds { s with queued := Function.update s.queued i none } m' p →
        s.Holds m' p := by
      rintro m' (j | l) hp
      · exact (entry_of_erase hp).2
      · exact hp
    exact ⟨fun j m' hj => h.queued j m' (entry_of_erase hj).2, h.filed, h.latest,
      fun m' p q hp hq => h.single m' p q (hold m' p hp) (hold m' q hq)⟩
  | @file m i l hqueued hfresh hreplayed =>
    have hentry : ∀ j, s.queued j = some m → j = i := fun j hj => by
      have hplace : Place.entry j = .entry i := h.single m _ _ hj hqueued
      cases hplace
      rfl
    refine ⟨fun j m' hj => h.queued j m' (entry_of_erase hj).2, fun l' m' hl => ?_,
      fun l' m' hl hmem => ?_, ?_⟩
    · rcases entry_of_update hl with ⟨-, rfl⟩ | ⟨-, hold⟩
      · exact h.queued i _ hqueued
      · exact h.filed l' m' hold
    · show Function.update s.index m (· = l) m' l'
      rcases entry_of_update hl with ⟨rfl, rfl⟩ | ⟨-, hold⟩
      · rw [Function.update_self]
      · have hindex := h.latest l' m' hold hmem
        rw [Function.update_of_ne]
        · exact hindex
        · rintro rfl
          cases h.single m' (.letter l') (.entry i) ⟨hindex, hmem⟩ hqueued
    · have hplace : ∀ m' p, Holds { s with
          queued := Function.update s.queued i none
          filed := Function.update s.filed l (some m)
          index := Function.update s.index m (· = l) } m' p →
          m' = m ∧ p = .letter l ∨ m' ≠ m ∧ s.Holds m' p := by
        rintro m' (j | l') hp
        · obtain ⟨hne, hold⟩ := entry_of_erase hp
          refine .inr ⟨?_, hold⟩
          rintro rfl
          exact hne (hentry j hold)
        · obtain ⟨hindex, hmem⟩ := hp
          by_cases hm : m' = m
          · subst hm
            replace hindex : Function.update s.index m' (· = l) m' l' := hindex
            rw [Function.update_self] at hindex
            exact .inl ⟨rfl, by rw [hindex]⟩
          · replace hindex : Function.update s.index m (· = l) m' l' := hindex
            rw [Function.update_of_ne hm] at hindex
            exact .inr ⟨hm, hindex, hmem⟩
      intro m' p q hp hq
      rcases hplace m' p hp with ⟨rfl, rfl⟩ | ⟨hne, hold⟩
      · rcases hplace m' q hq with ⟨-, rfl⟩ | ⟨hne, -⟩
        · rfl
        · exact absurd rfl hne
      · rcases hplace m' q hq with ⟨heq, -⟩ | ⟨-, hold'⟩
        · exact absurd heq hne
        · exact h.single m' p q hold hold'
  | @replay m i l hfiled hreplayed hslot =>
    have hletter : s.Holds m (.letter l) := ⟨h.latest l m hfiled hreplayed, hreplayed⟩
    have hold : ∀ m' p, Holds { s with replayed := insert l s.replayed } m' p →
        s.Holds m' p ∧ p ≠ .letter l := by
      rintro m' (j | l') hp
      · exact ⟨hp, nofun⟩
      · refine ⟨⟨hp.1, fun hmem => hp.2 (.inr hmem)⟩, ?_⟩
        rintro ⟨⟩
        exact hp.2 (.inl rfl)
    refine ⟨fun j m' hj => ?_, h.filed, fun l' m' hl hmem =>
      h.latest l' m' hl fun hmem' => hmem (.inr hmem'), ?_⟩
    · rcases entry_of_update hj with ⟨-, rfl⟩ | ⟨-, hold⟩
      · exact h.filed l m' hfiled
      · exact h.queued j m' hold
    · refine single_put (s := { s with replayed := insert l s.replayed })
        (fun m' p q hp hq => h.single m' p q (hold m' p hp).1 (hold m' q hq).1) fun p hp => ?_
      exact (hold m p hp).2 (h.single m p _ (hold m p hp).1 hletter)
  | astray _ _ hnoted => exact absurd trivial hnoted

end steps

end Custody

end CampusHub.Foundations
