import CampusHub.Foundations.Maps

/-!
# Outboxes

What has to get into a store is first noted where it is decided, as an intent that goes away only after
the store has it.

* `Outbox` — what is due, the intents, and what the store has.
* `Step` — what can happen to them: values become due, are delivered, once or more, and are settled.
* `Sound` — nothing is lost and nothing is invented; `Sound.step` keeps it.
* `Sound.delivered`, `Sound.due` — the store never changes a value, and what is due stays so.

The statement is about two stores with no transaction in common. Whatever is delivered late, twice or not
answered, a key that is due is in the store or has an intent open for it, and what the store has under a key
is the value that became due (`Sound`). A reader of the store can therefore trust what is there, and a
deliverer that goes on as long as intents are open delivers everything.

**Proof route.** `Step` lists what can happen, and `Sound.step` is a case analysis: a delivery writes the
value of the intent or finds it there already, and only what the store has is settled.

**Not here.** When intents are worked off, and by whom: leases, retries and their delays belong to the users
of this module.
-/

namespace CampusHub.Foundations

open CampusHub.Foundations.Maps

/-- What is due under the keys `κ`, what an intent is open for, and what the store has. -/
structure Outbox (κ ν : Type) where
  due : κ → ν → Prop
  intents : κ → Option ν
  delivered : κ → Option ν

namespace Outbox

variable {κ ν : Type} [DecidableEq κ]

/-- **What can happen.** -/
inductive Step (s s' : Outbox κ ν) : Prop where
  /-- New keys become due, each with an intent. -/
  | publish (news : κ → Option ν) (hnew : ∀ k v, news k = some v → ∀ v', ¬ s.due k v')
      (hdue : ∀ k v, s'.due k v ↔ s.due k v ∨ news k = some v)
      (hintents : ∀ k, s'.intents k = (news k).or (s.intents k)) (hdelivered : s'.delivered = s.delivered)
  /-- The store gets what is due; it may have it already. -/
  | deliver {k : κ} {v : ν} (hvalue : s.due k v) (hdue : ∀ k v, s'.due k v ↔ s.due k v)
      (hintents : s'.intents = s.intents)
      (hdelivered : s'.delivered = Function.update s.delivered k (some v))
  /-- An intent goes away that the store has the value of. -/
  | settle {k : κ} {v : ν} (hvalue : s.delivered k = some v) (hdue : ∀ k v, s'.due k v ↔ s.due k v)
      (hintents : s'.intents = Function.update s.intents k none) (hdelivered : s'.delivered = s.delivered)
  /-- Nothing that matters here. -/
  | idle (hdue : ∀ k v, s'.due k v ↔ s.due k v) (hintents : s'.intents = s.intents)
      (hdelivered : s'.delivered = s.delivered)

/-- **Nothing is lost and nothing is invented.** -/
structure Sound (s : Outbox κ ν) : Prop where
  functional : ∀ k v v', s.due k v → s.due k v' → v = v'
  intents : ∀ k v, s.intents k = some v → s.due k v
  delivered : ∀ k v, s.delivered k = some v → s.due k v
  kept : ∀ k v, s.due k v → s.intents k = some v ∨ s.delivered k = some v

variable {s s' : Outbox κ ν}

/-- What is due stays so. -/
theorem Step.due (h : Step s s') {k : κ} {v : ν} (hdue : s.due k v) : s'.due k v := by
  cases h with
  | publish news hnew hdue' hintents hdelivered => exact (hdue' k v).mpr (.inl hdue)
  | deliver hvalue hdue' hintents hdelivered => exact (hdue' k v).mpr hdue
  | settle hvalue hdue' hintents hdelivered => exact (hdue' k v).mpr hdue
  | idle hdue' hintents hdelivered => exact (hdue' k v).mpr hdue

/-- **The store never changes a value.** -/
theorem Sound.delivered_step (h : Sound s) (hstep : Step s s') {k : κ} {v : ν}
    (hv : s.delivered k = some v) : s'.delivered k = some v := by
  cases hstep with
  | publish news hnew hdue hintents hdelivered => rw [hdelivered, hv]
  | @deliver k' v' hvalue hdue hintents hdelivered =>
    rw [hdelivered]
    by_cases hk : k = k'
    · subst hk
      rw [Function.update_self, h.functional k v' v hvalue (h.delivered k v hv)]
    · rw [Function.update_of_ne hk, hv]
  | settle hvalue hdue hintents hdelivered => rw [hdelivered, hv]
  | idle hdue hintents hdelivered => rw [hdelivered, hv]

/-- **Every step keeps it.** -/
theorem Sound.step (h : Sound s) (hstep : Step s s') : Sound s' := by
  have hkept : ∀ {k v}, s.delivered k = some v → s'.delivered k = some v := h.delivered_step hstep
  cases hstep with
  | publish news hnew hdue hintents hdelivered =>
    refine ⟨fun k v v' hv hv' => ?_, fun k v hv => ?_, fun k v hv => ?_, fun k v hv => ?_⟩
    · rcases (hdue k v).mp hv with hold | hnews
      · rcases (hdue k v').mp hv' with hold' | hnews'
        · exact h.functional k v v' hold hold'
        · exact absurd hold (hnew k v' hnews' v)
      · rcases (hdue k v').mp hv' with hold' | hnews'
        · exact absurd hold' (hnew k v hnews v')
        · exact Option.some.inj (hnews.symm.trans hnews')
    · rw [hintents, Option.or_eq_some_iff] at hv
      rcases hv with hnews | ⟨-, hold⟩
      · exact (hdue k v).mpr (.inr hnews)
      · exact (hdue k v).mpr (.inl (h.intents k v hold))
    · rw [hdelivered] at hv
      exact (hdue k v).mpr (.inl (h.delivered k v hv))
    · rw [hintents]
      rcases (hdue k v).mp hv with hold | hnews
      · refine (h.kept k v hold).imp (fun hintent => ?_) hkept
        cases hnews : news k with
        | none => exact hintent
        | some v' => exact absurd hold (hnew k v' hnews v)
      · exact .inl (by rw [hnews, Option.some_or])
  | @deliver k' v' hvalue hdue hintents hdelivered =>
    refine ⟨fun k v v' hv hv' => ?_, fun k v hv => ?_, fun k v hv => ?_, fun k v hv => ?_⟩
    · exact h.functional k v v' ((hdue k v).mp hv) ((hdue k v').mp hv')
    · rw [hintents] at hv
      exact (hdue k v).mpr (h.intents k v hv)
    · rw [hdelivered] at hv
      rcases entry_of_update hv with ⟨rfl, rfl⟩ | ⟨-, hold⟩
      · exact (hdue k v).mpr hvalue
      · exact (hdue k v).mpr (h.delivered k v hold)
    · rw [hintents]
      exact (h.kept k v ((hdue k v).mp hv)).imp_right hkept
  | @settle k' v' hvalue hdue hintents hdelivered =>
    refine ⟨fun k v v' hv hv' => ?_, fun k v hv => ?_, fun k v hv => ?_, fun k v hv => ?_⟩
    · exact h.functional k v v' ((hdue k v).mp hv) ((hdue k v').mp hv')
    · rw [hintents] at hv
      exact (hdue k v).mpr (h.intents k v (entry_of_erase hv).2)
    · rw [hdelivered] at hv
      exact (hdue k v).mpr (h.delivered k v hv)
    · have hold := (hdue k v).mp hv
      by_cases hk : k = k'
      · -- the store has the value of the intent that went away
        subst hk
        rw [h.functional k v v' hold (h.delivered k v' hvalue)]
        exact .inr (hkept hvalue)
      · rw [hintents, Function.update_of_ne hk]
        exact (h.kept k v hold).imp_right hkept
  | idle hdue hintents hdelivered =>
    refine ⟨fun k v v' hv hv' => ?_, fun k v hv => ?_, fun k v hv => ?_, fun k v hv => ?_⟩
    · exact h.functional k v v' ((hdue k v).mp hv) ((hdue k v').mp hv')
    · rw [hintents] at hv
      exact (hdue k v).mpr (h.intents k v hv)
    · rw [hdelivered] at hv
      exact (hdue k v).mpr (h.delivered k v hv)
    · rw [hintents]
      exact (h.kept k v ((hdue k v).mp hv)).imp_right hkept

end Outbox

end CampusHub.Foundations
