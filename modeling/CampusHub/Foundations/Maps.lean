import Mathlib.Data.Finmap

/-!
# Finite maps

A table, a Redis hash and an index are finite maps, Mathlib's `Finmap` with one value type.

* `lookup_insert_eq`, `lookup_erase_eq` — what a write does to every key, as one equation.
* `entry_of_write` — the same for a function into options.
* `selected p m` — the keys whose entry meets `p`; `selected_insert` is the rule by which counts of
  such keys follow a write.

**What is proved.** Reads after writes, in the form that a table or a hash needs them: one equation for
every key instead of two lemmas for equal and different keys. For the counts that conservation laws speak
about, `card_selected_insert_of_gained` and `card_selected_insert_of_lost` say by how much one write changes
them, and `card_selected_add` splits a count into two.

**Proof route.** `Finmap` has the lookups after a write; the counts follow from `selected_insert`, which
says of one write which key it puts among the selected ones or takes out.

**Not here.** No order of the entries: a statement with `ORDER BY` sorts the keys where it is modelled.
-/

namespace CampusHub.Foundations.Maps

/-- Finite maps from `κ` to `ν`. -/
abbrev FiniteMap (κ ν : Type) := Finmap fun _ : κ => ν

variable {κ ν : Type} [DecidableEq κ]

/-- A write changes the entry of its key only. -/
theorem lookup_insert_eq (m : FiniteMap κ ν) (a b : κ) (v : ν) :
    (m.insert a v).lookup b = if b = a then some v else m.lookup b := by
  split
  · rename_i h; subst h; exact Finmap.lookup_insert m
  · rename_i h; exact Finmap.lookup_insert_of_ne m h

/-- A removal changes the entry of its key only. -/
theorem lookup_erase_eq (m : FiniteMap κ ν) (a b : κ) :
    (m.erase a).lookup b = if b = a then none else m.lookup b := by
  split
  · rename_i h; subst h; exact Finmap.lookup_erase _ m
  · rename_i h; exact Finmap.lookup_erase_ne h

/-- A key is there exactly when something is found under it. -/
theorem mem_keys_iff {m : FiniteMap κ ν} {a : κ} : a ∈ m.keys ↔ ∃ v, m.lookup a = some v := by
  rw [Finmap.mem_keys, Finmap.mem_iff]

/-- The one entry of a singleton. -/
theorem eq_of_lookup_singleton {a b : κ} {v w : ν}
    (h : (Finmap.singleton a v : FiniteMap κ ν).lookup b = some w) : b = a ∧ w = v := by
  have hb : b ∈ (Finmap.singleton a v : FiniteMap κ ν) := Finmap.mem_iff.mpr ⟨w, h⟩
  obtain rfl := (Finmap.mem_singleton b a v).mp hb
  rw [Finmap.lookup_singleton_eq, Option.some.injEq] at h
  exact ⟨rfl, h.symm⟩

/-- A write adds its key. -/
theorem keys_insert (m : FiniteMap κ ν) (a : κ) (v : ν) :
    (m.insert a v).keys = insert a m.keys := by
  ext b
  simp only [Finset.mem_insert, Finmap.mem_keys, Finmap.mem_insert]

/-- A write under a new key adds one key. -/
theorem card_keys_insert {m : FiniteMap κ ν} {a : κ} (h : m.lookup a = none) (v : ν) :
    (m.insert a v).keys.card = m.keys.card + 1 := by
  rw [keys_insert, Finset.card_insert_of_notMem]
  rw [mem_keys_iff]
  simp [h]

/-! ## Functions into options -/

section entries

variable {τ : Type*} {f : κ → Option τ} {a b : κ} {entry : Option τ} {t u : τ}

/-- An entry after one was written. -/
theorem entry_of_write (h : Function.update f a entry b = some u) :
    b = a ∧ entry = some u ∨ b ≠ a ∧ f b = some u := by
  by_cases hb : b = a
  · subst hb
    rw [Function.update_self] at h
    exact .inl ⟨rfl, h⟩
  · rw [Function.update_of_ne hb] at h
    exact .inr ⟨hb, h⟩

/-- An entry after one was put in. -/
theorem entry_of_update (h : Function.update f a (some t) b = some u) :
    b = a ∧ u = t ∨ b ≠ a ∧ f b = some u :=
  (entry_of_write h).imp_left fun ⟨hb, hu⟩ => ⟨hb, (Option.some.inj hu).symm⟩

/-- An entry after one was taken out. -/
theorem entry_of_erase (h : Function.update f a none b = some u) : b ≠ a ∧ f b = some u :=
  (entry_of_write h).resolve_left fun ⟨_, hu⟩ => nomatch hu

end entries

/-! ## Lists of pairs -/

/-- What is found under a name is in the list. -/
theorem mem_of_lookup {l : List (κ × ν)} {a : κ} {v : ν} (h : l.lookup a = some v) : (a, v) ∈ l := by
  obtain ⟨l₁, l₂, rfl, -⟩ := List.lookup_eq_some_iff.mp h
  exact List.mem_append_right _ List.mem_cons_self

/-- In a list with different names every pair is found under its name. -/
theorem lookup_of_mem {l : List (κ × ν)} (hnames : (l.map Prod.fst).Nodup) {a : κ} {v : ν}
    (h : (a, v) ∈ l) : l.lookup a = some v := by
  obtain ⟨l₁, l₂, rfl⟩ := List.append_of_mem h
  refine List.lookup_eq_some_iff.mpr ⟨l₁, l₂, rfl, fun p hp => ?_⟩
  rw [List.map_append, List.map_cons, List.nodup_append] at hnames
  rw [bne_iff_ne]
  rintro rfl
  exact hnames.2.2 _ (List.mem_map_of_mem hp) _ List.mem_cons_self rfl

/-! ## Counting the keys whose entry meets a predicate -/

section selected

variable (p : κ → ν → Prop) [∀ k v, Decidable (p k v)]

/-- The keys of `m` whose entry meets `p`. -/
def selected (m : FiniteMap κ ν) : Finset κ := m.keys.filter fun k => ∃ v ∈ m.lookup k, p k v

variable {p} {m : FiniteMap κ ν}

/-- A key is selected exactly when its entry meets the predicate. -/
@[simp] theorem mem_selected {k : κ} : k ∈ selected p m ↔ ∃ v, m.lookup k = some v ∧ p k v := by
  simp only [selected, Finset.mem_filter, mem_keys_iff, Option.mem_def]
  exact ⟨fun h => h.2, fun ⟨v, hv, hp⟩ => ⟨⟨v, hv⟩, v, hv, hp⟩⟩

/-- A write whose entry meets `p` puts its key among the selected ones; any other takes it out. -/
theorem selected_insert (k : κ) (v : ν) :
    selected p (m.insert k v) =
      if p k v then insert k (selected p m) else (selected p m).erase k := by
  ext a
  rw [mem_selected, lookup_insert_eq]
  by_cases ha : a = k
  · subst ha
    by_cases hp : p a v <;> simp [hp]
  · by_cases hp : p k v <;> simp [hp, ha]

/-- A write that meets `p`, under a key whose entry did not, makes one more. -/
theorem card_selected_insert_of_gained {k : κ} {v : ν} (hk : ∀ w, m.lookup k = some w → ¬ p k w)
    (hp : p k v) : (selected p (m.insert k v)).card = (selected p m).card + 1 := by
  rw [selected_insert, if_pos hp, Finset.card_insert_of_notMem]
  rw [mem_selected]
  rintro ⟨w, hw, hpw⟩
  exact hk w hw hpw

/-- A write that does not meet `p`, over an entry that did, makes one less. -/
theorem card_selected_insert_of_lost {k : κ} {v w : ν} (hk : m.lookup k = some w) (hw : p k w)
    (hp : ¬ p k v) : (selected p (m.insert k v)).card + 1 = (selected p m).card := by
  rw [selected_insert, if_neg hp, Finset.card_erase_add_one]
  exact mem_selected.mpr ⟨w, hk, hw⟩

/-- A write that does not meet `p`, under a key whose entry did not, changes nothing. -/
theorem selected_insert_of_not {k : κ} {v : ν} (hk : ∀ w, m.lookup k = some w → ¬ p k w)
    (hp : ¬ p k v) : selected p (m.insert k v) = selected p m := by
  rw [selected_insert, if_neg hp, Finset.erase_eq_of_notMem]
  rw [mem_selected]
  rintro ⟨w, hw, hpw⟩
  exact hk w hw hpw

/-- Every key is selected by what every entry meets. -/
@[simp] theorem selected_true : selected (fun _ _ => True) m = m.keys := by
  ext k
  rw [mem_selected, mem_keys_iff]
  simp

/-- Two predicates of which no entry meets both split what one of them selects. -/
theorem card_selected_add {q r : κ → ν → Prop} [∀ k v, Decidable (q k v)]
    [∀ k v, Decidable (r k v)] (hr : ∀ k v, m.lookup k = some v → (r k v ↔ p k v ∨ q k v))
    (hpq : ∀ k v, m.lookup k = some v → p k v → ¬ q k v) :
    (selected p m).card + (selected q m).card = (selected r m).card := by
  have hdisjoint : Disjoint (selected p m) (selected q m) := by
    rw [Finset.disjoint_left]
    intro k hk hk'
    obtain ⟨v, hv, hp⟩ := mem_selected.mp hk
    obtain ⟨v', hv', hq⟩ := mem_selected.mp hk'
    obtain rfl := Option.some.inj (hv.symm.trans hv')
    exact hpq k v hv hp hq
  rw [← Finset.card_union_of_disjoint hdisjoint]
  congr 1
  ext k
  rw [Finset.mem_union, mem_selected, mem_selected, mem_selected]
  constructor
  · rintro (⟨v, hv, hp⟩ | ⟨v, hv, hq⟩)
    · exact ⟨v, hv, (hr k v hv).mpr (.inl hp)⟩
    · exact ⟨v, hv, (hr k v hv).mpr (.inr hq)⟩
  · rintro ⟨v, hv, h⟩
    rcases (hr k v hv).mp h with hp | hq
    · exact .inl ⟨v, hv, hp⟩
    · exact .inr ⟨v, hv, hq⟩

end selected

end CampusHub.Foundations.Maps
