import CampusHub.Foundations.Maps
import CampusHub.Foundations.Transactions

/-!
# Transactions that lock a region before they write

A transaction may look at a snapshot first. Then it locks the row that guards one region of the tables,
and all it does afterwards depends on that region alone.

* `Regions` — the regions, their guards, and what a transaction may take for granted of the others.
* `Regions.Throughout` — a check of every statement of a program, on all tables it may find there.
* `Confined` — the check behind serializability: what was read too early is harmless, and what is read
  under the lock belongs to the region.
* `Sound.step`, `Sound.run` — every running transaction does what its call would do alone, now.
* `serializable` — every run has a serial order of its calls with the same tables and results, and a
  call that returned before another started comes first.

**Theorem** (`serializable`). For a system that meets `Disciplined`, and for every run of any number of
callers with rollbacks, failed statements and failed commits, there is an order of the calls in which each,
run alone, gives the result that it gave in the run, and which leaves the tables of the run. A call comes
after every call that had returned before it started.

The proof fixes for every running transaction what it is on the way to do (`Tracks`): on all tables that it
may find later, its rest with the writes it has made does what its whole call would do alone. A statement
under a lock keeps this because its answer depends on the region that it holds (`Tracks.exec`); a plain read
keeps it because the check says that what it leads to is harmless (`Tracks.select`). At its commit the call
takes its turn (`Sound.turn`), and `Logged` collects the turns.

Not done: phantoms, since a statement names the row that it locks. A program whose plain reads could matter
after the lock does not pass the check.
-/

namespace CampusHub.Foundations.Transactions

open CampusHub.Foundations.Maps

variable {κ σ ρ ν ε α γ : Type}

/-! ## Entries of a list -/

section entries

variable {τ : Type*} {j : ℕ} {t u : τ}

/-- An entry of a list after one was added. -/
theorem entry_of_concat {l : List τ} (h : (l ++ [t])[j]? = some u) :
    l[j]? = some u ∨ j = l.length ∧ u = t := by
  rcases Nat.lt_or_ge j l.length with hlt | hge
  · rw [List.getElem?_append_left hlt] at h
    exact .inl h
  · have hbound := (List.getElem?_eq_some_iff.mp h).1
    rw [List.length_append, List.length_singleton] at hbound
    obtain rfl : j = l.length := Nat.le_antisymm (Nat.le_of_lt_succ hbound) hge
    rw [List.getElem?_concat_length] at h
    exact .inr ⟨rfl, (Option.some.inj h).symm⟩

/-- A new entry stands apart from the others. -/
theorem apart_of_concat {R : τ → τ → Prop} {l : List τ}
    (h : ∀ (i j : ℕ) (a b : τ), l[i]? = some a → l[j]? = some b → i ≠ j → R a b)
    (hnew : ∀ a ∈ l, R a t ∧ R t a) (i j : ℕ) (a b : τ) (ha : (l ++ [t])[i]? = some a)
    (hb : (l ++ [t])[j]? = some b) (hij : i ≠ j) : R a b := by
  rcases entry_of_concat ha with hold | ⟨rfl, rfl⟩
  · rcases entry_of_concat hb with hold' | ⟨-, rfl⟩
    · exact h i j a b hold hold' hij
    · exact (hnew a (List.mem_of_getElem? hold)).1
  · rcases entry_of_concat hb with hold' | ⟨rfl, -⟩
    · exact (hnew b (List.mem_of_getElem? hold')).2
    · exact absurd rfl hij

end entries

/-! ## Rows in one hand -/

section exclusive

variable {w w' : World κ σ ρ ν ε α} {i : ℕ} {t t' : Task σ ρ ν ε α}

/-- Nobody holds more than before. -/
theorem World.Exclusive.mono (h : w.Exclusive) (hheld : ∀ j u, w'.tasks j = some u →
    ∃ v, w.tasks j = some v ∧ ∀ row ∈ u.held, row ∈ v.held) : w'.Exclusive := by
  intro j k u u' row hj hk hrow hrow'
  obtain ⟨v, hv, hsub⟩ := hheld j u hj
  obtain ⟨v', hv', hsub'⟩ := hheld k u' hk
  exact h j k v v' row hv hv' (hsub row hrow) (hsub' row hrow')

/-- A call begins, and holds nothing. -/
theorem World.Exclusive.start (h : w.Exclusive) (htasks : w'.tasks = Function.update w.tasks i (some t))
    (hheld : t.held = []) : w'.Exclusive := by
  have hcase : ∀ j u row, w'.tasks j = some u → row ∈ u.held → w.tasks j = some u := by
    intro j u row hj hrow
    rw [htasks] at hj
    rcases entry_of_update hj with ⟨-, rfl⟩ | ⟨-, hold⟩
    · rw [hheld] at hrow
      cases hrow
    · exact hold
  intro j k u u' row hj hk hrow hrow'
  exact h j k u u' row (hcase j u row hj hrow) (hcase k u' row hk hrow') hrow hrow'

variable [DecidableEq ρ]

/-- A row that does not block a transaction is held by none of the others. -/
theorem blocked_eq_false {row : ρ} (h : w.blocked i row = false) {j : ℕ} (hj : j < w.calls.length)
    (ht : w.tasks j = some t) (hne : j ≠ i) : row ∉ t.held := by
  intro hrow
  have := List.any_eq_false.mp h j (List.mem_range.mpr hj)
  simp [hne, ht, hrow] at this

/-- A transaction takes rows that nobody holds. -/
theorem World.Exclusive.put (h : w.Exclusive) (hlt : ∀ j u, w.tasks j = some u → j < w.calls.length)
    (hi : w.tasks i = some t) (htasks : w'.tasks = Function.update w.tasks i (some t'))
    (hheld : ∀ row ∈ t'.held, row ∈ t.held ∨ w.blocked i row = false) : w'.Exclusive := by
  have hfree : ∀ j u row, j ≠ i → w.tasks j = some u → row ∈ u.held → row ∉ t'.held := by
    intro j u row hji hj hrow hrow'
    rcases hheld row hrow' with hold | hfree
    · exact hji (h j i u t row hj hi hrow hold)
    · exact blocked_eq_false hfree (hlt j u hj) hj hji hrow
  have hcase : ∀ j u, w'.tasks j = some u → j = i ∧ u = t' ∨ j ≠ i ∧ w.tasks j = some u := by
    intro j u hj
    rw [htasks] at hj
    exact entry_of_update hj
  intro j k u u' row hj hk hrow hrow'
  rcases hcase j u hj with ⟨rfl, rfl⟩ | ⟨hji, hold⟩
  · rcases hcase k u' hk with ⟨rfl, rfl⟩ | ⟨hki, hold⟩
    · rfl
    · exact absurd hrow (hfree k u' row hki hold hrow')
  · rcases hcase k u' hk with ⟨rfl, rfl⟩ | ⟨-, hold'⟩
    · exact absurd hrow' (hfree j u row hji hold hrow)
    · exact h j k u u' row hold hold' hrow hrow'

end exclusive

/-! ## Regions -/

/-- The regions `γ` of the tables. A transaction works on a region while it holds the guard. -/
structure Regions (κ σ ρ γ : Type) where
  guard : γ → ρ
  guard_injective : Function.Injective guard
  /-- Two tables are the same in a region. -/
  Agree : γ → σ → σ → Prop
  agree_refl : ∀ g s, Agree g s s
  agree_trans : ∀ g s t u, Agree g s t → Agree g t u → Agree g s u
  /-- What the tables may become, whoever writes. -/
  Evolves : σ → σ → Prop
  evolves_refl : ∀ s, Evolves s s
  evolves_trans : ∀ s t u, Evolves s t → Evolves t u → Evolves s u
  /-- What a call may rely on while it runs. -/
  Ready : κ → σ → Prop
  /-- Two calls that leave each other ready. -/
  Apart : κ → κ → Prop
  /-- The region that a call works on. -/
  region : κ → σ → Option γ

namespace Regions

variable (D : Regions κ σ ρ γ) {c : κ} {held : List ρ} {s t u : σ}

/-- The tables that a transaction with the rows `held` may find later. -/
def Rely (c : κ) (held : List ρ) (s t : σ) : Prop :=
  D.Evolves s t ∧ D.Ready c t ∧ ∀ g, D.guard g ∈ held → D.Agree g s t

/-- The tables that the transaction has found. -/
theorem rely_refl (h : D.Ready c s) : D.Rely c held s s :=
  ⟨D.evolves_refl s, h, fun g _ => D.agree_refl g s⟩

variable {D}

/-- What it may find later than later. -/
theorem Rely.trans (h : D.Rely c held s t) (h' : D.Rely c held t u) : D.Rely c held s u :=
  ⟨D.evolves_trans _ _ _ h.1 h'.1, h'.2.1, fun g hg =>
    D.agree_trans _ _ _ _ (h.2.2 g hg) (h'.2.2 g hg)⟩

/-- With more rows held there is less that the others may do. -/
theorem Rely.mono {held' : List ρ} (h : D.Rely c held' s t) (hheld : ∀ r ∈ held, r ∈ held') :
    D.Rely c held s t :=
  ⟨h.1, h.2.1, fun g hg => h.2.2 g (hheld _ hg)⟩

variable (D)

/-- Every statement of a program meets `Q`, on all tables that the transaction may find there. -/
def Throughout (c : κ) (Q : Task σ ρ ν ε α → σ → Prop) :
    Txn σ ρ ν ε α → Option σ → (σ → σ) → List ρ → σ → Prop
  | .done r, snap, w, held, s => ∀ t, D.Rely c held s t → Q ⟨.done r, snap, w, held⟩ t
  | .select query next, snap, w, held, s => ∀ t, D.Rely c held s t →
      Q ⟨.select query next, snap, w, held⟩ t ∧
      Throughout c Q (next (query (w (snap.getD t)))) (some (snap.getD t)) w held t
  | .exec row statement next, snap, w, held, s => ∀ t, D.Rely c held s t →
      Q ⟨.exec row statement next, snap, w, held⟩ t ∧
      Throughout c Q (next (statement (w t)).value) snap ((statement (w t)).write ∘ w)
        (if (statement (w t)).held then row :: held else held) t
  | .send command next, snap, w, held, s => ∀ t, D.Rely c held s t →
      Q ⟨.send command next, snap, w, held⟩ t ∧ ∀ v, Throughout c Q (next v) snap w held t

variable {D} {Q : Task σ ρ ν ε α → σ → Prop} {p : Txn σ ρ ν ε α} {snap : Option σ} {w : σ → σ}

/-- A check on all tables that may be found holds on those that are found later. -/
theorem Throughout.rely (h : D.Throughout c Q p snap w held s) (hst : D.Rely c held s t) :
    D.Throughout c Q p snap w held t := by
  cases p <;> exact fun u hu => h u (hst.trans hu)

/-- It holds of the next statement, on the tables that are there now. -/
theorem Throughout.head (h : D.Throughout c Q p snap w held s) (hs : D.Ready c s) :
    Q ⟨p, snap, w, held⟩ s := by
  have hrefl : D.Rely c held s s := D.rely_refl hs
  cases p with
  | done r => exact h s hrefl
  | select query next => exact (h s hrefl).1
  | exec row statement next => exact (h s hrefl).1
  | send command next => exact (h s hrefl).1

end Regions

/-! ## The check -/

section confined

variable (S : System κ σ ρ ν ε α) (D : Regions κ σ ρ γ)

/-- What a statement answers depends on the region alone. -/
def Regions.Steady {β : Type} (g : γ) (w : σ → σ) (statement : σ → Answer σ β) (s : σ) : Prop :=
  ∀ t, D.Agree g s t →
    (statement (w t)).value = (statement (w s)).value ∧
    (statement (w t)).write = (statement (w s)).write

/-- With the changes `w` made already, the program `p` does what the call does alone. -/
def Includes (c : κ) (p : Txn σ ρ ν ε α) (w : σ → σ) (s : σ) : Prop :=
  ∀ r t, p.Acts w s r t → (S.program c).Alone s r t

/-- What a read without a lock may lead to: the call fails at once, or what was read is harmless on all
later tables. -/
def Harmless (c : κ) (p : Txn σ ρ ν ε α) (w : σ → σ) (s : σ) : Prop :=
  (∃ e, p = .done (.error e)) ∨
    ∀ t, D.Evolves s t → D.Ready c t → Includes S c p w t

/-- **The check of the statements.** Before the lock, a plain read comes first, and a statement either
locks the region of the call or is harmless. Under the lock, all depends on the region alone. -/
def Confined (c : κ) (t : Task σ ρ ν ε α) (s : σ) : Prop :=
  match t.program with
  | .done _ => True
  | .select query next =>
    (∀ s₁ s₂, query (t.write s₁) = query (t.write s₂)) ∨
      t.snapshot = none ∧ Harmless S D c (next (query (t.write s))) t.write s
  | .exec row statement next =>
    (∀ g, D.guard g ∈ t.held →
      (∀ g', row = D.guard g' → g' = g) ∧ D.Steady g t.write statement s) ∧
    ((∀ g, D.guard g ∉ t.held) → if (statement (t.write s)).held then
        ∃ g, row = D.guard g ∧ (∀ s', D.Evolves s s' → D.region c s' = some g) ∧
          D.Steady g t.write statement s
      else (statement (t.write s)).write = id ∧
        Harmless S D c (next (statement (t.write s)).value) t.write s)
  | .send _ _ => ∃ g, D.guard g ∈ t.held

/-- **A system of such transactions**: the calls leave each other ready, each changes its region only,
and the statements pass a check at least as strict as `Confined`. -/
structure Disciplined (Q : κ → Task σ ρ ν ε α → σ → Prop) : Prop where
  admitted : ∀ {calls : List κ} {s : σ} {c : κ}, S.admits calls s c = true →
    D.Ready c s ∧ ∀ d ∈ calls, D.Apart d c ∧ D.Apart c d
  effect : ∀ {c : κ} {s t : σ} {r : Except ε α}, D.Ready c s → (S.program c).Alone s r t →
    D.Evolves s t ∧ (∀ g, D.region c s ≠ some g → D.Agree g s t) ∧
    ∀ d, D.Apart c d → D.Ready d s → D.Ready d t
  confined : ∀ {c : κ} {t : Task σ ρ ν ε α} {s : σ}, Q c t s → Confined S D c t s
  throughout : ∀ {c : κ} {s : σ}, D.Ready c s →
    D.Throughout c (Q c) (S.program c) none id [] s

end confined

/-! ## Running transactions -/

section tracks

variable (S : System κ σ ρ ν ε α) (D : Regions κ σ ρ γ) (Q : κ → Task σ ρ ν ε α → σ → Prop)

/-- **What holds of a running transaction**: on all tables it may find, the rest of its program does
what the call does alone. -/
structure Tracks (c : κ) (t : Task σ ρ ν ε α) (s : σ) : Prop where
  ready : D.Ready c s
  includes : ∀ s', D.Rely c t.held s s' → Includes S c t.program t.write s'
  guarded : (t.held = [] ∧ t.write = id) ∨
    ∃ g, D.guard g ∈ t.held ∧ (∀ g', D.guard g' ∈ t.held → g' = g) ∧
      ∀ s', D.Evolves s s' → D.region c s' = some g
  throughout : D.Throughout c (Q c) t.program t.snapshot t.write t.held s

/-- The call has failed, as it would alone. -/
def Fails (c : κ) (t : Task σ ρ ν ε α) (s : σ) : Prop :=
  ∃ e, t.program = .done (.error e) ∧ (S.program c).Alone s (.error e) s

variable {S D Q} {c : κ} {t : Task σ ρ ν ε α} {s s' : σ}

/-- What the others may do to the tables does not lead a transaction astray. -/
theorem Tracks.rely (h : Tracks S D Q c t s) (hs : D.Rely c t.held s s') : Tracks S D Q c t s' where
  ready := hs.2.1
  includes u hu := h.includes u (hs.trans hu)
  guarded := h.guarded.imp_right fun ⟨g, hg, honly, hregion⟩ =>
    ⟨g, hg, honly, fun u hu => hregion u (D.evolves_trans _ _ _ hs.1 hu)⟩
  throughout := h.throughout.rely hs

/-- A commit leaves the tables that the call would leave alone. -/
theorem Tracks.commit (h : Tracks S D Q c t s) {a : α} (hp : t.program = .done (.ok a)) :
    (S.program c).Alone s (.ok a) (t.write s) := by
  refine h.includes s (D.rely_refl h.ready) _ _ ?_
  rw [hp]
  exact ⟨rfl, rfl⟩

/-- A rest that includes what the call does now, and has failed. -/
theorem fails_of_includes (h : Includes S c t.program t.write s) {e : ε}
    (hp : t.program = .done (.error e)) : Fails S c t s := by
  refine ⟨e, hp, h _ _ ?_⟩
  rw [hp]
  exact ⟨rfl, rfl⟩

/-- What follows a harmless read. -/
theorem Tracks.harmless (h : Tracks S D Q c t s) {p : Txn σ ρ ν ε α} {snap : Option σ}
    (hnow : Includes S c p t.write s) (hharmless : Harmless S D c p t.write s)
    (hthroughout : D.Throughout c (Q c) p snap t.write t.held s) :
    Fails S c { t with program := p, snapshot := snap } s ∨
      Tracks S D Q c { t with program := p, snapshot := snap } s := by
  rcases hharmless with ⟨e, hp⟩ | hlater
  · exact .inl (fails_of_includes hnow hp)
  · exact .inr ⟨h.ready, fun s' hs' => hlater s' hs'.1 hs'.2.1, h.guarded, hthroughout⟩

/-- **A plain read.** -/
theorem Tracks.select (h : Tracks S D Q c t s)
    (hQ : ∀ t s, Q c t s → Confined S D c t s) {β : Type} {query : σ → β}
    {next : β → Txn σ ρ ν ε α} (hp : t.program = .select query next) :
    let base := t.snapshot.getD s
    let t' := { t with program := next (query (t.write base)), snapshot := some base }
    Fails S c t' s ∨ Tracks S D Q c t' s := by
  intro base t'
  have hthroughout := h.throughout
  have hincludes := h.includes
  rw [hp] at hthroughout hincludes
  have hrefl : D.Rely c t.held s s := D.rely_refl h.ready
  obtain ⟨hhead, hrest⟩ := hthroughout s hrefl
  rcases hQ _ _ hhead with hown | ⟨hsnap, hharmless⟩
  · -- the answer does not depend on the snapshot
    refine .inr ⟨h.ready, fun s' hs' r u hu => hincludes s' hs' r u ?_, h.guarded, hrest⟩
    show Txn.Acts t.write (next (query (t.write s'))) s' r u
    rw [hown s' base]
    exact hu
  · have hbase : base = s := by
      show t.snapshot.getD s = s
      rw [show t.snapshot = none from hsnap]
      rfl
    have hnow : Includes S c (next (query (t.write base))) t.write s := by
      rw [hbase]
      exact hincludes s hrefl
    refine h.harmless hnow ?_ hrest
    rw [hbase]
    exact hharmless

/-- **A statement that locks its row**, once the row is free. -/
theorem Tracks.exec (h : Tracks S D Q c t s)
    (hQ : ∀ t s, Q c t s → Confined S D c t s) {β : Type} {row : ρ}
    {statement : σ → Answer σ β} {next : β → Txn σ ρ ν ε α} (hp : t.program = .exec row statement next) :
    let a := statement (t.write s)
    let t' := { t with
      program := next a.value
      write := a.write ∘ t.write
      held := if a.held then row :: t.held else t.held }
    Fails S c t' s ∨ Tracks S D Q c t' s := by
  intro a t'
  have hthroughout := h.throughout
  have hincludes := h.includes
  rw [hp] at hthroughout hincludes
  have hrefl : D.Rely c t.held s s := D.rely_refl h.ready
  obtain ⟨hhead, hrest⟩ := hthroughout s hrefl
  obtain ⟨hunder, hbefore⟩ := hQ _ _ hhead
  have hsub : ∀ r ∈ t.held, r ∈ t'.held := by
    intro r hr
    show r ∈ if a.held then row :: t.held else t.held
    split
    · exact List.mem_cons_of_mem _ hr
    · exact hr
  -- what the region decides stays decided
  have hsteady : ∀ g, D.guard g ∈ t'.held → D.Steady g t.write statement s →
      ∀ s', D.Rely c t'.held s s' → Includes S c t'.program t'.write s' := by
    intro g hg hst s' hs' r u hu
    obtain ⟨hvalue, hwrite⟩ := hst s' (hs'.2.2 g hg)
    refine hincludes s' (hs'.mono hsub) r u ?_
    show Txn.Acts ((statement (t.write s')).write ∘ t.write) (next (statement (t.write s')).value) s' r u
    rw [hvalue, hwrite]
    exact hu
  rcases h.guarded with ⟨hheld, hwrite⟩ | ⟨g, hg, honly, hregion⟩
  · have hnone : ∀ g, D.guard g ∉ t.held := by
      intro g hg
      rw [hheld] at hg
      cases hg
    have hlock := hbefore hnone
    split at hlock
    · rename_i hheldrow
      obtain ⟨g, rfl, hregion, hst⟩ := hlock
      have ht' : t'.held = [D.guard g] := by
        show (if a.held then D.guard g :: t.held else t.held) = _
        rw [hheld]
        exact if_pos hheldrow
      have hg : D.guard g ∈ t'.held := by
        rw [ht']
        exact List.mem_singleton.mpr rfl
      refine .inr ⟨h.ready, hsteady g hg hst, .inr ⟨g, hg, fun g' hg' => ?_, hregion⟩, hrest⟩
      rw [ht', List.mem_singleton] at hg'
      exact D.guard_injective hg'
    · rename_i hfree
      obtain ⟨hid, hharmless⟩ := hlock
      have ht' : t' = { t with program := next a.value, snapshot := t.snapshot } := by
        show ({ t with program := _, write := _, held := _ } : Task σ ρ ν ε α) = _
        rw [if_neg hfree, show a.write = id from hid]
        rfl
      have hnow : Includes S c (next a.value) t.write s := by
        intro r u hu
        refine hincludes s hrefl r u ?_
        show Txn.Acts (a.write ∘ t.write) (next a.value) s r u
        rw [show a.write = id from hid]
        exact hu
      rw [ht']
      refine h.harmless hnow hharmless ?_
      have := hrest
      rwa [if_neg hfree, hid] at this
  · obtain ⟨hguard, hst⟩ := hunder g hg
    refine .inr ⟨h.ready, hsteady g (hsub _ hg) hst, .inr ⟨g, hsub _ hg, fun g' hg' => ?_, hregion⟩,
      hrest⟩
    have hg'' : D.guard g' ∈ if a.held then row :: t.held else t.held := hg'
    split at hg''
    · rcases List.mem_cons.mp hg'' with hrow | hold
      · exact hguard g' hrow.symm
      · exact honly g' hold
    · exact honly g' hg''

/-- **A command to the store outside**, whatever it answers. -/
theorem Tracks.send (h : Tracks S D Q c t s) {β : Type} {command : ν → β × ν}
    {next : β → Txn σ ρ ν ε α} (hp : t.program = .send command next) (v : β) :
    Tracks S D Q c { t with program := next v } s := by
  have hthroughout := h.throughout
  have hincludes := h.includes
  rw [hp] at hthroughout hincludes
  obtain ⟨-, hrest⟩ := hthroughout s (D.rely_refl h.ready)
  exact ⟨h.ready, fun s' hs' r u hu => hincludes s' hs' r u ⟨v, hu⟩, h.guarded, hrest v⟩

end tracks

/-! ## Serial order -/

/-- A call in a serial order: its number, its result, and whether a failure of the database decided it. -/
structure Entry (ε α : Type) where
  call : ℕ
  result : Except ε α
  faulted : Bool

/-- A call takes its turn: alone, from the tables `s` to the tables `t`. One that the database fails
changes nothing. -/
def Entry.Takes (S : System κ σ ρ ν ε α) (calls : List κ) (e : Entry ε α) (s t : σ) : Prop :=
  ∃ c, calls[e.call]? = some c ∧
    if e.faulted then t = s ∧ (e.result = .error (S.fault c) ∨ e.result = .error S.lost)
    else (S.program c).Alone s e.result t

/-- The calls, one after the other. -/
def Serial (S : System κ σ ρ ν ε α) (calls : List κ) : σ → List (Entry ε α) → σ → Prop
  | s, [], t => t = s
  | s, e :: es, t => ∃ u, e.Takes S calls s u ∧ Serial S calls u es t

/-- Calls that begin later do not change whose turn it is. -/
theorem Entry.Takes.append {S : System κ σ ρ ν ε α} {calls : List κ} {e : Entry ε α} {s t : σ}
    (h : e.Takes S calls s t) (more : List κ) : e.Takes S (calls ++ more) s t := by
  obtain ⟨c, hc, ht⟩ := h
  refine ⟨c, ?_, ht⟩
  rw [List.getElem?_append_left (List.getElem?_eq_some_iff.mp hc).1]
  exact hc

/-- One order after another is an order. -/
theorem Serial.append {S : System κ σ ρ ν ε α} {calls : List κ} {es fs : List (Entry ε α)} {s t u : σ}
    (h : Serial S calls s es t) (h' : Serial S calls t fs u) : Serial S calls s (es ++ fs) u := by
  induction es generalizing s with
  | nil =>
    obtain rfl : t = s := h
    exact h'
  | cons e es ih =>
    obtain ⟨v, hv, hes⟩ := h
    exact ⟨v, hv, ih hes⟩

/-- Calls that begin later do not change an order. -/
theorem Serial.more {S : System κ σ ρ ν ε α} {calls : List κ} {es : List (Entry ε α)} {s t : σ}
    (h : Serial S calls s es t) (more : List κ) : Serial S (calls ++ more) s es t := by
  induction es generalizing s with
  | nil => exact h
  | cons e es ih =>
    obtain ⟨v, hv, hes⟩ := h
    exact ⟨v, hv.append more, ih hes⟩

/-! ## Steps -/

section steps

variable [DecidableEq ρ] (S : System κ σ ρ ν ε α) (D : Regions κ σ ρ γ)
  (Q : κ → Task σ ρ ν ε α → σ → Prop)

/-- **What holds of the callers** after any steps. -/
structure Sound (w : World κ σ ρ ν ε α) : Prop where
  exclusive : w.Exclusive
  apart : ∀ (i j : ℕ) (c d : κ), w.calls[i]? = some c → w.calls[j]? = some d → i ≠ j → D.Apart c d
  tasks : ∀ (i : ℕ) (t : Task σ ρ ν ε α), w.tasks i = some t → ∃ c, w.calls[i]? = some c ∧
    ((∃ e, t.program = .done (.error e)) ∨ Tracks S D Q c t w.tables)

/-- A transaction goes on, or its call has failed and takes its turn. -/
def Stands (i : ℕ) (c : κ) (t : Task σ ρ ν ε α) (s : σ) (new : List (Entry ε α)) : Prop :=
  new = [] ∧ (∀ e, t.program ≠ .done (.error e)) ∧ Tracks S D Q c t s ∨
    ∃ e, t.program = .done (.error e) ∧ (S.program c).Alone s (.error e) s ∧
      new = [⟨i, .error e, false⟩]

/-- **What a step can do**, and the calls that it puts next in the serial order. -/
inductive Turn (w : World κ σ ρ ν ε α) : World κ σ ρ ν ε α → List (Entry ε α) → Prop where
  | same : Turn w w []
  | drop (i : ℕ) : Turn w { w with tasks := Function.update w.tasks i none } []
  | start {c : κ} {new : List (Entry ε α)} (hadmits : S.admits w.calls w.tables c = true)
      (hstands : Stands S D Q w.calls.length c { program := S.program c } w.tables new) :
      Turn w { w with
        calls := w.calls ++ [c]
        tasks := Function.update w.tasks w.calls.length (some { program := S.program c })
        earlier := Function.update w.earlier w.calls.length fun j => (w.results j).isSome } new
  /-- The next statement of a transaction. -/
  | move {i : ℕ} {c : κ} {t t' : Task σ ρ ν ε α} {v : ν} {new : List (Entry ε α)}
      (hi : w.tasks i = some t) (hc : w.calls[i]? = some c)
      (hruns : ∀ e, t.program ≠ .done (.error e))
      (hheld : ∀ row ∈ t'.held, row ∈ t.held ∨ w.blocked i row = false)
      (hstands : Stands S D Q i c t' w.tables new) :
      Turn w { w.setTask i t' with store := v } new
  | fault {i : ℕ} {c : κ} {t : Task σ ρ ν ε α} {v : ν} {e : ε}
      (hi : w.tasks i = some t) (hc : w.calls[i]? = some c)
      (hruns : ∀ e, t.program ≠ .done (.error e)) (he : e = S.fault c ∨ e = S.lost) :
      Turn w { w.setTask i { t with program := .done (.error e) } with store := v }
        [⟨i, .error e, true⟩]
  | commit {i : ℕ} {c : κ} {t : Task σ ρ ν ε α} {a : α}
      (hi : w.tasks i = some t) (hc : w.calls[i]? = some c) (hp : t.program = .done (.ok a))
      (htracks : Tracks S D Q c t w.tables) :
      Turn w { w.finish i (.ok a) with tables := t.write w.tables } [⟨i, .ok a, false⟩]
  | finish {i : ℕ} {t : Task σ ρ ν ε α} {e : ε} (hi : w.tasks i = some t)
      (hp : t.program = .done (.error e)) : Turn w (w.finish i (.error e)) []

variable {S D Q} {w w' : World κ σ ρ ν ε α}

omit [DecidableEq ρ] in
/-- A transaction whose call has failed takes its turn; any other goes on. -/
theorem Stands.of {i : ℕ} {c : κ} {t : Task σ ρ ν ε α} {s : σ}
    (h : Fails S c t s ∨ Tracks S D Q c t s) : ∃ new, Stands S D Q i c t s new := by
  have hfails : Fails S c t s → ∃ new, Stands S D Q i c t s new :=
    fun ⟨e, hp, halone⟩ => ⟨_, .inr ⟨e, hp, halone, rfl⟩⟩
  rcases h with hfail | htracks
  · exact hfails hfail
  · by_cases hp : ∃ e, t.program = .done (.error e)
    · obtain ⟨e, hp⟩ := hp
      exact hfails (fails_of_includes (htracks.includes s (D.rely_refl htracks.ready)) hp)
    · exact ⟨[], .inl ⟨rfl, not_exists.mp hp, htracks⟩⟩

/-- **The step of a running call.** -/
theorem Sound.turn_run (h : Sound S D Q w) (hD : Disciplined S D Q) {i : ℕ} {t : Task σ ρ ν ε α}
    (hi : w.tasks i = some t) : ∃ new, Turn S D Q w (w.runTask i t) new := by
  obtain ⟨c, hc, hfailed | htracks⟩ := h.tasks i t hi
  · obtain ⟨e, hp⟩ := hfailed
    refine ⟨[], ?_⟩
    rw [World.runTask, hp]
    exact .finish hi hp
  · have hQ : ∀ t s, Q c t s → Confined S D c t s := fun _ _ => hD.confined
    unfold World.runTask
    cases hp : t.program with
    | done r =>
      cases r with
      | ok a => exact ⟨_, .commit hi hc hp htracks⟩
      | error e => exact ⟨_, .finish hi hp⟩
    | select query next =>
      obtain ⟨new, hnew⟩ := Stands.of (i := i) (htracks.select hQ hp)
      refine ⟨new, .move (v := w.store) hi hc (fun e he => ?_) (fun row hrow => .inl hrow) hnew⟩
      rw [hp] at he
      cases he
    | exec row statement next =>
      dsimp only
      split
      · exact ⟨[], .same⟩
      · rename_i hfree
        obtain ⟨new, hnew⟩ := Stands.of (i := i) (htracks.exec hQ hp)
        refine ⟨new, .move (v := w.store) hi hc (fun e he => ?_) (fun r hr => ?_) hnew⟩
        · rw [hp] at he
          cases he
        · dsimp only at hr
          split at hr
          · rcases List.mem_cons.mp hr with rfl | hold
            · exact .inr (Bool.not_eq_true _ ▸ hfree)
            · exact .inl hold
          · exact .inl hr
    | send command next =>
      obtain ⟨new, hnew⟩ := Stands.of (i := i) (.inr (htracks.send hp (command w.store).1))
      refine ⟨new, .move hi hc (fun e he => ?_) (fun row hrow => .inl hrow) hnew⟩
      rw [hp] at he
      cases he

/-- **Every step is a turn.** -/
theorem Sound.turn (h : Sound S D Q w) (hD : Disciplined S D Q) (a : Act κ) :
    ∃ new, Turn S D Q w (w.step S a) new := by
  cases a with
  | start c =>
    simp only [World.step]
    split
    · rename_i hadmits
      have hready := (hD.admitted hadmits).1
      have htracks : Tracks S D Q c { program := S.program c } w.tables :=
        ⟨hready, fun s' _ r u hu => hu, .inl ⟨rfl, rfl⟩, hD.throughout hready⟩
      obtain ⟨new, hnew⟩ := Stands.of (i := w.calls.length) (.inr htracks)
      exact ⟨new, .start hadmits hnew⟩
    · exact ⟨[], .same⟩
  | run i =>
    simp only [World.step]
    split
    · rename_i t hi
      exact h.turn_run hD hi
    · exact ⟨[], .same⟩
  | fail i sent =>
    simp only [World.step]
    split
    · rename_i t c hi hc
      unfold World.failTask
      have hruns : ∀ p, t.program = p → (∀ e, p ≠ .done (.error e)) →
          ∀ e, t.program ≠ .done (.error e) := fun p hp hne e he => hne e (hp ▸ he)
      cases hp : t.program with
      | done r =>
        cases r with
        | ok a => exact ⟨_, .fault (v := w.store) hi hc (hruns _ hp fun _ h => by cases h) (.inr rfl)⟩
        | error e => exact ⟨[], .same⟩
      | select query next => exact ⟨_, .fault (v := w.store) hi hc (hruns _ hp fun _ h => by cases h) (.inl rfl)⟩
      | exec row statement next =>
        exact ⟨_, .fault (v := w.store) hi hc (hruns _ hp fun _ h => by cases h) (.inl rfl)⟩
      | send command next => exact ⟨_, .fault hi hc (hruns _ hp fun _ h => by cases h) (.inl rfl)⟩
    · exact ⟨[], .same⟩
  | crash i => exact ⟨[], .drop i⟩

omit [DecidableEq ρ] in
/-- A call that runs has begun. -/
theorem Sound.lt_length (h : Sound S D Q w) {i : ℕ} {t : Task σ ρ ν ε α} (hi : w.tasks i = some t) :
    i < w.calls.length := by
  obtain ⟨c, hc, -⟩ := h.tasks i t hi
  exact (List.getElem?_eq_some_iff.mp hc).1

omit [DecidableEq ρ] in
/-- A transaction that ends leaves the others sound. -/
theorem Sound.leave (h : Sound S D Q w) (i : ℕ) (hcalls : w'.calls = w.calls)
    (htasks : w'.tasks = Function.update w.tasks i none)
    (htables : ∀ j t c, j ≠ i → w.tasks j = some t → w.calls[j]? = some c →
      Tracks S D Q c t w.tables → Tracks S D Q c t w'.tables) : Sound S D Q w' := by
  have hold : ∀ j t, w'.tasks j = some t → j ≠ i ∧ w.tasks j = some t := by
    intro j t hj
    rw [htasks] at hj
    exact entry_of_erase hj
  refine ⟨fun j k t t' row hj hk => ?_, ?_, fun j t hj => ?_⟩
  · exact h.exclusive j k t t' row (hold j t hj).2 (hold k t' hk).2
  · rw [hcalls]
    exact h.apart
  · obtain ⟨hji, hj⟩ := hold j t hj
    obtain ⟨c, hc, hstage⟩ := h.tasks j t hj
    rw [hcalls]
    exact ⟨c, hc, hstage.imp_right (htables j t c hji hj hc)⟩

/-- A transaction goes on. -/
theorem Sound.put (h : Sound S D Q w) {i : ℕ} {c : κ} {t t' : Task σ ρ ν ε α}
    (hi : w.tasks i = some t) (hc : w.calls[i]? = some c) (hcalls : w'.calls = w.calls)
    (htasks : w'.tasks = Function.update w.tasks i (some t')) (htables : w'.tables = w.tables)
    (hheld : ∀ row ∈ t'.held, row ∈ t.held ∨ w.blocked i row = false)
    (hstage : (∃ e, t'.program = .done (.error e)) ∨ Tracks S D Q c t' w.tables) :
    Sound S D Q w' := by
  refine ⟨h.exclusive.put (fun j u hj => h.lt_length hj) hi htasks hheld, ?_, fun j u hj => ?_⟩
  · rw [hcalls]
    exact h.apart
  · rw [htasks] at hj
    rw [hcalls, htables]
    rcases entry_of_update hj with ⟨rfl, rfl⟩ | ⟨-, hj⟩
    · exact ⟨c, hc, hstage⟩
    · exact h.tasks j u hj

omit [DecidableEq ρ] in
/-- Either way the program has failed, or it is on the track of its call. -/
theorem Stands.stage {i : ℕ} {c : κ} {t : Task σ ρ ν ε α} {s : σ} {new : List (Entry ε α)}
    (h : Stands S D Q i c t s new) : (∃ e, t.program = .done (.error e)) ∨ Tracks S D Q c t s := by
  rcases h with ⟨-, -, htracks⟩ | ⟨e, hp, -⟩
  · exact .inr htracks
  · exact .inl ⟨e, hp⟩

omit [DecidableEq ρ] in
/-- The tables that a commit leaves suit the other transactions. -/
theorem Sound.rely_commit (h : Sound S D Q w) (hD : Disciplined S D Q) {i j : ℕ} {c d : κ}
    {t u : Task σ ρ ν ε α} {a : α} (hi : w.tasks i = some t) (hc : w.calls[i]? = some c)
    (hp : t.program = .done (.ok a)) (htracks : Tracks S D Q c t w.tables) (hji : j ≠ i)
    (hj : w.tasks j = some u) (hd : w.calls[j]? = some d) (hready : D.Ready d w.tables) :
    D.Rely d u.held w.tables (t.write w.tables) := by
  obtain ⟨hevolves, hagree, happart⟩ := hD.effect htracks.ready (htracks.commit hp)
  refine ⟨hevolves, happart d (h.apart i j c d hc hd hji.symm) hready, fun g hg => ?_⟩
  rcases htracks.guarded with ⟨-, hwrite⟩ | ⟨g', hg', -, hregion⟩
  · rw [hwrite]
    exact D.agree_refl g _
  · refine hagree g fun hsame => hji ?_
    rw [hregion _ (D.evolves_refl _)] at hsame
    obtain rfl := Option.some.inj hsame
    exact h.exclusive j i u t _ hj hi hg hg'

/-- **Every step keeps the callers sound.** -/
theorem Sound.of_turn (h : Sound S D Q w) (hD : Disciplined S D Q) {new : List (Entry ε α)}
    (ht : Turn S D Q w w' new) : Sound S D Q w' := by
  cases ht with
  | same => exact h
  | drop i => exact h.leave i rfl rfl fun j t c _ _ _ htracks => htracks
  | @start c new hadmits hstands =>
    refine ⟨h.exclusive.start rfl rfl, apart_of_concat h.apart (hD.admitted hadmits).2, fun j u hj => ?_⟩
    rcases entry_of_update hj with ⟨rfl, rfl⟩ | ⟨-, hj⟩
    · exact ⟨c, List.getElem?_concat_length .., hstands.stage⟩
    · obtain ⟨d, hd, hstage⟩ := h.tasks j u hj
      exact ⟨d, (List.getElem?_append_left (h.lt_length hj)).trans hd, hstage⟩
  | move hi hc hruns hheld hstands => exact h.put hi hc rfl rfl rfl hheld hstands.stage
  | fault hi hc hruns he =>
    exact h.put hi hc rfl rfl rfl (fun row hrow => .inl hrow) (.inl ⟨_, rfl⟩)
  | @commit i c t a hi hc hp htracks =>
    refine h.leave i rfl rfl fun j u d hji hj hd hu => hu.rely ?_
    exact h.rely_commit hD hi hc hp htracks hji hj hd hu.ready
  | @finish i t e hi hp => exact h.leave i rfl rfl fun j t c _ _ _ htracks => htracks

end steps

/-! ## Runs -/

/-- `d` comes after every call that returned before it started. -/
def Ordered (earlier : ℕ → ℕ → Bool) (log : List (Entry ε α)) : Prop :=
  ∀ l₁ d l₂, log = l₁ ++ d :: l₂ → ∀ j, earlier d.call j = true → ∃ e ∈ l₁, e.call = j

/-- A call may be put behind all that returned before it started. -/
theorem Ordered.concat {earlier : ℕ → ℕ → Bool} {log : List (Entry ε α)} (h : Ordered earlier log)
    {e : Entry ε α} (he : ∀ j, earlier e.call j = true → ∃ d ∈ log, d.call = j) :
    Ordered earlier (log ++ [e]) := by
  intro l₁ d l₂ heq j hj
  rcases List.eq_nil_or_concat l₂ with rfl | ⟨l₂', d', rfl⟩
  · obtain ⟨rfl, hlast⟩ := List.append_inj' heq rfl
    obtain rfl := List.singleton_inj.mp hlast
    exact he j hj
  · rw [List.concat_eq_append, ← List.cons_append, ← List.append_assoc] at heq
    obtain ⟨hlog, -⟩ := List.append_inj' heq rfl
    exact h l₁ d l₂' hlog j hj

/-- **A serial order of the calls**: one after the other they leave the same tables, those that
returned have their results, no call comes twice, and a call that returned before another started comes
first. -/
structure SerialOrder (S : System κ σ ρ ν ε α) (s₀ : σ) (w : World κ σ ρ ν ε α)
    (log : List (Entry ε α)) : Prop where
  serial : Serial S w.calls s₀ log w.tables
  returned : ∀ i r, w.results i = some r → ∃ e ∈ log, e.call = i ∧ e.result = r
  once : (log.map Entry.call).Nodup
  ordered : Ordered w.earlier log

/-- A serial order that has all calls that failed, and no call that may still succeed. -/
structure Logged (S : System κ σ ρ ν ε α) (s₀ : σ) (w : World κ σ ρ ν ε α)
    (log : List (Entry ε α)) : Prop extends SerialOrder S s₀ w log where
  failed : ∀ i t x, w.tasks i = some t → t.program = .done (.error x) →
    ∃ e ∈ log, e.call = i ∧ e.result = .error x
  decided : ∀ e ∈ log, e.call < w.calls.length ∧
    ∀ t, w.tasks e.call = some t → ∃ x, t.program = .done (.error x)
  early : ∀ i j, w.earlier i j = true → ∃ e ∈ log, e.call = j

section runs

variable [DecidableEq ρ] {S : System κ σ ρ ν ε α} {D : Regions κ σ ρ γ}
  {Q : κ → Task σ ρ ν ε α → σ → Prop} {w w' : World κ σ ρ ν ε α} {s₀ : σ} {log : List (Entry ε α)}

omit [DecidableEq ρ] in
/-- A call takes its turn in the order. -/
theorem SerialOrder.concat (h : SerialOrder S s₀ w log) {e : Entry ε α}
    (hearly : ∀ i j, w.earlier i j = true → ∃ d ∈ log, d.call = j)
    (hnew : ∀ d ∈ log, d.call ≠ e.call) (htakes : e.Takes S w.calls w.tables w'.tables)
    (hcalls : w'.calls = w.calls) (hearlier : w'.earlier = w.earlier)
    (hresults : ∀ i r, w'.results i = some r → w.results i = some r ∨ e.call = i ∧ e.result = r) :
    SerialOrder S s₀ w' (log ++ [e]) where
  serial := by
    rw [hcalls]
    exact h.serial.append ⟨_, htakes, rfl⟩
  returned i r hi := by
    rcases hresults i r hi with hold | he
    · obtain ⟨d, hd, hcall⟩ := h.returned i r hold
      exact ⟨d, List.mem_append_left _ hd, hcall⟩
    · exact ⟨e, by simp, he⟩
  once := by
    rw [List.map_append, List.nodup_append]
    refine ⟨h.once, by simp, ?_⟩
    rintro _ hd _ he rfl
    obtain ⟨d, hd, hcall⟩ := List.mem_map.mp hd
    simp only [List.map_cons, List.map_nil, List.mem_singleton] at he
    exact hnew d hd (hcall.trans he)
  ordered := by
    rw [hearlier]
    exact h.ordered.concat fun j hj => hearly _ j hj

omit [DecidableEq ρ] in
/-- Nothing takes its turn. -/
theorem SerialOrder.same (h : SerialOrder S s₀ w log) (hcalls : w'.calls = w.calls)
    (htables : w'.tables = w.tables) (hearlier : w'.earlier = w.earlier)
    (hresults : ∀ i r, w'.results i = some r → ∃ e ∈ log, e.call = i ∧ e.result = r) :
    SerialOrder S s₀ w' log where
  serial := by
    rw [hcalls, htables]
    exact h.serial
  returned := hresults
  once := h.once
  ordered := by
    rw [hearlier]
    exact h.ordered

omit [DecidableEq ρ] in
/-- A transaction that runs is not in the order yet. -/
theorem Logged.new (h : Logged S s₀ w log) {i : ℕ} {t : Task σ ρ ν ε α} (hi : w.tasks i = some t)
    (hruns : ∀ e, t.program ≠ .done (.error e)) : ∀ d ∈ log, d.call ≠ i := by
  rintro d hd rfl
  obtain ⟨x, hx⟩ := (h.decided d hd).2 t hi
  exact hruns x hx

omit [DecidableEq ρ] in
/-- A transaction goes on; when its call fails, the call takes its turn. -/
theorem Logged.put (h : Logged S s₀ w log) {i : ℕ} {c : κ} {t t' : Task σ ρ ν ε α}
    {new : List (Entry ε α)} {v : ν} (hi : w.tasks i = some t) (hc : w.calls[i]? = some c)
    (hruns : ∀ e, t.program ≠ .done (.error e))
    (hnew : new = [] ∧ (∀ e, t'.program ≠ .done (.error e)) ∨
      ∃ e, new = [e] ∧ e.call = i ∧ e.Takes S w.calls w.tables w.tables ∧
        t'.program = .done e.result ∧ ∃ x, e.result = .error x) :
    Logged S s₀ { w.setTask i t' with store := v } (log ++ new) := by
  have hfresh := h.new hi hruns
  have hlt : i < w.calls.length := (List.getElem?_eq_some_iff.mp hc).1
  have hother : ∀ d ∈ log, ∀ u, (w.setTask i t').tasks d.call = some u →
      ∃ x, u.program = .done (.error x) := by
    intro d hd u hu
    rcases entry_of_update hu with ⟨hdi, -⟩ | ⟨-, hu⟩
    · exact absurd hdi (hfresh d hd)
    · exact (h.decided d hd).2 u hu
  rcases hnew with ⟨rfl, hruns'⟩ | ⟨e, rfl, rfl, htakes, hp', x, hx⟩
  · rw [List.append_nil]
    refine ⟨h.toSerialOrder.same rfl rfl rfl h.returned, fun j u x hj hx => ?_,
      fun d hd => ⟨(h.decided d hd).1, hother d hd⟩, h.early⟩
    rcases entry_of_update hj with ⟨-, rfl⟩ | ⟨-, hj⟩
    · exact absurd hx (hruns' x)
    · exact h.failed j u x hj hx
  · refine ⟨h.toSerialOrder.concat h.early hfresh htakes rfl rfl fun j r hj => .inl hj,
      fun j u y hj hy => ?_, fun d hd => ?_, fun j k hjk => ?_⟩
    · rcases entry_of_update hj with ⟨rfl, rfl⟩ | ⟨-, hj⟩
      · exact ⟨e, by simp, rfl, Txn.done.inj (hp'.symm.trans hy)⟩
      · obtain ⟨d, hd, hcall⟩ := h.failed j u y hj hy
        exact ⟨d, List.mem_append_left _ hd, hcall⟩
    · rcases List.mem_append.mp hd with hd | hd
      · exact ⟨(h.decided d hd).1, hother d hd⟩
      · obtain rfl := List.mem_singleton.mp hd
        refine ⟨hlt, fun u hu => ?_⟩
        rcases entry_of_update hu with ⟨-, rfl⟩ | ⟨hne, -⟩
        · exact ⟨x, hx ▸ hp'⟩
        · exact absurd rfl hne
    · obtain ⟨d, hd, hcall⟩ := h.early j k hjk
      exact ⟨d, List.mem_append_left _ hd, hcall⟩

omit [DecidableEq ρ] in
/-- A transaction ends without a turn. -/
theorem Logged.leave (h : Logged S s₀ w log) (i : ℕ) (hcalls : w'.calls = w.calls)
    (htables : w'.tables = w.tables) (hearlier : w'.earlier = w.earlier)
    (htasks : w'.tasks = Function.update w.tasks i none)
    (hresults : ∀ j r, w'.results j = some r → ∃ e ∈ log, e.call = j ∧ e.result = r) :
    Logged S s₀ w' log := by
  refine ⟨h.toSerialOrder.same hcalls htables hearlier hresults, fun j u x hj hx => ?_,
    fun d hd => ⟨?_, fun u hu => ?_⟩, fun j k hjk => h.early j k (hearlier ▸ hjk)⟩
  · rw [htasks] at hj
    exact h.failed j u x (entry_of_erase hj).2 hx
  · rw [hcalls]
    exact (h.decided d hd).1
  · rw [htasks] at hu
    exact (h.decided d hd).2 u (entry_of_erase hu).2

/-- **Every step keeps the order**, and puts at most one call behind it. -/
theorem Logged.of_turn (h : Logged S s₀ w log) {new : List (Entry ε α)}
    (ht : Turn S D Q w w' new) : Logged S s₀ w' (log ++ new) := by
  cases ht with
  | same => rwa [List.append_nil]
  | drop i =>
    rw [List.append_nil]
    exact h.leave i rfl rfl rfl rfl h.returned
  | @start c new hadmits hstands =>
    have hnone : ∀ d ∈ log, d.call ≠ w.calls.length := fun d hd =>
      Nat.ne_of_lt (h.decided d hd).1
    have hearly : ∀ i j, Function.update w.earlier w.calls.length (fun j => (w.results j).isSome) i j =
        true → ∃ e ∈ log, e.call = j := by
      intro i j hj
      by_cases hi : i = w.calls.length
      · subst hi
        rw [Function.update_self] at hj
        obtain ⟨r, hr⟩ := Option.isSome_iff_exists.mp hj
        obtain ⟨e, he, hcall, -⟩ := h.returned j r hr
        exact ⟨e, he, hcall⟩
      · rw [Function.update_of_ne hi] at hj
        exact h.early i j hj
    -- the order of the world in which the call has begun, before it fails
    have hbegun : SerialOrder S s₀ { w with
        calls := w.calls ++ [c]
        earlier := Function.update w.earlier w.calls.length fun j => (w.results j).isSome } log := by
      refine ⟨h.serial.more [c], h.returned, h.once, fun l₁ d l₂ hlog j hj => ?_⟩
      have hd : d ∈ log := by
        rw [hlog]
        exact List.mem_append_right _ List.mem_cons_self
      dsimp only at hj
      rw [Function.update_of_ne (hnone d hd)] at hj
      exact h.ordered l₁ d l₂ hlog j hj
    have hother : ∀ d ∈ log, d.call < (w.calls ++ [c]).length ∧ ∀ u,
        Function.update w.tasks w.calls.length (some { program := S.program c }) d.call = some u →
          ∃ x, u.program = .done (.error x) := by
      intro d hd
      refine ⟨by simpa using Nat.lt_succ_of_lt (h.decided d hd).1, fun u hu => ?_⟩
      rcases entry_of_update hu with ⟨hcall, -⟩ | ⟨-, hu⟩
      · exact absurd hcall (hnone d hd)
      · exact (h.decided d hd).2 u hu
    rcases hstands with ⟨rfl, hruns, -⟩ | ⟨e, hp, halone, rfl⟩
    · rw [List.append_nil]
      refine ⟨⟨hbegun.serial, h.returned, h.once, hbegun.ordered⟩, fun j u x hj hx => ?_, hother, hearly⟩
      rcases entry_of_update hj with ⟨-, rfl⟩ | ⟨-, hj⟩
      · exact absurd hx (hruns x)
      · exact h.failed j u x hj hx
    · have htakes : Entry.Takes S (w.calls ++ [c]) (⟨w.calls.length, .error e, false⟩ : Entry ε α)
          w.tables w.tables := ⟨c, by simp, halone⟩
      refine ⟨hbegun.concat hearly hnone htakes rfl rfl fun j r hj => .inl hj, fun j u x hj hx => ?_,
        fun d hd => ?_, fun i j hj => ?_⟩
      · rcases entry_of_update hj with ⟨rfl, rfl⟩ | ⟨-, hj⟩
        · exact ⟨_, List.mem_append_right _ List.mem_cons_self, rfl, Txn.done.inj (hp.symm.trans hx)⟩
        · obtain ⟨d, hd, hcall⟩ := h.failed j u x hj hx
          exact ⟨d, List.mem_append_left _ hd, hcall⟩
      · rcases List.mem_append.mp hd with hd | hd
        · exact hother d hd
        · obtain rfl := List.mem_singleton.mp hd
          refine ⟨by simp, fun u hu => ?_⟩
          rcases entry_of_update hu with ⟨-, rfl⟩ | ⟨hne, -⟩
          · exact ⟨e, hp⟩
          · exact absurd rfl hne
      · obtain ⟨d, hd, hcall⟩ := hearly i j hj
        exact ⟨d, List.mem_append_left _ hd, hcall⟩
  | @move i c t t' v new hi hc hruns hheld hstands =>
    refine h.put hi hc hruns ?_
    rcases hstands with ⟨rfl, hruns', -⟩ | ⟨e, hp, halone, rfl⟩
    · exact .inl ⟨rfl, hruns'⟩
    · exact .inr ⟨_, rfl, rfl, ⟨c, hc, halone⟩, hp, e, rfl⟩
  | @fault i c t v e hi hc hruns he =>
    have hresult : (Except.error e : Except ε α) = .error (S.fault c) ∨
        (Except.error e : Except ε α) = .error S.lost :=
      he.imp (congrArg _) (congrArg _)
    exact h.put hi hc hruns (.inr ⟨_, rfl, rfl, ⟨c, hc, rfl, hresult⟩, rfl, e, rfl⟩)
  | @commit i c t a hi hc hp htracks =>
    have hfresh := h.new hi fun e he => by rw [hp] at he; cases he
    have htakes : Entry.Takes S w.calls (⟨i, .ok a, false⟩ : Entry ε α) w.tables
        (t.write w.tables) := ⟨c, hc, htracks.commit hp⟩
    refine ⟨h.toSerialOrder.concat h.early hfresh htakes rfl rfl fun j r hj => ?_,
      fun j u x hj hx => ?_, fun d hd => ?_, fun j k hjk => ?_⟩
    · rcases entry_of_update hj with ⟨rfl, rfl⟩ | ⟨-, hj⟩
      · exact .inr ⟨rfl, rfl⟩
      · exact .inl hj
    · obtain ⟨d, hd, hcall⟩ := h.failed j u x (entry_of_erase hj).2 hx
      exact ⟨d, List.mem_append_left _ hd, hcall⟩
    · rcases List.mem_append.mp hd with hd | hd
      · exact ⟨(h.decided d hd).1, fun u hu => (h.decided d hd).2 u (entry_of_erase hu).2⟩
      · obtain rfl := List.mem_singleton.mp hd
        exact ⟨(List.getElem?_eq_some_iff.mp hc).1, fun u hu => absurd rfl (entry_of_erase hu).1⟩
    · obtain ⟨d, hd, hcall⟩ := h.early j k hjk
      exact ⟨d, List.mem_append_left _ hd, hcall⟩
  | @finish i t e hi hp =>
    rw [List.append_nil]
    refine h.leave i rfl rfl rfl rfl fun j r hj => ?_
    rcases entry_of_update hj with ⟨rfl, rfl⟩ | ⟨-, hj⟩
    · exact h.failed j t e hi hp
    · exact h.returned j r hj

omit [DecidableEq ρ] in
/-- Before anybody has called. -/
theorem sound_initial (s : σ) (v : ν) : Sound S D Q (World.initial s v) :=
  ⟨fun _ _ _ _ _ hi => nofun, fun _ _ _ _ hc => by simp [World.initial] at hc, fun _ _ => nofun⟩

omit [DecidableEq ρ] in
/-- The empty order is one of no calls. -/
theorem logged_initial (s : σ) (v : ν) : Logged S s (World.initial s v) [] where
  serial := rfl
  returned _ _ := nofun
  once := List.nodup_nil
  ordered l₁ d l₂ h := by simp at h
  failed _ _ _ := nofun
  decided _ := nofun
  early _ _ := nofun

/-- **Every run is serializable.** -/
theorem serializable (hD : Disciplined S D Q) (s : σ) (v : ν) (as : List (Act κ)) :
    ∃ log, SerialOrder S s (Runs.run (World.step S) (World.initial s v) as) log := by
  have hrun : Sound S D Q (Runs.run (World.step S) (World.initial s v) as) ∧
      ∃ log, Logged S s (Runs.run (World.step S) (World.initial s v) as) log := by
    refine Runs.run_invariant (I := fun w => Sound S D Q w ∧ ∃ log, Logged S s w log) _
      (fun w a h => ?_) as ⟨sound_initial s v, [], logged_initial s v⟩
    obtain ⟨hsound, log, hlogged⟩ := h
    obtain ⟨new, ht⟩ := hsound.turn hD a
    exact ⟨hsound.of_turn hD ht, _, hlogged.of_turn ht⟩
  obtain ⟨-, log, hlogged⟩ := hrun
  exact ⟨log, hlogged.toSerialOrder⟩

/-! ## What follows for the tables -/

/-- A step leaves the tables as they are, or commits what a call does alone. -/
theorem Sound.tables (h : Sound S D Q w) (a : Act κ) :
    (w.step S a).tables = w.tables ∨ ∃ (i : ℕ) (c : κ) (x : α), a = .run i ∧
      w.calls[i]? = some c ∧ D.Ready c w.tables ∧
      (S.program c).Alone w.tables (.ok x) (w.step S a).tables ∧
      (w.step S a).results i = some (.ok x) := by
  by_cases hsame : (w.step S a).tables = w.tables
  · exact .inl hsame
  · obtain ⟨i, t, x, rfl, hi, hp, hstep⟩ := World.tables_step hsame
    obtain ⟨c, hc, ⟨e, he⟩ | htracks⟩ := h.tasks i t hi
    · rw [hp] at he
      cases he
    · rw [hstep]
      exact .inr ⟨i, c, x, rfl, hc, htracks.ready, htracks.commit hp, Function.update_self ..⟩

/-- The callers are sound after every step. -/
theorem Sound.step (h : Sound S D Q w) (hD : Disciplined S D Q) (a : Act κ) :
    Sound S D Q (w.step S a) := by
  obtain ⟨new, ht⟩ := h.turn hD a
  exact h.of_turn hD ht

/-- Every run keeps the calls sound. -/
theorem Sound.run (h : Sound S D Q w) (hD : Disciplined S D Q) (as : List (Act κ)) :
    Sound S D Q (Runs.run (World.step S) w as) :=
  Runs.run_invariant _ (fun _ a h => h.step hD a) as h

/-- The tables evolve along every run. -/
theorem Sound.evolves (h : Sound S D Q w) (hD : Disciplined S D Q) (as : List (Act κ)) :
    D.Evolves w.tables (Runs.run (World.step S) w as).tables := by
  refine Runs.run_rel (I := Sound S D Q) (R := fun w w' => D.Evolves w.tables w'.tables) _
    (fun w => D.evolves_refl _) (fun _ _ _ => D.evolves_trans _ _ _) (fun _ a h => h.step hD a)
    (fun w a h => ?_) as h
  rcases h.tables a with hsame | ⟨i, c, x, -, -, hready, halone, -⟩
  · rw [hsame]
    exact D.evolves_refl _
  · exact (hD.effect hready halone).1

/-- **Invariant rule**: what every call keeps alone, every run keeps. -/
theorem Sound.tables_invariant (h : Sound S D Q w) (hD : Disciplined S D Q) {I : σ → Prop}
    (hI : ∀ c s a t, D.Ready c s → (S.program c).Alone s (.ok a) t → I s → I t)
    (as : List (Act κ)) (hw : I w.tables) : I (Runs.run (World.step S) w as).tables := by
  refine (Runs.run_invariant (I := fun w => Sound S D Q w ∧ I w.tables) _ (fun w a h => ?_) as
    ⟨h, hw⟩).2
  refine ⟨h.1.step hD a, ?_⟩
  rcases h.1.tables a with hsame | ⟨i, c, x, -, -, hready, halone, -⟩
  · rw [hsame]
    exact h.2
  · exact hI c _ x _ hready halone h.2

/-- What holds of the tables at the end of a run and not at its start, a commit has brought about. -/
theorem Sound.exists_commit (h : Sound S D Q w) (hD : Disciplined S D Q) {P : σ → Prop}
    (as : List (Act κ)) (hstart : ¬ P w.tables)
    (hend : P (Runs.run (World.step S) w as).tables) :
    ∃ as₁ i as₂ c x, as = as₁ ++ .run i :: as₂ ∧
      (Runs.run (World.step S) w as).calls[i]? = some c ∧
      D.Ready c (Runs.run (World.step S) w as₁).tables ∧
      ¬ P (Runs.run (World.step S) w as₁).tables ∧
      P (Runs.run (World.step S) w (as₁ ++ [.run i])).tables ∧
      (S.program c).Alone (Runs.run (World.step S) w as₁).tables (.ok x)
        (Runs.run (World.step S) w (as₁ ++ [.run i])).tables ∧
      (Runs.run (World.step S) w (as₁ ++ [.run i])).results i = some (.ok x) := by
  obtain ⟨as₁, a, as₂, rfl, hbefore, hafter⟩ :=
    Runs.exists_step (World.step S) (P := fun w => P w.tables) as hstart hend
  rw [Runs.run_append] at hafter
  rcases (h.run hD as₁).tables a with hsame | ⟨i, c, x, rfl, hc, hready, halone, hresult⟩
  · exact absurd (hsame ▸ hafter) hbefore
  · refine ⟨as₁, i, as₂, c, x, rfl, ?_, hready, hbefore, ?_, ?_, ?_⟩
    · rw [Runs.run_append]
      exact World.calls_run _ _ _ hc
    all_goals
      rw [Runs.run_append]
      assumption

omit [DecidableEq ρ] in
/-- The next statement of a transaction that has not failed passes the check. -/
theorem Sound.check (h : Sound S D Q w) {i : ℕ} {t : Task σ ρ ν ε α} (hi : w.tasks i = some t)
    (hruns : ∀ e, t.program ≠ .done (.error e)) :
    ∃ c, w.calls[i]? = some c ∧ Q c t w.tables := by
  obtain ⟨c, hc, ⟨e, hp⟩ | htracks⟩ := h.tasks i t hi
  · exact absurd hp (hruns e)
  · exact ⟨c, hc, htracks.throughout.head htracks.ready⟩

end runs

end CampusHub.Foundations.Transactions
