import CampusHub.Foundations.Pools

/-!
# Programs that call a shared store

* `Prog` — a program between its calls of the store: what it calls next, and how it goes on.
* `Code` — a program that may throw.
* `Safe` — the judgement of rely and guarantee: whatever happens between two of its calls within `R`, each of
  its calls stays within `G`, and it ends with `Q`.
* `safe_bind`, `safe_ask`, `safe_code`, `safe_rethrow` — its rules.
* `machine`, `safe_run` — programs under way over one store, and the soundness of the judgement;
  `safe_own_run` — a judgement about one of them alone.
* `Within`, `within_run` — a program makes so many calls at most, and so has returned after so many moves.

Two kinds of statements are proved here about programs that run over one store at the same time. What a
program may do to the store while the others do what they may is a judgement `Safe`, with one rule for each
way in which a program is built; `safe_run` says that in every run of permitted steps all programs under way
stay safe, so that each ends with its promise. How long a program takes is a count of its own calls, and
`within_run` says that after so many moves it has returned, whatever the others do in between.

The induction of `Safe` is on the program: between two calls it is closed under what the surroundings rely
on (`Safe.later`), which is why no rule has to mention the other programs. `safe_own_run` gives the same for
one program under a narrower condition on its own choices, for promises that fail only when its own calls
do.

Not here: fairness. A program that is never moved does not return.
-/

namespace CampusHub.Foundations.Programs

open CampusHub.Foundations.Maps CampusHub.Foundations.Pools

/-- A program with calls `κ`, answered by `ρ`. -/
inductive Prog (κ : Type) (ρ : κ → Type) (α : Type) where
  | ret (a : α)
  | call (c : κ) (next : ρ c → Prog κ ρ α)

variable {κ : Type} {ρ : κ → Type} {α β : Type}

namespace Prog

/-- One program after another. -/
def bind : Prog κ ρ α → (α → Prog κ ρ β) → Prog κ ρ β
  | .ret a, f => f a
  | .call c next, f => .call c fun r => (next r).bind f

instance : Monad (Prog κ ρ) where
  pure := ret
  bind := bind

/-- What a program has returned. -/
def result : Prog κ ρ α → Option α
  | .ret a => some a
  | .call _ _ => none

/-- A program has returned a value exactly when it is over with that value. -/
@[simp] theorem result_eq_some {p : Prog κ ρ α} {a : α} : p.result = some a ↔ p = .ret a := by
  cases p <;> simp [result]

end Prog

/-- A program that may throw. -/
abbrev Code (κ : Type) (ρ : κ → Type) (ε α : Type) := ExceptT ε (Prog κ ρ) α

/-- A call of the store in a program that may throw. -/
def Code.ask {ε : Type} (c : κ) : Code κ ρ ε (ρ c) := ExceptT.mk (.call c fun r => .ret (.ok r))

/-- What is thrown, thrown as something else. -/
def Code.rethrow {ε ε' : Type} (f : ε → ε') (p : Code κ ρ ε α) : Code κ ρ ε' α :=
  ExceptT.mk (p.run.bind fun r => .ret (r.mapError f))

/-! ## Rely and guarantee -/

section safe

variable {σ δ : Type} (exec : δ → σ → (c : κ) → ρ c × σ) (D : δ → Prop) (G R : σ → σ → Prop)

/-- **Rely and guarantee.** Between its calls the store moves within `R`, and `D` holds of what is chosen in
them; then each call is within `G`, and at its end and from then on `Q` holds. -/
def Safe (Q : α → σ → Prop) : Prog κ ρ α → σ → Prop
  | .ret a, s => ∀ s', R s s' → Q a s'
  | .call c next, s => ∀ s', R s s' → ∀ d, D d →
      G s' (exec d s' c).2 ∧ Safe Q (next (exec d s' c).1) (exec d s' c).2

variable {exec D G R}

/-- What others do within `R` does not disturb a program. -/
theorem Safe.later (htrans : ∀ s₁ s₂ s₃, R s₁ s₂ → R s₂ s₃ → R s₁ s₃) {Q : α → σ → Prop}
    {p : Prog κ ρ α} {s s' : σ} (h : Safe exec D G R Q p s) (hs : R s s') : Safe exec D G R Q p s' := by
  cases p with
  | ret a => exact fun s₂ h₂ => h s₂ (htrans _ _ _ hs h₂)
  | call c next => exact fun s₂ h₂ => h s₂ (htrans _ _ _ hs h₂)

/-- A program that is over is safe when what the surroundings do keeps what it promises. -/
theorem safe_ret {Q : α → σ → Prop} {a : α} {s : σ} (h : ∀ s', R s s' → Q a s') :
    Safe exec D G R Q (.ret a) s := h

/-- **The rule of sequence.** -/
theorem safe_bind (hrefl : ∀ s, R s s) {Q : α → σ → Prop} {Q' : β → σ → Prop} {f : α → Prog κ ρ β}
    (hf : ∀ a s, Q a s → Safe exec D G R Q' (f a) s) :
    ∀ (p : Prog κ ρ α) (s : σ), Safe exec D G R Q p s → Safe exec D G R Q' (p.bind f) s
  | .ret a, s, h => hf a s (h s (hrefl s))
  | .call c next, _, h => fun s' hs d hd =>
      ⟨(h s' hs d hd).1, safe_bind hrefl hf (next (exec d s' c).1) _ (h s' hs d hd).2⟩

/-- **The rule of a call.** -/
theorem safe_ask {ε : Type} {c : κ} {f : ρ c → Code κ ρ ε α} {Q : Except ε α → σ → Prop} {s : σ}
    (h : ∀ s', R s s' → ∀ d, D d → G s' (exec d s' c).2 ∧
      Safe exec D G R Q (f (exec d s' c).1).run (exec d s' c).2) :
    Safe exec D G R Q (Code.ask c >>= f).run s := h

/-- A call that throws or goes on. -/
theorem safe_code {ε : Type} (hrefl : ∀ s, R s s) {Q : Except ε α → σ → Prop} {Q' : Except ε β → σ → Prop}
    {p : Code κ ρ ε α} {f : α → Code κ ρ ε β} {s : σ} (h : Safe exec D G R Q p.run s)
    (hok : ∀ a s, Q (.ok a) s → Safe exec D G R Q' (f a).run s)
    (herror : ∀ e s, Q (.error e) s → ∀ s', R s s' → Q' (.error e) s') :
    Safe exec D G R Q' (p >>= f).run s := by
  refine safe_bind hrefl (fun r s hr => ?_) p.run s h
  cases r with
  | ok a => exact hok a s hr
  | error e => exact herror e s hr

/-- Throwing something else instead changes the promise only. -/
theorem safe_rethrow {ε ε' : Type} {g : ε → ε'} (hrefl : ∀ s, R s s) {Q : Except ε α → σ → Prop}
    {Q' : Except ε' α → σ → Prop} {p : Code κ ρ ε α} {s : σ} (h : Safe exec D G R Q p.run s)
    (hQ : ∀ r s, Q r s → ∀ s', R s s' → Q' (r.mapError g) s') : Safe exec D G R Q' (p.rethrow g).run s :=
  safe_bind hrefl (fun r s hr => safe_ret (hQ r s hr)) p.run s h

end safe

/-! ## Programs under way -/

/-- A request and its program. -/
structure Task (γ : Type) (κ : Type) (ρ : κ → Type) (α : Type) where
  request : γ
  prog : Prog κ ρ α

section machine

variable {σ δ γ ε : Type}

/-- Programs over one store. -/
def machine (exec : δ → σ → (c : κ) → ρ c × σ) (start : γ → Prog κ ρ α) (drift : ε → σ → σ) :
    System σ γ (Task γ κ ρ α) δ ε where
  enter _ r := ⟨r, start r⟩
  move d s t :=
    match t.prog with
    | .ret _ => (s, t)
    | .call c next => ((exec d s c).2, ⟨t.request, next (exec d s c).1⟩)
  drift := drift

variable {exec : δ → σ → (c : κ) → ρ c × σ} {start : γ → Prog κ ρ α} {drift : ε → σ → σ}

/-- A move keeps the request. -/
@[simp] theorem request_move {d : δ} {s : σ} {t : Task γ κ ρ α} :
    ((machine exec start drift).move d s t).2.request = t.request := by
  unfold machine
  dsimp only
  split <;> rfl

variable {D : δ → Prop} {G : γ → σ → σ → Prop} {R : σ → σ → Prop} {I : σ → Prop} {Q : γ → α → σ → Prop}

/-- The side conditions of a step: a request that is promised for, a choice within `D`, a change of the
surroundings within `R`. -/
def Permitted (D : δ → Prop) (ok : γ → Prop) (R : σ → σ → Prop) (drift : ε → σ → σ)
    (p : Pool σ (Task γ κ ρ α)) : PoolAct γ δ ε → Prop
  | .enter _ r => ok r
  | .move _ d => D d
  | .drift e => R p.store (drift e p.store)

/-- A run whose requests, choices and surroundings are all permitted is permitted step by step. -/
theorem along_permitted {ok : γ → Prop} (as : List (PoolAct γ δ ε)) (p : Pool σ (Task γ κ ρ α))
    (henter : ∀ i r, .enter i r ∈ as → ok r) (hmove : ∀ i d, .move i d ∈ as → D d)
    (hdrift : ∀ s e, R s (drift e s)) :
    Runs.Along (Permitted D ok R drift) (machine exec start drift).step p as := by
  refine Runs.along_of_splits _ as p fun bs act cs has => ?_
  have hact : act ∈ as := has ▸ List.mem_append_right bs List.mem_cons_self
  cases act with
  | enter i r => exact henter i r hact
  | move i d => exact hmove i d hact
  | drift e => exact hdrift _ e

/-- Every program under way is safe. -/
abbrev AllSafe (exec : δ → σ → (c : κ) → ρ c × σ) (D : δ → Prop) (G : γ → σ → σ → Prop) (R : σ → σ → Prop)
    (I : σ → Prop) (Q : γ → α → σ → Prop) : Pool σ (Task γ κ ρ α) → Prop :=
  Asserts I fun s t => Safe exec D (G t.request) R (Q t.request) t.prog s

/-- What the programs rely on, and that they rely on no more than they all guarantee. -/
structure Compatible (G : γ → σ → σ → Prop) (R : σ → σ → Prop) (I : σ → Prop) : Prop where
  refl : ∀ s, R s s
  trans : ∀ s₁ s₂ s₃, R s₁ s₂ → R s₂ s₃ → R s₁ s₃
  guarantee : ∀ r s s', I s → G r s s' → R s s'
  keeps : ∀ s s', I s → R s s' → I s'

section soundness

variable {ok : γ → Prop} (hcompat : Compatible G R I)
  (hstart : ∀ r s, ok r → I s → Safe exec D (G r) R (Q r) (start r) s)
include hcompat

/-- A move of a safe program is within its guarantee. -/
theorem safe_move {d : δ} (hd : D d) {s : σ} {t : Task γ κ ρ α} (hI : I s)
    (ht : Safe exec D (G t.request) R (Q t.request) t.prog s) :
    (s = ((machine exec start drift).move d s t).1 ∨
        G t.request s ((machine exec start drift).move d s t).1) ∧
      R s ((machine exec start drift).move d s t).1 ∧
      Safe exec D (G t.request) R (Q t.request) ((machine exec start drift).move d s t).2.prog
        ((machine exec start drift).move d s t).1 := by
  obtain ⟨r, p⟩ := t
  cases p with
  | ret a => exact ⟨.inl rfl, hcompat.refl s, ht⟩
  | call c next =>
    obtain ⟨hG, hnext⟩ := ht s (hcompat.refl s) d hd
    exact ⟨.inr hG, hcompat.guarantee _ _ _ hI hG, hnext⟩

/-- What a move does to the store is within the guarantee of its program. -/
theorem safe_guarantee {p : Pool σ (Task γ κ ρ α)} (h : AllSafe exec D G R I Q p) {d : δ} (hd : D d) (i : ℕ) :
    ((machine exec start drift).step p (.move i d)).store = p.store ∨ ∃ t, p.calls i = some t ∧
      G t.request p.store ((machine exec start drift).step p (.move i d)).store := by
  cases ht : p.calls i with
  | none => exact .inl (by simp only [System.step, ht])
  | some t =>
    rw [System.step_move _ ht]
    rcases (safe_move hcompat hd h.store (h.calls i t ht)).1 with hsame | hG
    · exact .inl hsame.symm
    · exact .inr ⟨t, rfl, hG⟩

include hstart

/-- One step keeps all programs safe, and moves the store within what they rely on. -/
theorem safe_step {p : Pool σ (Task γ κ ρ α)} (h : AllSafe exec D G R I Q p) {act : PoolAct γ δ ε}
    (hact : Permitted D ok R drift p act) :
    AllSafe exec D G R I Q ((machine exec start drift).step p act) ∧
      R p.store ((machine exec start drift).step p act).store := by
  constructor
  · refine Asserts.step h (fun i r hr => ?_) (fun i d t hd ht => ?_) fun e he => ?_
    · subst hr
      exact hstart r p.store hact h.store
    · subst hd
      have hd : D d := hact
      obtain ⟨-, hR, hown⟩ := safe_move hcompat hd h.store (h.calls i t ht)
      refine ⟨hcompat.keeps _ _ h.store hR, ?_, fun j u _ hu => (h.calls j u hu).later hcompat.trans hR⟩
      rw [request_move]
      exact hown
    · subst he
      exact ⟨hcompat.keeps _ _ h.store hact, fun i t ht => (h.calls i t ht).later hcompat.trans hact⟩
  · rcases (machine exec start drift).step_cases p act with hstep | ⟨i, r, -, -, hstep⟩ |
      ⟨i, d, t, rfl, ht, hstep⟩ | ⟨e, rfl, hstep⟩
    · rw [hstep]
      exact hcompat.refl _
    · rw [hstep]
      exact hcompat.refl _
    · have hd : D d := hact
      rw [hstep]
      exact (safe_move hcompat hd h.store (h.calls i t ht)).2.1
    · rw [hstep]
      exact hact

/-- **Soundness of the judgement**: in every run the programs are safe, and the store moves within `R`. -/
theorem safe_run (as : List (PoolAct γ δ ε)) {p : Pool σ (Task γ κ ρ α)} (h : AllSafe exec D G R I Q p)
    (has : Runs.Along (Permitted D ok R drift) (machine exec start drift).step p as) :
    AllSafe exec D G R I Q (Runs.run (machine exec start drift).step p as) ∧
      R p.store (Runs.run (machine exec start drift).step p as).store := by
  induction as generalizing p with
  | nil => exact ⟨h, hcompat.refl _⟩
  | cons act as ih =>
    obtain ⟨hstep, hR⟩ := safe_step hcompat hstart h has.1
    obtain ⟨hrun, hR'⟩ := ih hstep has.2
    exact ⟨hrun, hcompat.trans _ _ _ hR hR'⟩

/-- What a program of its own is safe for, it stays safe for among the others. Its own choices may be within
less than those of the others. -/
theorem safe_own_step {p : Pool σ (Task γ κ ρ α)} (h : AllSafe exec D G R I Q p) {act : PoolAct γ δ ε}
    (hact : Permitted D ok R drift p act) {j : ℕ} {t : Task γ κ ρ α} {D' : δ → Prop} {Q' : α → σ → Prop}
    (hown : ∀ d, act = .move j d → D' d) (ht : p.calls j = some t)
    (hsafe : Safe exec D' (G t.request) R Q' t.prog p.store) :
    ∃ t', ((machine exec start drift).step p act).calls j = some t' ∧ t'.request = t.request ∧
      Safe exec D' (G t.request) R Q' t'.prog ((machine exec start drift).step p act).store := by
  have hR := (safe_step hcompat hstart h hact).2
  rcases (machine exec start drift).step_cases p act with hstep | ⟨i, r, -, hnone, hstep⟩ |
    ⟨i, d, u, rfl, hu, hstep⟩ | ⟨e, rfl, hstep⟩
  · rw [hstep]
    exact ⟨t, ht, rfl, hsafe⟩
  · rw [hstep]
    refine ⟨t, ?_, rfl, hsafe⟩
    refine (Function.update_of_ne (fun hij => ?_) ..).trans ht
    rw [hij, hnone] at ht
    cases ht
  · rw [hstep] at hR ⊢
    by_cases hij : j = i
    · subst hij
      obtain rfl : t = u := by
        rw [hu] at ht
        exact (Option.some.inj ht).symm
      refine ⟨_, Function.update_self .., request_move, ?_⟩
      exact (safe_move (Q := fun _ => Q') hcompat (hown d rfl) h.store hsafe).2.2
    · exact ⟨t, (Function.update_of_ne hij ..).trans ht, rfl, hsafe.later hcompat.trans hR⟩
  · rw [hstep] at hR ⊢
    exact ⟨t, ht, rfl, hsafe.later hcompat.trans hR⟩

/-- **A judgement about one program alone** holds in every run in which its own choices are within `D'`. -/
theorem safe_own_run (as : List (PoolAct γ δ ε)) {p : Pool σ (Task γ κ ρ α)} (h : AllSafe exec D G R I Q p)
    (has : Runs.Along (Permitted D ok R drift) (machine exec start drift).step p as) {j : ℕ}
    {t : Task γ κ ρ α} {D' : δ → Prop} {Q' : α → σ → Prop} (hown : ∀ d, .move j d ∈ as → D' d)
    (ht : p.calls j = some t) (hsafe : Safe exec D' (G t.request) R Q' t.prog p.store) :
    ∃ t', (Runs.run (machine exec start drift).step p as).calls j = some t' ∧ t'.request = t.request ∧
      Safe exec D' (G t.request) R Q' t'.prog (Runs.run (machine exec start drift).step p as).store := by
  induction as generalizing p t with
  | nil => exact ⟨t, ht, rfl, hsafe⟩
  | cons act as ih =>
    obtain ⟨t₁, ht₁, hrequest, hsafe₁⟩ := safe_own_step hcompat hstart h has.1
      (fun d hd => hown d (hd ▸ List.mem_cons_self)) ht hsafe
    rw [← hrequest] at hsafe₁ ⊢
    exact ih (safe_step hcompat hstart h has.1).1 has.2 (fun d hd => hown d (List.mem_cons_of_mem act hd)) ht₁
      hsafe₁

end soundness

/-! ## How many calls a program makes -/

/-- At most so many calls, whatever they answer. -/
inductive Within : ℕ → Prog κ ρ α → Prop where
  | ret (n : ℕ) (a : α) : Within n (.ret a)
  | call {n : ℕ} {c : κ} {next : ρ c → Prog κ ρ α} (h : ∀ r, Within n (next r)) : Within (n + 1) (.call c next)

/-- A larger bound is a bound. -/
theorem Within.mono {m n : ℕ} {p : Prog κ ρ α} (h : Within m p) (hmn : m ≤ n) : Within n p := by
  induction h generalizing n with
  | ret => exact .ret n _
  | call _ ih =>
    obtain ⟨k, rfl⟩ : ∃ k, n = k + 1 := ⟨n - 1, by omega⟩
    exact .call fun r => ih r (by omega)

/-- The calls of two programs in a row add up. -/
theorem Within.bind {β : Type} {m n : ℕ} {p : Prog κ ρ α} {f : α → Prog κ ρ β} (h : Within m p)
    (hf : ∀ a, Within n (f a)) : Within (m + n) (p.bind f) := by
  induction h with
  | ret k a => exact (hf a).mono (Nat.le_add_left _ _)
  | @call k c next _ ih =>
    rw [Nat.succ_add_eq_add_succ]
    exact .call fun r => ih r

/-- A call is one more. -/
theorem within_ask {ε' : Type} {n : ℕ} {c : κ} {f : ρ c → Code κ ρ ε' α} (h : ∀ r, Within n (f r).run) :
    Within (n + 1) (Code.ask c >>= f).run := .call h

/-- The same for programs that may throw. -/
theorem within_code {ε' β : Type} {m n : ℕ} {p : Code κ ρ ε' α} {f : α → Code κ ρ ε' β} (h : Within m p.run)
    (hf : ∀ a, Within n (f a).run) : Within (m + n) (p >>= f).run := by
  refine h.bind fun r => ?_
  cases r with
  | ok a => exact hf a
  | error e => exact .ret n _

/-- Throwing something else instead makes no call. -/
theorem within_rethrow {ε' ε'' : Type} {g : ε' → ε''} {n : ℕ} {p : Code κ ρ ε' α} (h : Within n p.run) :
    Within n (p.rethrow g).run := h.bind fun _ => .ret 0 _

/-- A step of the program with the number. -/
def isMove (j : ℕ) : PoolAct γ δ ε → Bool
  | .move i _ => i = j
  | _ => false

/-- A move makes one of the calls that are left. -/
theorem Within.move {n : ℕ} {t : Task γ κ ρ α} (h : Within (n + 1) t.prog) (d : δ) (s : σ) :
    Within n ((machine exec start drift).move d s t).2.prog := by
  obtain ⟨r, p⟩ := t
  cases h with
  | ret _ a => exact .ret n a
  | call hnext => exact hnext _

/-- A step makes one of the calls that a program has left if it is a move of it, and none otherwise. -/
theorem within_step {p : Pool σ (Task γ κ ρ α)} {j n : ℕ} {t : Task γ κ ρ α} (ht : p.calls j = some t)
    (hn : Within n t.prog) (act : PoolAct γ δ ε) :
    ∃ t', ((machine exec start drift).step p act).calls j = some t' ∧
      Within (n - if isMove j act then 1 else 0) t'.prog := by
  cases act with
  | enter i r =>
    refine ⟨t, ?_, hn⟩
    by_cases hij : i = j
    · subst hij
      simp only [System.step, ht]
    · rw [System.calls_step (a := .enter i r) _ fun h => hij (Option.some.inj h), ht]
  | move i d =>
    by_cases hij : i = j
    · subst hij
      rw [System.step_move _ ht]
      refine ⟨_, Function.update_self .., ?_⟩
      simp only [isMove, decide_true, if_true]
      exact (hn.mono (by omega)).move d p.store
    · refine ⟨t, ?_, by simpa [isMove, hij] using hn⟩
      rw [System.calls_step (a := .move i d) _ fun h => hij (Option.some.inj h), ht]
  | drift e => exact ⟨t, ht, hn⟩

/-- **So many moves and the program has returned**, whatever the others do in between. -/
theorem within_run (as : List (PoolAct γ δ ε)) {p : Pool σ (Task γ κ ρ α)} {j n : ℕ} {t : Task γ κ ρ α}
    (ht : p.calls j = some t) (hn : Within n t.prog) :
    ∃ t', (Runs.run (machine exec start drift).step p as).calls j = some t' ∧
      Within (n - as.countP (isMove j)) t'.prog := by
  induction as generalizing p n t with
  | nil => exact ⟨t, ht, hn⟩
  | cons act as ih =>
    obtain ⟨t₁, ht₁, hn₁⟩ : ∃ t', ((machine exec start drift).step p act).calls j = some t' ∧
        Within (n - if isMove j act then 1 else 0) t'.prog := within_step ht hn act
    rw [List.countP_cons, Nat.add_comm, ← Nat.sub_sub]
    exact ih ht₁ hn₁

/-- A program that has no call left has returned. -/
theorem Within.returned {p : Prog κ ρ α} (h : Within 0 p) : ∃ a, p = .ret a := by
  cases h with
  | ret _ a => exact ⟨a, rfl⟩

end machine

end CampusHub.Foundations.Programs
