import CampusHub.Foundations.Endings

/-!
# What transactions leave to each other

`Foundations.Serializability` asks that a transaction works on one region. Here a transaction may write
where it likes, as long as what it commits suits the others.

* `Txn.bind_assoc` — a program followed by another.
* `Guarantee` — every statement of every call is checked under what the call may rely on, and what it
  commits leaves the others what those rely on.
* `Upheld` — what then holds of all callers; `Upheld.step` keeps it, and `Upheld.outside` says when a
  write from outside does.
* `Upheld.commit` — the tables change by commits that passed the check.

`Guarantee` has three parts: the invariant that commits keep, a check of every statement under what the call
may rely on, and a promise about the tables and the result of a call that comes to its end. `Upheld` says of
all callers at once that the invariant holds, that every running call still passes its check, and that every
call that has returned a result has met its promise. It is kept by every step (`Upheld.step`), by a write
from outside that the calls rely on (`Upheld.outside`), and by failures.

The difference to serializability is in what is asked: no region and no serial order, so that calls which
write to several places are covered, but also no claim that the result of a call is the one it would have
had alone. `Upheld.commit` is the step rule that users need: the tables change at a commit only, and what is
committed has passed its check.
-/

namespace CampusHub.Foundations.Transactions

open CampusHub.Foundations.Maps

variable {κ σ ρ ν ε α β γ : Type}

/-! ## A program followed by another -/

namespace Txn

/-- Three programs in a row. -/
theorem bind_assoc (p : Txn σ ρ ν ε α) (f : α → Txn σ ρ ν ε β) (g : β → Txn σ ρ ν ε γ) :
    (p >>= f) >>= g = p >>= fun a => f a >>= g := by
  induction p with
  | done r =>
    cases r with
    | ok a => rfl
    | error e => rfl
  | select query next ih =>
    show Txn.select _ _ = Txn.select _ _
    congr 1
    funext v
    exact ih v
  | exec row statement next ih =>
    show Txn.exec _ _ _ = Txn.exec _ _ _
    congr 1
    funext v
    exact ih v
  | send command next ih =>
    show Txn.send _ _ = Txn.send _ _
    congr 1
    funext v
    exact ih v

/-- A program followed by nothing. -/
theorem bind_pure (p : Txn σ ρ ν ε α) : (p >>= fun a => pure a) = p := by
  induction p with
  | done r => cases r <;> rfl
  | select query next ih =>
    show Txn.select _ _ = _
    congr 1
    funext v
    exact ih v
  | exec row statement next ih =>
    show Txn.exec _ _ _ = _
    congr 1
    funext v
    exact ih v
  | send command next ih =>
    show Txn.send _ _ = _
    congr 1
    funext v
    exact ih v

/-- What follows a choice follows either side. -/
theorem ite_bind {P : Prop} [Decidable P] (p q : Txn σ ρ ν ε α) (f : α → Txn σ ρ ν ε β) :
    (if P then p else q) >>= f = if P then p >>= f else q >>= f := by
  split <;> rfl

/-- What follows a program that starts with a plain read follows what the read leads to. -/
theorem select_bind {δ : Type} (query : σ → δ) (next : δ → Txn σ ρ ν ε α) (f : α → Txn σ ρ ν ε β) :
    (select query next >>= f) = select query fun v => next v >>= f := rfl

/-- What follows a program that starts with a statement follows what the statement leads to. -/
theorem exec_bind {δ : Type} (row : ρ) (statement : σ → Answer σ δ) (next : δ → Txn σ ρ ν ε α)
    (f : α → Txn σ ρ ν ε β) :
    (exec row statement next >>= f) = exec row statement fun v => next v >>= f := rfl

end Txn

/-! ## Guarantees -/

/-- **A system whose calls leave each other what they rely on.** `I` holds of the committed tables, `Q` is
the check of the statements, and `post` what a call that returned has brought about for good. -/
structure Guarantee (S : System κ σ ρ ν ε α) (D : Regions κ σ ρ γ) (I : σ → Prop)
    (Q : κ → Task σ ρ ν ε α → σ → Prop) (post : κ → Except ε α → σ → Prop) : Prop where
  admitted : ∀ {calls : List κ} {s : σ} {c : κ}, I s → S.admits calls s c = true →
    D.Ready c s ∧ ∀ d ∈ calls, D.Apart d c ∧ D.Apart c d
  throughout : ∀ {c : κ} {s : σ}, D.Ready c s → D.Throughout c (Q c) (S.program c) none id [] s
  keeps : ∀ {c : κ} {t : Task σ ρ ν ε α} {s : σ} {a : α}, D.Ready c s → Q c t s →
    t.program = .done (.ok a) → I s → I (t.write s)
  evolves : ∀ {c : κ} {t : Task σ ρ ν ε α} {s : σ} {a : α}, D.Ready c s → Q c t s →
    t.program = .done (.ok a) → D.Evolves s (t.write s)
  agrees : ∀ {c : κ} {t : Task σ ρ ν ε α} {s : σ} {a : α}, D.Ready c s → Q c t s →
    t.program = .done (.ok a) → ∀ g, D.guard g ∉ t.held → D.Agree g s (t.write s)
  ready : ∀ {c d : κ} {t : Task σ ρ ν ε α} {s : σ} {a : α}, D.Ready c s → Q c t s →
    t.program = .done (.ok a) → D.Apart c d → D.Ready d s → D.Ready d (t.write s)
  commits : ∀ {c : κ} {t : Task σ ρ ν ε α} {s : σ} {a : α}, D.Ready c s → Q c t s →
    t.program = .done (.ok a) → post c (.ok a) (t.write s)
  fails : ∀ {c : κ} {t : Task σ ρ ν ε α} {s : σ} {e : ε}, D.Ready c s → Q c t s →
    t.program = .done (.error e) → post c (.error e) s
  stable : ∀ {c : κ} {r : Except ε α} {s s' : σ}, D.Evolves s s' → post c r s → post c r s'

/-! ## All callers -/

section upheld

variable [DecidableEq ρ] (S : System κ σ ρ ν ε α) (D : Regions κ σ ρ γ)
  (I : σ → Prop) (Q : κ → Task σ ρ ν ε α → σ → Prop) (post : κ → Except ε α → σ → Prop)

/-- Where a running call stands: one of its statements has failed, or the rest of its program passes the
check. -/
def Stage (failed : Prop) (c : κ) (t : Task σ ρ ν ε α) (s : σ) : Prop :=
  (failed ∧ ∃ e, t.program = .done (.error e)) ∨
    D.Ready c s ∧ D.Throughout c (Q c) t.program t.snapshot t.write t.held s

/-- **What holds of all callers.** `failed` are the calls with a statement or a commit that failed. -/
structure Upheld (failed : ℕ → Prop) (w : World κ σ ρ ν ε α) : Prop where
  orderly : World.Orderly w
  tables : I w.tables
  exclusive : w.Exclusive
  apart : ∀ (i j : ℕ) (c d : κ), w.calls[i]? = some c → w.calls[j]? = some d → i ≠ j → D.Apart c d
  tasks : ∀ (i : ℕ) (t : Task σ ρ ν ε α), w.tasks i = some t →
    ∃ c, w.calls[i]? = some c ∧ Stage D Q (failed i) c t w.tables
  results : ∀ (i : ℕ) (c : κ) (r : Except ε α), w.calls[i]? = some c → w.results i = some r →
    (failed i ∧ ∃ e, r = .error e) ∨ post c r w.tables

variable {S D I Q post} {failed : ℕ → Prop} {w w' : World κ σ ρ ν ε α}

omit [DecidableEq ρ] in
/-- Before anybody has called. -/
theorem upheld_initial {s : σ} (hs : I s) (v : ν) : Upheld D I Q post failed (World.initial s v) where
  orderly := World.orderly_initial s v
  tables := hs
  exclusive _ _ _ _ _ hi := by cases hi
  apart _ _ _ _ hi := by cases hi
  tasks _ _ hi := by cases hi
  results _ _ _ hi := by cases hi

omit [DecidableEq ρ] in
/-- The tables that others leave suit a running call. -/
theorem Stage.rely {p : Prop} {c : κ} {t : Task σ ρ ν ε α} {s s' : σ} (h : Stage D Q p c t s)
    (hrely : D.Ready c s → D.Rely c t.held s s') : Stage D Q p c t s' :=
  h.imp_right fun ⟨hready, hchecked⟩ => ⟨(hrely hready).2.1, hchecked.rely (hrely hready)⟩

omit [DecidableEq ρ] in
/-- A call that has come to its end and has not failed has passed the check. -/
theorem Stage.ends {p : Prop} {c : κ} {t : Task σ ρ ν ε α} {s : σ} (h : Stage D Q p c t s) :
    (p ∧ ∃ e, t.program = .done (.error e)) ∨ D.Ready c s ∧ Q c t s :=
  h.imp_right fun ⟨hready, hchecked⟩ => ⟨hready, hchecked.head hready⟩

omit [DecidableEq ρ] in
/-- Tables that somebody else has left. -/
theorem Upheld.outside (h : Upheld D I Q post failed w) {s : σ} (hs : I s)
    (hstable : ∀ c r, post c r w.tables → post c r s)
    (hrely : ∀ i t c, w.tasks i = some t → w.calls[i]? = some c → D.Ready c w.tables →
      D.Rely c t.held w.tables s) : Upheld D I Q post failed { w with tables := s } where
  orderly := ⟨h.orderly.running, h.orderly.begun⟩
  tables := hs
  exclusive := h.exclusive
  apart := h.apart
  tasks i t hi := by
    obtain ⟨c, hc, hstage⟩ := h.tasks i t hi
    exact ⟨c, hc, hstage.rely (hrely i t c hi hc)⟩
  results i c r hc hr := (h.results i c r hc hr).imp_right (hstable c r)

/-- A transaction goes on. -/
theorem Upheld.put (h : Upheld D I Q post failed w) {i : ℕ} {c : κ} {t t' : Task σ ρ ν ε α}
    (hi : w.tasks i = some t) (hc : w.calls[i]? = some c) (hcalls : w'.calls = w.calls)
    (htasks : w'.tasks = Function.update w.tasks i (some t')) (htables : w'.tables = w.tables)
    (hresults : w'.results = w.results)
    (hheld : ∀ row ∈ t'.held, row ∈ t.held ∨ w.blocked i row = false)
    (hstage : Stage D Q (failed i) c t' w.tables) : Upheld D I Q post failed w' where
  orderly := h.orderly.put hi hcalls hresults htasks
  tables := htables ▸ h.tables
  exclusive := h.exclusive.put (fun j u hj => h.orderly.lt_length hj) hi htasks hheld
  apart := hcalls ▸ h.apart
  tasks j u hj := by
    rw [htasks] at hj
    rw [hcalls, htables]
    rcases entry_of_update hj with ⟨rfl, rfl⟩ | ⟨-, hj⟩
    · exact ⟨c, hc, hstage⟩
    · exact h.tasks j u hj
  results j d r hd hr := by
    rw [hcalls] at hd
    rw [hresults] at hr
    rw [htables]
    exact h.results j d r hd hr

omit [DecidableEq ρ] in
/-- A transaction ends with `r`, and leaves the tables `s`. -/
theorem Upheld.finish (h : Upheld D I Q post failed w) {i : ℕ} {c : κ} {t : Task σ ρ ν ε α}
    {r : Except ε α} {s : σ} (hi : w.tasks i = some t) (hc : w.calls[i]? = some c) (hs : I s)
    (hstable : ∀ c r, post c r w.tables → post c r s)
    (hrely : ∀ j u d, j ≠ i → w.tasks j = some u → w.calls[j]? = some d → D.Ready d w.tables →
      D.Rely d u.held w.tables s)
    (hpost : (failed i ∧ ∃ e, r = .error e) ∨ post c r s) :
    Upheld D I Q post failed { w.finish i r with tables := s } where
  orderly := by
    refine ⟨fun j u hj => ?_, fun j hj => ?_⟩
    · obtain ⟨hji, hj⟩ := entry_of_erase hj
      exact (Function.update_of_ne hji ..).trans (h.orderly.running j u hj)
    · have hji : j ≠ i := Nat.ne_of_gt (Nat.lt_of_lt_of_le (h.orderly.lt_length hi) hj)
      exact ⟨(Function.update_of_ne hji ..).trans (h.orderly.begun j hj).1,
        (Function.update_of_ne hji ..).trans (h.orderly.begun j hj).2⟩
  tables := hs
  exclusive := h.exclusive.mono fun j u hj => ⟨u, (entry_of_erase hj).2, fun _ hrow => hrow⟩
  apart := h.apart
  tasks j u hj := by
    obtain ⟨hji, hold⟩ := entry_of_erase hj
    obtain ⟨d, hd, hstage⟩ := h.tasks j u hold
    exact ⟨d, hd, hstage.rely (hrely j u d hji hold hd)⟩
  results j d r' hd hr := by
    have hupdate : Function.update w.results i (some r) j = some r' := hr
    rcases entry_of_update hupdate with ⟨rfl, rfl⟩ | ⟨-, hold⟩
    · obtain rfl := Option.some.inj (hc.symm.trans hd)
      exact hpost
    · exact (h.results j d r' hd hold).imp_right (hstable d r')

/-! ## Steps -/

/-- A call that begins finds and leaves everything upheld. -/
theorem Upheld.start (h : Upheld D I Q post failed w) (hD : Guarantee S D I Q post) {c : κ}
    (hadmits : S.admits w.calls w.tables c = true) : Upheld D I Q post failed (w.step S (.start c)) := by
  obtain ⟨hready, hapart⟩ := hD.admitted h.tables hadmits
  have horderly := h.orderly.step (S := S) (.start c)
  simp only [World.step, if_pos hadmits] at horderly ⊢
  refine ⟨horderly, h.tables, h.exclusive.start rfl rfl, apart_of_concat h.apart hapart, fun j u hj => ?_,
    fun j d r hd hr => ?_⟩
  · rcases entry_of_update hj with ⟨rfl, rfl⟩ | ⟨-, hj⟩
    · exact ⟨c, List.getElem?_concat_length .., .inr ⟨hready, hD.throughout hready⟩⟩
    · obtain ⟨d, hd, hstage⟩ := h.tasks j u hj
      exact ⟨d, (List.getElem?_append_left (h.orderly.lt_length hj)).trans hd, hstage⟩
  · rcases entry_of_concat hd with hd | ⟨rfl, -⟩
    · exact h.results j d r hd hr
    · have hnone := (h.orderly.begun _ (Nat.le_refl _)).2.symm.trans hr
      cases hnone

/-- **The next step of a call.** -/
theorem Upheld.run (h : Upheld D I Q post failed w) (hD : Guarantee S D I Q post) {i : ℕ}
    {t : Task σ ρ ν ε α} (hi : w.tasks i = some t) : Upheld D I Q post failed (w.runTask i t) := by
  obtain ⟨c, hc, hstage⟩ := h.tasks i t hi
  have hsame : ∀ row ∈ t.held, row ∈ t.held ∨ w.blocked i row = false := fun _ hrow => .inl hrow
  unfold World.runTask
  cases hp : t.program with
  | done r =>
    cases r with
    | ok a =>
      rcases hstage.ends with ⟨-, e, he⟩ | ⟨hready, hchecked⟩
      · rw [hp] at he
        cases he
      · refine h.finish hi hc (hD.keeps hready hchecked hp h.tables)
          (fun d r => hD.stable (hD.evolves hready hchecked hp))
          (fun j u d hji hj hd hready' => ?_) (.inr (hD.commits hready hchecked hp))
        refine ⟨hD.evolves hready hchecked hp,
          hD.ready hready hchecked hp (h.apart i j c d hc hd hji.symm) hready', fun g hg => ?_⟩
        refine hD.agrees hready hchecked hp g fun hg' => hji ?_
        exact h.exclusive j i u t _ hj hi hg hg'
    | error e =>
      refine h.finish hi hc h.tables (fun _ _ hpost => hpost) (fun j u d _ _ _ => D.rely_refl) ?_
      rcases hstage.ends with ⟨hfailed, -⟩ | ⟨hready, hchecked⟩
      · exact .inl ⟨hfailed, e, rfl⟩
      · exact .inr (hD.fails hready hchecked hp)
  | select query next =>
    refine h.put hi hc rfl rfl rfl rfl hsame (.inr ?_)
    rcases hstage with ⟨-, e, he⟩ | ⟨hready, hchecked⟩
    · rw [hp] at he
      cases he
    · rw [hp] at hchecked
      exact ⟨hready, (hchecked _ (D.rely_refl hready)).2⟩
  | exec row statement next =>
    dsimp only
    split
    · exact h
    rename_i hfree
    refine h.put hi hc rfl rfl rfl rfl (fun r hr => ?_) (.inr ?_)
    · dsimp only at hr
      split at hr
      · rcases List.mem_cons.mp hr with rfl | hold
        · exact .inr (Bool.not_eq_true _ ▸ hfree)
        · exact .inl hold
      · exact .inl hr
    · rcases hstage with ⟨-, e, he⟩ | ⟨hready, hchecked⟩
      · rw [hp] at he
        cases he
      · rw [hp] at hchecked
        exact ⟨hready, (hchecked _ (D.rely_refl hready)).2⟩
  | send command next =>
    refine h.put hi hc rfl rfl rfl rfl hsame (.inr ?_)
    rcases hstage with ⟨-, e, he⟩ | ⟨hready, hchecked⟩
    · rw [hp] at he
      cases he
    · rw [hp] at hchecked
      exact ⟨hready, (hchecked _ (D.rely_refl hready)).2 _⟩

/-- **Every step keeps it**, a failure being one of `failed`. -/
theorem Upheld.step (h : Upheld D I Q post failed w) (hD : Guarantee S D I Q post) (a : Act κ)
    (hfailed : ∀ i sent, a = .fail i sent → failed i) : Upheld D I Q post failed (w.step S a) := by
  cases a with
  | start c =>
    by_cases hadmits : S.admits w.calls w.tables c = true
    · exact h.start hD hadmits
    · simp only [World.step, if_neg hadmits]
      exact h
  | run i =>
    simp only [World.step]
    split
    · rename_i t hi
      exact h.run hD hi
    · exact h
  | fail i sent =>
    have hi' := hfailed i sent rfl
    simp only [World.step]
    split
    · rename_i t c hi hc
      have hsame : ∀ row ∈ t.held, row ∈ t.held ∨ w.blocked i row = false := fun _ hrow => .inl hrow
      unfold World.failTask
      cases hp : t.program with
      | done r =>
        cases r with
        | ok a => exact h.put hi hc rfl rfl rfl rfl hsame (.inl ⟨hi', _, rfl⟩)
        | error e => exact h
      | select query next => exact h.put hi hc rfl rfl rfl rfl hsame (.inl ⟨hi', _, rfl⟩)
      | exec row statement next => exact h.put hi hc rfl rfl rfl rfl hsame (.inl ⟨hi', _, rfl⟩)
      | send command next => exact h.put hi hc rfl rfl rfl rfl hsame (.inl ⟨hi', _, rfl⟩)
    · exact h
  | crash i =>
    refine ⟨h.orderly.step (S := S) (.crash i), h.tables, h.exclusive.mono fun j u hj =>
      ⟨u, (entry_of_erase hj).2, fun _ hrow => hrow⟩, h.apart, fun j u hj => ?_, h.results⟩
    exact h.tasks j u (entry_of_erase hj).2

/-- A step leaves the tables as they are and nobody succeeds, or a call that passed the check commits. -/
theorem Upheld.commit (h : Upheld D I Q post failed w) (a : Act κ) :
    ((w.step S a).tables = w.tables ∧
      ∀ i x, (w.step S a).results i = some (.ok x) → w.results i = some (.ok x)) ∨
    ∃ (i : ℕ) (c : κ) (t : Task σ ρ ν ε α) (x : α), a = .run i ∧
      w.tasks i = some t ∧ w.calls[i]? = some c ∧ t.program = .done (.ok x) ∧ D.Ready c w.tables ∧
      Q c t w.tables ∧ w.step S a = { w.finish i (.ok x) with tables := t.write w.tables } := by
  rcases World.commit_cases S w a with hsame | ⟨i, t, x, rfl, hi, hp, hstep⟩
  · exact .inl hsame
  · obtain ⟨c, hc, hstage⟩ := h.tasks i t hi
    rcases hstage.ends with ⟨-, e, he⟩ | ⟨hready, hchecked⟩
    · rw [hp] at he
      cases he
    · exact .inr ⟨i, c, t, x, rfl, hi, hc, hp, hready, hchecked, hstep⟩

end upheld

end CampusHub.Foundations.Transactions
