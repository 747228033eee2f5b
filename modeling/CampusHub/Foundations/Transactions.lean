import CampusHub.Foundations.Runs
import Mathlib.Data.List.Basic
import Mathlib.Logic.Function.Basic
import Mathlib.Logic.Relation

/-!
# Transactions over shared tables

Programs of statements that many callers run at once over the same tables, each in a transaction of
its own.

* `Txn` — a program: plain reads, statements that lock the row they name, and commands to a store
  outside the transaction.
* `Txn.Acts w p s r s'`, `Txn.Alone p s r s'` — what a program does to the tables when nobody else runs.
* `World`, `World.step` — all callers, one statement at a time. The first plain read takes the snapshot
  that all plain reads of the transaction see; the other statements see the latest committed rows, and
  a row that one transaction holds blocks the others until it ends.
* `World.Waits`, `acyclic_of_ranked` — who waits for whom, and why nobody waits in a circle.

The isolation is that of InnoDB's `REPEATABLE READ` as far as the programs here observe it: plain reads are
consistent with one snapshot, `SELECT .. FOR UPDATE`, `UPDATE`, `INSERT` and `DELETE` read the latest
committed rows and lock what they name until the transaction ends. A statement or a commit may fail at any
moment, and then the transaction is rolled back; its commands to the store outside are not.

`acyclic_of_ranked` is the deadlock argument: along a cycle of waiting transactions the rank of the row that
is waited for would have to go up all the way round. `commit_cases` and `calls_cases` say once what a step
can do, and the modules on serializability, guarantees and endings start from them.

Not modelled: gap locks, lock upgrades and lock timeouts. A wait that the server would break off is a wait
that ends with a failed statement here.
-/

namespace CampusHub.Foundations.Transactions

variable {κ σ ρ ν ε α β : Type}

/-! ## Programs -/

/-- What a statement on a row does: its value, its change of the tables, and whether there is a row that
the transaction holds from now on. -/
structure Answer (σ β : Type) where
  value : β
  write : σ → σ := id
  held : Bool

/-- A program over tables `σ` with rows `ρ` and a store `ν` outside the transaction. -/
inductive Txn (σ ρ ν ε α : Type) : Type 1 where
  | done (result : Except ε α)
  /-- A plain read, of the snapshot with the program's own changes. -/
  | select {β : Type} (query : σ → β) (next : β → Txn σ ρ ν ε α)
  /-- A statement that locks the row it names, on the latest tables with the program's own changes. -/
  | exec {β : Type} (row : ρ) (statement : σ → Answer σ β) (next : β → Txn σ ρ ν ε α)
  /-- A command to the store outside, which no rollback takes back. -/
  | send {β : Type} (command : ν → β × ν) (next : β → Txn σ ρ ν ε α)

namespace Txn

def bind : Txn σ ρ ν ε α → (α → Txn σ ρ ν ε β) → Txn σ ρ ν ε β
  | done (.ok a), f => f a
  | done (.error e), _ => done (.error e)
  | select query next, f => select query fun v => (next v).bind f
  | exec row statement next, f => exec row statement fun v => (next v).bind f
  | send command next, f => send command fun v => (next v).bind f

instance : Monad (Txn σ ρ ν ε) where
  pure a := done (.ok a)
  bind := bind

/-- The program ends with an error; its transaction is rolled back. -/
def raise (e : ε) : Txn σ ρ ν ε α := done (.error e)

/-- A plain read. -/
def read (query : σ → β) : Txn σ ρ ν ε β := select query pure

/-- A statement on a row. -/
def on (row : ρ) (statement : σ → Answer σ β) : Txn σ ρ ν ε β := exec row statement pure

/-- A command to the store outside. -/
def command (c : ν → β × ν) : Txn σ ρ ν ε β := send c pure

/-- A program that is over with a value. -/
@[simp] theorem pure_eq (a : α) : (pure a : Txn σ ρ ν ε α) = done (.ok a) := rfl

/-- What follows a program that is over. -/
@[simp] theorem ok_bind (a : α) (f : α → Txn σ ρ ν ε β) : (done (.ok a) >>= f) = f a := rfl

/-- Nothing follows an error. -/
@[simp] theorem raise_bind (e : ε) (f : α → Txn σ ρ ν ε β) : (raise e >>= f) = raise e := rfl

/-- A plain read, and what follows it. -/
@[simp] theorem read_bind (query : σ → α) (f : α → Txn σ ρ ν ε β) :
    (read query >>= f) = select query f := rfl

/-- A statement on a row, and what follows it. -/
@[simp] theorem on_bind (row : ρ) (statement : σ → Answer σ α) (f : α → Txn σ ρ ν ε β) :
    (on row statement >>= f) = exec row statement f := rfl

/-- A command, and what follows it. -/
@[simp] theorem command_bind (c : ν → α × ν) (f : α → Txn σ ρ ν ε β) :
    (command c >>= f) = send c f := rfl

/-- The row that the next statement locks. -/
def requests : Txn σ ρ ν ε α → Option ρ
  | exec row _ _ => some row
  | _ => none

/-- **What the rest of a program does** to the tables `s` when nobody else runs: with the changes `w`
made already, it ends with `r` and leaves the tables `s'`. The store outside may answer anything. -/
def Acts : (σ → σ) → Txn σ ρ ν ε α → σ → Except ε α → σ → Prop
  | w, done (.ok a), s, r, s' => r = .ok a ∧ s' = w s
  | _, done (.error e), s, r, s' => r = .error e ∧ s' = s
  | w, select query next, s, r, s' => Acts w (next (query (w s))) s r s'
  | w, exec _ statement next, s, r, s' =>
      Acts ((statement (w s)).write ∘ w) (next (statement (w s)).value) s r s'
  | w, send _ next, s, r, s' => ∃ v, Acts w (next v) s r s'

section acts

variable {w : σ → σ} {s s' : σ} {r : Except ε α}

/-- A program that is over commits what it has written. -/
@[simp] theorem acts_ok {a : α} :
    (done (.ok a) : Txn σ ρ ν ε α).Acts w s r s' ↔ r = .ok a ∧ s' = w s := Iff.rfl

/-- A program that ends with an error commits nothing. -/
@[simp] theorem acts_raise {e : ε} :
    (raise e : Txn σ ρ ν ε α).Acts w s r s' ↔ r = .error e ∧ s' = s := Iff.rfl

/-- Alone, a plain read sees the transaction's own writes. -/
@[simp] theorem acts_select {query : σ → β} {next : β → Txn σ ρ ν ε α} :
    (select query next).Acts w s r s' ↔ (next (query (w s))).Acts w s r s' := Iff.rfl

/-- A statement answers on the tables with the writes so far, and adds its own. -/
@[simp] theorem acts_exec {row : ρ} {statement : σ → Answer σ β} {next : β → Txn σ ρ ν ε α} :
    (exec row statement next).Acts w s r s' ↔
      (next (statement (w s)).value).Acts ((statement (w s)).write ∘ w) s r s' := Iff.rfl

/-- A command may answer anything. -/
@[simp] theorem acts_send {c : ν → β × ν} {next : β → Txn σ ρ ν ε α} :
    (send c next).Acts w s r s' ↔ ∃ v, (next v).Acts w s r s' := Iff.rfl

end acts

/-- What a program does to the tables `s` when nobody else runs. -/
def Alone (p : Txn σ ρ ν ε α) (s : σ) (r : Except ε α) (s' : σ) : Prop := Acts id p s r s'

/-- A program that fails changes nothing. -/
theorem acts_error {p : Txn σ ρ ν ε α} {w : σ → σ} {s s' : σ} {e : ε} (h : Acts w p s (.error e) s') :
    s' = s := by
  induction p generalizing w with
  | done result =>
    cases result with
    | ok a => cases h.1
    | error e' => exact h.2
  | select query next ih => exact ih _ h
  | exec row statement next ih => exact ih _ h
  | send command next ih =>
    obtain ⟨v, hv⟩ := h
    exact ih v hv

end Txn

/-! ## Callers -/

/-- The program of each call, what a failed statement and a failed commit raise, and which calls may
start after others. -/
structure System (κ σ ρ ν ε α : Type) where
  program : κ → Txn σ ρ ν ε α
  fault : κ → ε
  lost : ε
  admits : List κ → σ → κ → Bool

/-- A running transaction: the rest of its program, its snapshot, its changes, and the rows it holds. -/
structure Task (σ ρ ν ε α : Type) where
  program : Txn σ ρ ν ε α
  snapshot : Option σ := none
  write : σ → σ := id
  held : List ρ := []

/-- The committed tables, the store outside, and all calls so far by their number: the running
transactions, the results of those that returned, and `earlier i j`, that `j` returned before `i`
started. -/
structure World (κ σ ρ ν ε α : Type) where
  tables : σ
  store : ν
  calls : List κ
  tasks : ℕ → Option (Task σ ρ ν ε α)
  results : ℕ → Option (Except ε α)
  earlier : ℕ → ℕ → Bool

/-- What can happen. -/
inductive Act (κ : Type) where
  /-- A call begins. -/
  | start (c : κ)
  /-- The next statement, or the commit or rollback after the last. -/
  | run (i : ℕ)
  /-- The statement or the commit fails; a command may have been carried out. -/
  | fail (i : ℕ) (sent : Bool)
  /-- The process dies: the transaction is rolled back, and the call never returns. -/
  | crash (i : ℕ)

namespace World

/-- Nobody has called yet. -/
def initial (s : σ) (v : ν) : World κ σ ρ ν ε α :=
  ⟨s, v, [], fun _ => none, fun _ => none, fun _ _ => false⟩

variable [DecidableEq ρ] (S : System κ σ ρ ν ε α) (w : World κ σ ρ ν ε α)

def setTask (i : ℕ) (t : Task σ ρ ν ε α) : World κ σ ρ ν ε α :=
  { w with tasks := Function.update w.tasks i (some t) }

/-- Another transaction holds the row. -/
def blocked (i : ℕ) (row : ρ) : Bool :=
  (List.range w.calls.length).any fun j =>
    j ≠ i && (w.tasks j).any fun t => decide (row ∈ t.held)

/-- The transaction ends, and its call returns. -/
def finish (i : ℕ) (r : Except ε α) : World κ σ ρ ν ε α :=
  { w with
    tasks := Function.update w.tasks i none
    results := Function.update w.results i (some r) }

/-- The next statement of a transaction; one that is blocked waits. -/
def runTask (i : ℕ) (t : Task σ ρ ν ε α) : World κ σ ρ ν ε α :=
  match t.program with
  | .done (.ok a) => { w.finish i (.ok a) with tables := t.write w.tables }
  | .done (.error e) => w.finish i (.error e)
  | .select query next =>
    let base := t.snapshot.getD w.tables
    w.setTask i { t with program := next (query (t.write base)), snapshot := some base }
  | .exec row statement next =>
    if w.blocked i row then w
    else
      let a := statement (t.write w.tables)
      w.setTask i
        { t with
          program := next a.value
          write := a.write ∘ t.write
          held := if a.held then row :: t.held else t.held }
  | .send command next =>
    { w.setTask i { t with program := next (command w.store).1 } with store := (command w.store).2 }

/-- The next statement fails, or the commit. -/
def failTask (i : ℕ) (c : κ) (t : Task σ ρ ν ε α) (sent : Bool) : World κ σ ρ ν ε α :=
  match t.program with
  | .done (.ok _) => w.setTask i { t with program := .done (.error S.lost) }
  | .done (.error _) => w
  | .send command _ =>
    { w.setTask i { t with program := .done (.error (S.fault c)) } with
      store := if sent then (command w.store).2 else w.store }
  | _ => w.setTask i { t with program := .done (.error (S.fault c)) }

/-- The next state; an action of a call that does not run changes nothing. -/
def step : Act κ → World κ σ ρ ν ε α
  | .start c =>
    if S.admits w.calls w.tables c then
      { w with
        calls := w.calls ++ [c]
        tasks := Function.update w.tasks w.calls.length (some { program := S.program c })
        earlier := Function.update w.earlier w.calls.length fun j => (w.results j).isSome }
    else w
  | .run i =>
    match w.tasks i with
    | some t => w.runTask i t
    | none => w
  | .fail i sent =>
    match w.tasks i, w.calls[i]? with
    | some t, some c => w.failTask S i c t sent
    | _, _ => w
  | .crash i => { w with tasks := Function.update w.tasks i none }

/-- A step commits a transaction, or the tables stay and nobody succeeds. -/
theorem commit_cases (a : Act κ) :
    ((w.step S a).tables = w.tables ∧
      ∀ i x, (w.step S a).results i = some (.ok x) → w.results i = some (.ok x)) ∨
    ∃ i t x, a = .run i ∧ w.tasks i = some t ∧ t.program = .done (.ok x) ∧
      w.step S a = { w.finish i (.ok x) with tables := t.write w.tables } := by
  cases a with
  | start c =>
    refine .inl ?_
    simp only [step]
    split <;> exact ⟨rfl, fun _ _ h => h⟩
  | run i =>
    simp only [step]
    split
    · rename_i t hi
      cases hp : t.program with
      | done r =>
        cases r with
        | ok x =>
          refine .inr ⟨i, t, x, rfl, hi, hp, ?_⟩
          simp only [runTask, hp]
        | error e =>
          simp only [runTask, hp]
          refine .inl ⟨rfl, fun j x hj => ?_⟩
          by_cases hji : j = i
          · subst hji
            have hself : Function.update w.results j (some (.error e)) j = some (.ok x) := hj
            rw [Function.update_self] at hself
            cases hself
          · exact (Function.update_of_ne hji ..).symm.trans hj
      | select query next =>
        simp only [runTask, hp]
        exact .inl ⟨rfl, fun _ _ h => h⟩
      | exec row statement next =>
        simp only [runTask, hp]
        split <;> exact .inl ⟨rfl, fun _ _ h => h⟩
      | send command next =>
        simp only [runTask, hp]
        exact .inl ⟨rfl, fun _ _ h => h⟩
    · exact .inl ⟨rfl, fun _ _ h => h⟩
  | fail i sent =>
    refine .inl ?_
    simp only [step]
    split
    · simp only [failTask]
      split <;> exact ⟨rfl, fun _ _ h => h⟩
    · exact ⟨rfl, fun _ _ h => h⟩
  | crash i => exact .inl ⟨rfl, fun _ _ h => h⟩

variable {S w} in
/-- The tables change when a transaction commits, and nowhere else. -/
theorem tables_step {a : Act κ} (h : (w.step S a).tables ≠ w.tables) :
    ∃ i t x, a = .run i ∧ w.tasks i = some t ∧ t.program = .done (.ok x) ∧
      w.step S a = { w.finish i (.ok x) with tables := t.write w.tables } :=
  (commit_cases S w a).resolve_left fun hsame => h hsame.1

/-- A call begins, or the calls are those before. -/
theorem calls_cases (a : Act κ) : (w.step S a).calls = w.calls ∨
    ∃ c, a = .start c ∧ S.admits w.calls w.tables c = true ∧ (w.step S a).calls = w.calls ++ [c] := by
  cases a with
  | start c =>
    simp only [step]
    split
    · rename_i hadmits
      exact .inr ⟨c, rfl, hadmits, rfl⟩
    · exact .inl rfl
  | run i =>
    refine .inl ?_
    simp only [step]
    split
    · unfold runTask
      split <;> try rfl
      split <;> rfl
    · rfl
  | fail i sent =>
    refine .inl ?_
    simp only [step]
    split
    · unfold failTask
      split <;> rfl
    · rfl
  | crash i => exact .inl rfl

/-- A call keeps its number. -/
theorem calls_step (a : Act κ) {i : ℕ} {c : κ} (h : w.calls[i]? = some c) :
    (w.step S a).calls[i]? = some c := by
  rcases calls_cases S w a with hsame | ⟨d, -, -, hmore⟩
  · rw [hsame]
    exact h
  · rw [hmore, List.getElem?_append_left (List.getElem?_eq_some_iff.mp h).1]
    exact h

/-- A call keeps its number in every run. -/
theorem calls_run (as : List (Act κ)) {i : ℕ} {c : κ} (h : w.calls[i]? = some c) :
    (Runs.run (step S) w as).calls[i]? = some c := by
  induction as generalizing w with
  | nil => exact h
  | cons a as ih => exact ih (w.step S a) (calls_step S w a h)

/-! ## Waiting -/

/-- Two transactions never hold the same row. -/
def Exclusive : Prop :=
  ∀ i j t t' row, w.tasks i = some t → w.tasks j = some t' → row ∈ t.held → row ∈ t'.held → i = j

/-- `i` waits for a row that `j` holds. -/
def Waits (i j : ℕ) : Prop :=
  i ≠ j ∧ ∃ t t' row, w.tasks i = some t ∧ w.tasks j = some t' ∧
    t.program.requests = some row ∧ row ∈ t'.held

variable {w}

omit [DecidableEq ρ] in
/-- **Nobody waits in a circle** if every transaction locks its rows upwards, in some ranking of the
rows. -/
theorem acyclic_of_ranked (hexclusive : w.Exclusive) (rank : ρ → ℕ)
    (hrank : ∀ i t row, w.tasks i = some t → t.program.requests = some row →
      row ∈ t.held ∨ ∀ r ∈ t.held, rank r < rank row) (i : ℕ) :
    ¬ Relation.TransGen w.Waits i i := by
  -- along a path of waits the requested rows rise
  have hpath : ∀ j, Relation.TransGen w.Waits i j → ∃ t t' row row', w.tasks i = some t ∧
      t.program.requests = some row ∧ (∃ k, k ≠ i ∧ ∃ u, w.tasks k = some u ∧ row ∈ u.held) ∧
      w.tasks j = some t' ∧ row' ∈ t'.held ∧ rank row ≤ rank row' := by
    intro j hj
    induction hj with
    | single h =>
      obtain ⟨hne, t, t', row, ht, ht', hrow, hheld⟩ := h
      exact ⟨t, t', row, row, ht, hrow, ⟨_, hne.symm, t', ht', hheld⟩, ht', hheld,
        Nat.le_refl _⟩
    | tail _ h ih =>
      obtain ⟨t, t₁, row, row₁, ht, hrow, hother, ht₁, hheld₁, hle⟩ := ih
      obtain ⟨hne, u, t', row', hu, ht', hrow', hheld'⟩ := h
      obtain rfl := Option.some.inj (ht₁.symm.trans hu)
      have hlt : rank row₁ < rank row' := by
        refine (hrank _ t₁ row' ht₁ hrow').resolve_left (fun hown => hne ?_) row₁ hheld₁
        exact hexclusive _ _ t₁ t' row' ht₁ ht' hown hheld'
      exact ⟨t, t', row, row', ht, hrow, hother, ht', hheld', Nat.le_trans hle (Nat.le_of_lt hlt)⟩
  intro hcycle
  obtain ⟨t, t', row, row', ht, hrow, ⟨k, hk, u, hu, hheld⟩, ht', hheld', hle⟩ := hpath i hcycle
  obtain rfl := Option.some.inj (ht.symm.trans ht')
  have hlt := (hrank i t row ht hrow).resolve_left
    (fun hown => hk (hexclusive _ _ u t row hu ht hheld hown)) row' hheld'
  omega

end World

end CampusHub.Foundations.Transactions
