import CampusHub.Foundations.Runs
import CampusHub.Foundations.Sweeps
import CampusHub.Redis.Stream

/-!
# The sweep over the pending entries

* `Worker`, `Act`, `step` — one worker's calls of `recoverPending`, one Redis command a step, between the
  deliveries, claims and acknowledgements of all other workers.
* `Chained` — calls one after the other, each from the cursor that the call before it left.
* `pending_sweep` — the result over all runs.

**Theorem** (`pending_sweep`). In every order of the commands of one worker and of all others, each call
examines the first pending entries from its cursor on; calls that start and end at `0-0` examine every entry
once that is pending whenever a page is read; and while no new entry becomes pending, the worker comes back
to `0-0` after a number of calls that the number of pending entries bounds.

**Proof route.** A page is cut from the pending ids in the order of ids (`Scan.Reads.pageOf`), and the
cursor after it is the successor of its last id, computed on texts with `BigInteger` (`nextId_eq_succ`), so
that the next page starts right behind it (`past_iff`). This makes the calls a `Sweep` over a changing set,
and `Foundations.Sweeps` gives the rest. That sequence parts do not run over is the condition `Ordinary`.

**Left out.** What becomes of an entry that is claimed: see `OrderQueue.Consumer`.
-/

namespace CampusHub.OrderQueue.Recovery

open CampusHub.Redis CampusHub.Foundations.Runs CampusHub.Foundations.Decimal
open CampusHub.Foundations.Sweeps

/-! ## The model -/

/-- Source: `OrderStreamQueue.java` 18. -/
def pageSize : ℕ := 32

/-- Java `new BigInteger(text)`; none when it throws. -/
def bigInteger (text : List Char) : Option ℤ :=
  let (negative, digits) := readSign text
  if digits.isEmpty ∨ ¬ digits.all Char.isDigit then none
  else some (if negative then -(Nat.ofDigitChars 10 digits 0) else Nat.ofDigitChars 10 digits 0)

/-- Java `BigInteger.toString`. -/
def integerText (z : ℤ) : String := if z < 0 then "-" ++ decimal z.natAbs else decimal z.natAbs

/-- Source: `OrderStreamQueue.java` 95–98. -/
def nextId (id : String) : Option String :=
  match id.toList.dropWhile (· ≠ '-') with
  | [] => (bigInteger id.toList).map fun n => integerText (n + 1)
  | _ :: text => (bigInteger text).map fun n =>
      String.ofList (id.toList.takeWhile (· ≠ '-')) ++ "-" ++ integerText (n + 1)

/-- A call of `recoverPending`: the cursor that it read from and what it read, the messages that are still
to be looked at, the ids that it issued a claim for, and the entries that came back. -/
structure Scan where
  cursor : String
  snapshot : EventStream
  readAt : ℕ
  page : List (StreamId × Pending)
  rest : List (StreamId × Pending)
  issued : List StreamId
  recovered : List (StreamId × Fields)

/-- The stream, the clock, the worker's cursor and call in progress; the calls that returned, each with the
cursor that it left. -/
structure Worker where
  stream : EventStream
  now : ℕ
  pendingCursor : String
  scan : Option Scan
  calls : List (Scan × String)

/-- The worker's steps are `recoverPending`, the `XPENDING` of a call, and `proceed`, its next message or
its end. All others are commands of any client. -/
inductive Act where
  | recoverPending
  | proceed
  | tick (d : ℕ)
  | createGroup (name : String)
  | append (fields : Fields)
  | deliver (name consumer : String)
  | claim (name consumer : String) (idle : ℕ) (id : StreamId)
  | ack (name : String) (id : StreamId)

def Act.isProceed : Act → Bool
  | .proceed => true
  | _ => false

/-- The cursor after a page. Source: `OrderStreamQueue.java` 71. -/
def advance (page : List (StreamId × Pending)) : Option String :=
  if page.length < pageSize then some "0-0" else page.getLast?.bind fun e => nextId e.1.render

section model

variable (group consumer : String) (claimIdle : ℕ)

/-- Source: `OrderStreamQueue.java` 58–59; none when the command fails. -/
def readPage (w : Worker) : Option Scan :=
  (w.stream.xpendingFrom group w.pendingCursor pageSize).map fun page =>
    { cursor := w.pendingCursor, snapshot := w.stream, readAt := w.now
      page := page, rest := page, issued := [], recovered := [] }

/-- The next state. A call that throws leaves the cursor as it is. Source: `OrderStreamQueue.java` 57–73. -/
def step (w : Worker) : Act → Worker
  | .recoverPending =>
    match w.scan with
    | some _ => w
    | none => { w with scan := readPage group w }
  | .proceed =>
    match w.scan with
    | none => w
    | some scan =>
      match scan.rest with
      | (id, message) :: rest =>
        if claimIdle ≤ scan.readAt - message.deliveredAt then
          let issued := scan.issued ++ [id]
          match w.stream.claim w.now claimIdle group consumer id with
          | some (fields, t) =>
            { w with
              stream := t
              scan := some { scan with
                rest := rest, issued := issued, recovered := scan.recovered ++ [(id, fields)] } }
          | none => { w with scan := some { scan with rest := rest, issued := issued } }
        else { w with scan := some { scan with rest := rest } }
      | [] =>
        match advance scan.page with
        | some next => { w with pendingCursor := next, scan := none, calls := w.calls ++ [(scan, next)] }
        | none => { w with scan := none }
  | .tick d => { w with now := w.now + d }
  | .createGroup name => { w with stream := (w.stream.createGroup name).getD w.stream }
  | .append fields => { w with stream := ((w.stream.append w.now fields).map Prod.snd).getD w.stream }
  | .deliver name other =>
    { w with stream := ((w.stream.deliver w.now name other).map Prod.snd).getD w.stream }
  | .claim name other idle id =>
    { w with stream := ((w.stream.claim w.now idle name other id).map Prod.snd).getD w.stream }
  | .ack name id => { w with stream := w.stream.ack name id }

end model

/-! ## The successor of an id -/

/-- The decimal text of a number is read back. -/
theorem bigInteger_decimal (n : ℕ) : bigInteger (decimal n).toList = some (n : ℤ) := by
  obtain ⟨c, cs, hcs, hdig, hvalue⟩ := decimal_cons n
  have hc := hdig c List.mem_cons_self
  have hall : (c :: cs).all Char.isDigit = true := List.all_eq_true.mpr hdig
  unfold bigInteger
  rw [hcs]
  simp [readSign_of_isDigit cs hc, hall, hvalue]

/-- The next id of a printed one has its sequence part raised by one. -/
theorem nextId_render (id : StreamId) :
    nextId id.render = some (decimal id.ms ++ "-" ++ decimal (id.seq + 1 : ℕ)) := by
  unfold nextId
  rw [(StreamId.span_render id).1, (StreamId.span_render id).2]
  simp only [bigInteger_decimal, Option.map_some, String.ofList_toList]
  rfl

/-- Below the last sequence part the next id is the one that follows. -/
theorem nextId_eq_succ {id : StreamId} (h : id.seq ≠ -1) :
    ∃ j, id.succ = some j ∧ nextId id.render = some j.render := by
  refine ⟨⟨id.ms, id.seq + 1⟩, if_pos h, ?_⟩
  have hlt := StreamId.lt_add_one h
  have hvalue : ((id.seq + 1 : Fin (2 ^ 64)) : ℕ) = id.seq + 1 := by
    rw [Fin.lt_def] at hlt
    rw [Fin.val_add] at hlt ⊢
    exact Nat.mod_eq_of_lt (by have hone : ((1 : Fin (2 ^ 64)) : ℕ) = 1 := rfl; omega)
  rw [nextId_render, StreamId.render]
  simp only [hvalue]

/-- The text of the first cursor. -/
theorem render_zero : StreamId.zero.render = "0-0" := rfl

/-! ## Calls one after the other -/

section calls

variable (group consumer : String) (claimIdle : ℕ)

/-- Old enough for a claim when the page was read. -/
def Scan.idle (c : Scan) (e : StreamId × Pending) : Bool :=
  decide (claimIdle ≤ c.readAt - e.2.deliveredAt)

/-- The ids on the page. -/
def Scan.ids (c : Scan) : List StreamId := c.page.map Prod.fst

/-- What a call has done that read its page from a stream with `P`: the page is what `XPENDING` answered,
and of the messages looked at so far the idle ones are claimed. -/
structure Scan.Reads (P : EventStream → Prop) (c : Scan) : Prop where
  holds : P c.snapshot
  page_eq : c.snapshot.xpendingFrom group c.cursor pageSize = some c.page
  issued_eq : ∃ seen, c.page = seen ++ c.rest ∧ c.issued = (seen.filter (c.idle claimIdle)).map Prod.fst

/-- A call that returned. -/
structure Returned (P : EventStream → Prop) (call : Scan × String) : Prop where
  reads : call.1.Reads group claimIdle P
  rest_eq : call.1.rest = []
  next_eq : advance call.1.page = some call.2

/-- Calls that returned, from one cursor to another. -/
def Chained (P : EventStream → Prop) : String → List (Scan × String) → String → Prop
  | start, [], finish => finish = start
  | start, call :: calls, finish =>
    (Returned group claimIdle P call ∧ call.1.cursor = start) ∧ Chained P call.2 calls finish

/-- The calls after `before`, and the one in progress. -/
structure Since (P : EventStream → Prop) (start : String) (before : List (Scan × String)) (w : Worker) :
    Prop where
  calls : ∃ calls, w.calls = before ++ calls ∧ Chained group claimIdle P start calls w.pendingCursor
  scan : ∀ c ∈ w.scan, c.Reads group claimIdle P ∧ c.cursor = w.pendingCursor

variable {group consumer claimIdle} {P : EventStream → Prop}

/-- One more call that returned, from where the last one left. -/
theorem Chained.append {start finish next : String} {calls : List (Scan × String)} {c : Scan}
    (h : Chained group claimIdle P start calls finish) (hc : Returned group claimIdle P (c, next))
    (hcursor : c.cursor = finish) : Chained group claimIdle P start (calls ++ [(c, next)]) next := by
  induction calls generalizing start with
  | nil =>
    have hfinish : finish = start := h
    exact ⟨⟨hc, hcursor.trans hfinish⟩, rfl⟩
  | cons call calls ih => exact ⟨h.1, ih h.2⟩

/-- Chained calls have returned. -/
theorem Chained.returned {start finish : String} {calls : List (Scan × String)}
    (h : Chained group claimIdle P start calls finish) :
    ∀ call ∈ calls, Returned group claimIdle P call := by
  induction calls generalizing start with
  | nil => nofun
  | cons call calls ih =>
    intro c hc
    rcases List.mem_cons.mp hc with rfl | hc
    · exact h.1.1
    · exact ih h.2 c hc

/-- The next message has been looked at. -/
theorem Scan.Reads.proceed {c : Scan} {e : StreamId × Pending} {rest : List (StreamId × Pending)}
    (h : c.Reads group claimIdle P) (hrest : c.rest = e :: rest) (recovered : List (StreamId × Fields)) :
    Scan.Reads group claimIdle P { c with
      rest := rest, recovered := recovered
      issued := if c.idle claimIdle e then c.issued ++ [e.1] else c.issued } := by
  obtain ⟨hP, hpage, seen, hseen, hissued⟩ := h
  have hsofar : (if c.idle claimIdle e then c.issued ++ [e.1] else c.issued) =
      ((seen ++ [e]).filter (c.idle claimIdle)).map Prod.fst := by
    rw [List.filter_append, List.map_append, ← hissued]
    by_cases h : c.idle claimIdle e = true
    · rw [if_pos h, List.filter_cons_of_pos h]
      rfl
    · rw [if_neg h, List.filter_cons_of_neg h]
      exact (List.append_nil _).symm
  refine ⟨hP, hpage, seen ++ [e], ?_, hsofar⟩
  rw [hseen, hrest, List.append_assoc]
  rfl

/-- **Step lemma**: calls stay chained. -/
theorem Since.step {start : String} {before : List (Scan × String)} {w : Worker} (a : Act)
    (h : Since group claimIdle P start before w) (hP : P w.stream) :
    Since group claimIdle P start before (step group consumer claimIdle w a) := by
  obtain ⟨⟨calls, hcalls, hchain⟩, hscan⟩ := h
  cases a with
  | recoverPending =>
    cases hw : w.scan with
    | some c =>
      simp only [Recovery.step, hw]
      exact ⟨⟨calls, hcalls, hchain⟩, hscan⟩
    | none =>
      simp only [Recovery.step, hw]
      refine ⟨⟨calls, hcalls, hchain⟩, fun c hc => ?_⟩
      obtain ⟨page, hpage, rfl⟩ := Option.map_eq_some_iff.mp hc
      exact ⟨⟨hP, hpage, [], rfl, rfl⟩, rfl⟩
  | proceed =>
    cases hw : w.scan with
    | none =>
      simp only [Recovery.step, hw]
      exact ⟨⟨calls, hcalls, hchain⟩, hscan⟩
    | some c =>
      obtain ⟨hreads, hcursor⟩ := hscan c hw
      cases hrest : c.rest with
      | nil =>
        simp only [Recovery.step, hw, hrest]
        cases hnext : advance c.page with
        | none => exact ⟨⟨calls, hcalls, hchain⟩, nofun⟩
        | some next =>
          refine ⟨⟨calls ++ [(c, next)], ?_, hchain.append ⟨hreads, hrest, hnext⟩ hcursor⟩, nofun⟩
          simp only [hcalls, List.append_assoc]
      | cons e rest =>
        obtain ⟨id, message⟩ := e
        have hproceed := hreads.proceed hrest
        simp only [Recovery.step, hw, hrest]
        by_cases hidle : claimIdle ≤ c.readAt - message.deliveredAt
        · have hyes : c.idle claimIdle (id, message) = true := decide_eq_true hidle
          simp only [hyes, if_true] at hproceed
          simp only [hidle, if_true]
          cases hclaim : w.stream.claim w.now claimIdle group consumer id with
          | none =>
            refine ⟨⟨calls, hcalls, hchain⟩, fun c' hc' => ?_⟩
            obtain rfl := Option.some.inj hc'
            exact ⟨hproceed c.recovered, hcursor⟩
          | some claimed =>
            refine ⟨⟨calls, hcalls, hchain⟩, fun c' hc' => ?_⟩
            obtain rfl := Option.some.inj hc'
            exact ⟨hproceed _, hcursor⟩
        · have hno : c.idle claimIdle (id, message) = false := decide_eq_false hidle
          simp only [hno, Bool.false_eq_true, if_false] at hproceed
          simp only [hidle, if_false]
          refine ⟨⟨calls, hcalls, hchain⟩, fun c' hc' => ?_⟩
          obtain rfl := Option.some.inj hc'
          exact ⟨hproceed c.recovered, hcursor⟩
  | tick d => exact ⟨⟨calls, hcalls, hchain⟩, hscan⟩
  | createGroup name => exact ⟨⟨calls, hcalls, hchain⟩, hscan⟩
  | append fields => exact ⟨⟨calls, hcalls, hchain⟩, hscan⟩
  | deliver name other => exact ⟨⟨calls, hcalls, hchain⟩, hscan⟩
  | claim name other idle id => exact ⟨⟨calls, hcalls, hchain⟩, hscan⟩
  | ack name id => exact ⟨⟨calls, hcalls, hchain⟩, hscan⟩

/-- **Run lemma**: the calls of a run are chained, and each read a stream that the run came by. -/
theorem exists_chained {w : Worker} (hscan : w.scan = none) {as : List Act}
    (hP : Along (fun v _ => P v.stream) (step group consumer claimIdle) w as) :
    ∃ calls, (run (step group consumer claimIdle) w as).calls = w.calls ++ calls ∧
      Chained group claimIdle P w.pendingCursor calls
        (run (step group consumer claimIdle) w as).pendingCursor := by
  have hstart : Since group claimIdle P w.pendingCursor w.calls w := by
    refine ⟨⟨[], (List.append_nil _).symm, rfl⟩, ?_⟩
    rw [hscan]
    nofun
  exact (run_invariant_of_along (step group consumer claimIdle)
    (fun v a hv hok => hv.step a hok) as w hstart hP).calls

/-- The calls of a part of a run. -/
theorem chained_between {w : Worker} {as₁ as₂ : List Act} {calls : List (Scan × String)}
    (hscan : (run (step group consumer claimIdle) w as₁).scan = none)
    (hP : Along (fun v _ => P v.stream) (step group consumer claimIdle)
      (run (step group consumer claimIdle) w as₁) as₂)
    (hcalls : (run (step group consumer claimIdle) w (as₁ ++ as₂)).calls =
      (run (step group consumer claimIdle) w as₁).calls ++ calls) :
    Chained group claimIdle P (run (step group consumer claimIdle) w as₁).pendingCursor calls
      (run (step group consumer claimIdle) w (as₁ ++ as₂)).pendingCursor := by
  obtain ⟨calls', hcalls', hchain⟩ := exists_chained hscan hP
  rw [← run_append] at hcalls' hchain
  obtain rfl : calls' = calls := List.append_cancel_left (hcalls'.symm.trans hcalls)
  exact hchain

end calls

/-! ## Pages -/

/-- The ids that are pending for the group. -/
def pendingIds (group : String) (s : EventStream) : Finset StreamId :=
  match s.groups.lookup group with
  | some g => g.pending.keys
  | none => ∅

/-- The pending ids are such as `XADD *` gives out. -/
def Ordinary (group : String) (s : EventStream) : Prop := ∀ id ∈ pendingIds group s, id.seq ≠ -1

instance decidableOrdinary (group : String) (s : EventStream) : Decidable (Ordinary group s) :=
  inferInstanceAs (Decidable (∀ id ∈ pendingIds group s, id.seq ≠ -1))

section pages

variable {group : String} {claimIdle : ℕ} {P : EventStream → Prop} {c : Scan} {a : StreamId}

/-- The pending ids of a group. -/
theorem mem_pendingIds {s : EventStream} {id : StreamId} :
    id ∈ pendingIds group s ↔ ∃ p, s.pendingOf group id = some p := by
  unfold pendingIds EventStream.pendingOf
  cases s.groups.lookup group with
  | none => simp
  | some g => exact Foundations.Maps.mem_keys_iff

/-- What is on a page. -/
theorem Scan.Reads.page_of_cursor (h : c.Reads group claimIdle P) (hcursor : c.cursor = a.render) :
    c.page = (c.snapshot.pendingRange group a .last).take pageSize := by
  have hpage := h.page_eq
  rw [hcursor] at hpage
  unfold EventStream.xpendingFrom at hpage
  obtain ⟨g, -, hpage⟩ := Option.bind_eq_some_iff.mp hpage
  rw [StreamId.parse_render] at hpage
  exact (Option.some.inj hpage).symm

/-- A call examines the first entries from its cursor on. -/
theorem Scan.Reads.pageOf (h : c.Reads group claimIdle P) (hcursor : c.cursor = a.render) :
    PageOf (· < ·) (pendingIds group c.snapshot : Set StreamId) (a ≤ ·) pageSize c.ids := by
  unfold Scan.ids
  rw [h.page_of_cursor hcursor, List.map_take]
  refine pageOf_take_of (EventStream.sorted_pendingRange _ _ _) (fun x => ?_) pageSize
  rw [Finset.mem_coe, mem_pendingIds, List.mem_map]
  constructor
  · rintro ⟨⟨id, p⟩, he, rfl⟩
    obtain ⟨hp, hlow, -⟩ := EventStream.mem_pendingRange.mp he
    exact ⟨⟨p, hp⟩, hlow⟩
  · rintro ⟨⟨p, hp⟩, hlow⟩
    exact ⟨(x, p), EventStream.mem_pendingRange.mpr ⟨hp, hlow, x.le_last⟩, rfl⟩

/-- A page has for each of its entries what is pending of it. -/
theorem Scan.Reads.pendingOf (h : c.Reads group claimIdle P) (hcursor : c.cursor = a.render)
    {e : StreamId × Pending} (he : e ∈ c.page) : c.snapshot.pendingOf group e.1 = some e.2 := by
  rw [h.page_of_cursor hcursor] at he
  exact (EventStream.mem_pendingRange.mp (List.mem_of_mem_take he)).1

/-- Behind a page lies what comes after its last id. -/
theorem past_iff {ids : List StreamId} {S : Set StreamId} {last j : StreamId}
    (hpage : PageOf (· < ·) S (a ≤ ·) pageSize ids) (hlast : ids.getLast? = some last)
    (hj : last.succ = some j) (x : StreamId) : past (· < ·) (a ≤ ·) ids x ↔ j ≤ x := by
  rw [StreamId.succ_le_iff hj]
  constructor
  · rintro ⟨-, hall⟩
    exact hall last (List.mem_of_getLast? hlast)
  · intro hlt
    refine ⟨((hpage.mem last (List.mem_of_getLast? hlast)).2.trans_lt hlt).le, fun y hy => ?_⟩
    have hle : y ≤ last := by
      obtain ⟨front, rfl⟩ := List.getLast?_eq_some_iff.mp hlast
      rcases List.mem_append.mp hy with hy | hy
      · exact ((List.pairwise_append.mp hpage.sorted).2.2 y hy last List.mem_cons_self).le
      · exact (List.mem_singleton.mp hy).le
    exact hle.trans_lt hlt

/-- A call ends at the cursor `0-0` when its page is short, and else behind its page. -/
theorem Returned.next_cases {next : String} (h : Returned group claimIdle P (c, next))
    (hP : ∀ s, P s → Ordinary group s) (hcursor : c.cursor = a.render) :
    c.ids.length < pageSize ∧ next = "0-0" ∨
      ∃ j : StreamId, next = j.render ∧ next ≠ "0-0" ∧ c.ids.length = pageSize ∧
        ∀ x, past (· < ·) (a ≤ ·) c.ids x ↔ j ≤ x := by
  have hpage := h.reads.pageOf hcursor
  have hnext := h.next_eq
  have hlength : c.page.length = c.ids.length := (List.length_map _).symm
  unfold advance at hnext
  split_ifs at hnext with hshort
  · exact Or.inl ⟨hlength ▸ hshort, (Option.some.inj hnext).symm⟩
  · obtain ⟨e, hlast, hnext⟩ := Option.bind_eq_some_iff.mp hnext
    have hids : c.ids.getLast? = some e.1 := by
      unfold Scan.ids
      rw [List.getLast?_map, hlast]
      rfl
    have hmem := (hpage.mem e.1 (List.mem_of_getLast? hids)).1
    obtain ⟨j, hj, hrender⟩ := nextId_eq_succ (hP _ h.reads.holds e.1 hmem)
    obtain rfl : j.render = next := Option.some.inj (hrender.symm.trans hnext)
    refine Or.inr ⟨j, rfl, ?_, ?_, past_iff hpage hids hj⟩
    · rw [← render_zero, Ne, StreamId.render_inj]
      rintro rfl
      exact absurd (StreamId.lt_of_succ hj) (not_lt.mpr e.1.zero_le)
    · exact le_antisymm hpage.length_le (hlength ▸ not_lt.mp hshort)

/-- From a valid cursor every call starts at one and leaves one. -/
theorem Chained.valid {calls : List (Scan × String)} {finish : String}
    (h : Chained group claimIdle P a.render calls finish) (hP : ∀ s, P s → Ordinary group s) :
    (∃ id : StreamId, finish = id.render) ∧
      ∀ call ∈ calls, ∃ id : StreamId, call.1.cursor = id.render := by
  induction calls generalizing a with
  | nil => exact ⟨⟨a, h⟩, nofun⟩
  | cons call calls ih =>
    obtain ⟨⟨hcall, hcursor⟩, hrest⟩ := h
    obtain ⟨j, hj⟩ : ∃ j : StreamId, call.2 = j.render := by
      rcases hcall.next_cases hP hcursor with ⟨-, hzero⟩ | ⟨j, hj, -⟩
      · exact ⟨.zero, hzero⟩
      · exact ⟨j, hj⟩
    rw [hj] at hrest
    obtain ⟨hfinish, hvalid⟩ := ih hrest
    refine ⟨hfinish, fun c hc => ?_⟩
    rcases List.mem_cons.mp hc with rfl | hc
    · exact ⟨a, hcursor⟩
    · exact hvalid c hc

/-- The page of a call, with what was pending when it was read. -/
def examined (group : String) (call : Scan × String) : Set StreamId × List StreamId :=
  ((pendingIds group call.1.snapshot : Set StreamId), call.1.ids)

/-- Calls that do not come back to `0-0`, and perhaps one more, sweep what follows their cursor. -/
theorem Chained.sweep {calls more : List (Scan × String)} {finish : String}
    (h : Chained group claimIdle P a.render (calls ++ more) finish) (hP : ∀ s, P s → Ordinary group s)
    (hbusy : ∀ call ∈ calls, call.2 ≠ "0-0") (hmore : more.length ≤ 1) :
    Sweep (· < ·) pageSize (a ≤ ·) ((calls ++ more).map (examined group)) := by
  induction calls generalizing a with
  | nil =>
    cases more with
    | nil => trivial
    | cons call more =>
      obtain rfl : more = [] :=
        List.eq_nil_of_length_eq_zero (Nat.le_zero.mp (Nat.le_of_succ_le_succ hmore))
      obtain ⟨⟨hcall, hcursor⟩, -⟩ := h
      exact ⟨hcall.reads.pageOf hcursor, trivial⟩
  | cons call calls ih =>
    obtain ⟨⟨hcall, hcursor⟩, hrest⟩ := h
    refine ⟨hcall.reads.pageOf hcursor, ?_⟩
    rcases hcall.next_cases hP hcursor with ⟨-, hzero⟩ | ⟨j, hj, -, -, hpast⟩
    · exact absurd hzero (hbusy call List.mem_cons_self)
    · rw [hj] at hrest
      have hahead : past (· < ·) (a ≤ ·) call.1.ids = (j ≤ ·) :=
        funext fun x => propext (hpast x)
      rw [hahead]
      exact ih hrest fun c hc => hbusy c (List.mem_cons_of_mem call hc)

/-- A sweep that comes back to `0-0` examines an entry once that is pending at every page. -/
theorem Chained.count_eq_one {calls : List (Scan × String)} {last : Scan × String} {finish : String}
    {id : StreamId} (h : Chained group claimIdle P "0-0" (calls ++ [last]) finish)
    (hP : ∀ s, P s → Ordinary group s ∧ id ∈ pendingIds group s) (hbusy : ∀ call ∈ calls, call.2 ≠ "0-0")
    (hback : last.2 = "0-0") :
    (List.flatMap (fun call => call.1.ids) (calls ++ [last])).count id = 1 := by
  have hord : ∀ s, P s → Ordinary group s := fun s hs => (hP s hs).1
  rw [← render_zero] at h
  have hsweep : Sweep (· < ·) pageSize (StreamId.zero ≤ ·) ((calls ++ [last]).map (examined group)) :=
    h.sweep hord hbusy le_rfl
  obtain ⟨-, hvalid⟩ := h.valid hord
  have hreturned : ∀ call ∈ calls ++ [last], Returned group claimIdle P call := h.returned
  have hpending : ∀ page ∈ (calls ++ [last]).map (examined group), id ∈ page.1 := by
    intro page hpage
    obtain ⟨call, hcall, rfl⟩ := List.mem_map.mp hpage
    exact (hP _ (hreturned call hcall).reads.holds).2
  have hlast : last ∈ calls ++ [last] := List.mem_append_right _ List.mem_cons_self
  have hshort : last.1.ids.length < pageSize := by
    obtain ⟨b, hb⟩ := hvalid last hlast
    rcases (hreturned last hlast).next_cases hord hb with ⟨hshort, -⟩ | ⟨j, -, hne, -⟩
    · exact hshort
    · exact absurd hback hne
  have hvisited : visited ((calls ++ [last]).map (examined group)) =
      List.flatMap (fun call => call.1.ids) (calls ++ [last]) := by
    rw [visited, List.flatMap_map]
    rfl
  have hmem : id ∈ visited ((calls ++ [last]).map (examined group)) := by
    rw [List.map_append] at hsweep hpending ⊢
    exact hsweep.complete_of_short hshort id.zero_le hpending
  have hnodup : (visited ((calls ++ [last]).map (examined group))).Nodup :=
    hsweep.sorted.1.imp fun hlt => hlt.ne
  rw [← hvisited]
  exact List.count_eq_one_of_mem hnodup hmem

/-- Calls that do not come back to `0-0` are no more than the pending entries allow. -/
theorem Chained.length_le {calls : List (Scan × String)} {finish : String} {K : Finset StreamId}
    (h : Chained group claimIdle P a.render calls finish)
    (hP : ∀ s, P s → Ordinary group s ∧ pendingIds group s ⊆ K) (hbusy : ∀ call ∈ calls, call.2 ≠ "0-0") :
    pageSize * calls.length ≤ K.card := by
  have hord : ∀ s, P s → Ordinary group s := fun s hs => (hP s hs).1
  obtain ⟨-, hvalid⟩ := h.valid hord
  have hreturned := h.returned
  rw [← List.append_nil calls] at h
  have hsweep : Sweep (· < ·) pageSize (a ≤ ·) ((calls ++ []).map (examined group)) :=
    h.sweep hord hbusy (by decide)
  rw [List.append_nil] at hsweep
  rw [← List.length_map (examined group)]
  refine hsweep.card_le (fun page hpage x hx => ?_) fun page hpage => ?_
  · obtain ⟨call, hcall, rfl⟩ := List.mem_map.mp hpage
    obtain ⟨b, hb⟩ := hvalid call hcall
    have hreads := (hreturned call hcall).reads
    exact (hP _ hreads.holds).2 ((hreads.pageOf hb).mem x hx).1
  · obtain ⟨call, hcall, rfl⟩ := List.mem_map.mp hpage
    obtain ⟨b, hb⟩ := hvalid call hcall
    rcases (hreturned call hcall).next_cases hord hb with ⟨-, hzero⟩ | ⟨j, -, -, hfull, -⟩
    · exact absurd hzero (hbusy call hcall)
    · exact hfull

end pages

/-! ## A call ends -/

section ends

variable {group consumer : String} {claimIdle : ℕ} {w : Worker}

/-- A page has a next cursor. -/
theorem exists_advance (page : List (StreamId × Pending)) : ∃ next, advance page = some next := by
  unfold advance
  split_ifs with hshort
  · exact ⟨_, rfl⟩
  · cases hlast : page.getLast? with
    | none =>
      rw [List.getLast?_eq_none_iff.mp hlast] at hshort
      exact absurd (by decide) hshort
    | some e => exact ⟨_, nextId_render e.1⟩

/-- A step takes no call back. -/
theorem length_calls_step (w : Worker) (a : Act) :
    w.calls.length ≤ (step group consumer claimIdle w a).calls.length := by
  cases a with
  | recoverPending =>
    simp only [step]
    split <;> exact le_rfl
  | proceed =>
    simp only [step]
    cases w.scan with
    | none => exact le_rfl
    | some c =>
      cases hrest : c.rest with
      | nil =>
        obtain ⟨next, hnext⟩ := exists_advance c.page
        simp only [hrest, hnext, List.length_append]
        exact Nat.le_add_right _ _
      | cons e rest =>
        simp only [hrest]
        repeat' split
        all_goals exact le_rfl
  | tick d => exact le_rfl
  | createGroup name => exact le_rfl
  | append fields => exact le_rfl
  | deliver name other => exact le_rfl
  | claim name other idle id => exact le_rfl
  | ack name id => exact le_rfl

/-- A step of the worker looks at the next message or ends the call; all other steps leave the call as it
is. -/
theorem step_scan {c : Scan} (hw : w.scan = some c) (a : Act) :
    a.isProceed = false ∧ (step group consumer claimIdle w a).scan = some c ∨
      a.isProceed = true ∧ (w.calls.length < (step group consumer claimIdle w a).calls.length ∨
        ∃ c', (step group consumer claimIdle w a).scan = some c' ∧ c'.rest.length < c.rest.length) := by
  cases a with
  | recoverPending =>
    refine Or.inl ⟨rfl, ?_⟩
    simp only [step, hw]
  | proceed =>
    refine Or.inr ⟨rfl, ?_⟩
    cases hrest : c.rest with
    | nil =>
      obtain ⟨next, hnext⟩ := exists_advance c.page
      left
      simp only [step, hw, hrest, hnext, List.length_append, List.length_singleton]
      exact Nat.lt_succ_self _
    | cons e rest =>
      right
      simp only [step, hw, hrest]
      split
      · split
        · exact ⟨_, rfl, Nat.lt_succ_self _⟩
        · exact ⟨_, rfl, Nat.lt_succ_self _⟩
      · exact ⟨_, rfl, Nat.lt_succ_self _⟩
  | tick d => exact Or.inl ⟨rfl, hw⟩
  | createGroup name => exact Or.inl ⟨rfl, hw⟩
  | append fields => exact Or.inl ⟨rfl, hw⟩
  | deliver name other => exact Or.inl ⟨rfl, hw⟩
  | claim name other idle id => exact Or.inl ⟨rfl, hw⟩
  | ack name id => exact Or.inl ⟨rfl, hw⟩

/-- A call ends when the worker has looked at its messages, whatever happens in between. -/
theorem ends_call {as : List Act} {c : Scan} (hw : w.scan = some c)
    (hsteps : c.rest.length < as.countP Act.isProceed) :
    w.calls.length < (run (step group consumer claimIdle) w as).calls.length := by
  induction as generalizing w c with
  | nil => exact absurd hsteps (Nat.not_lt_zero _)
  | cons a as ih =>
    rw [run_cons]
    rcases step_scan (w := w) hw a with
      ⟨ha, hsame⟩ | ⟨ha, hended | ⟨c', hc', hless⟩⟩
    · rw [List.countP_cons_of_neg (by rw [ha]; decide)] at hsteps
      exact (length_calls_step w a).trans_lt (ih hsame hsteps)
    · refine hended.trans_le ?_
      exact run_rel (step group consumer claimIdle) (I := fun _ => True)
        (R := fun v v' => v.calls.length ≤ v'.calls.length) (fun _ => le_rfl)
        (fun _ _ _ => le_trans) (fun _ _ _ => trivial) (fun v a _ => length_calls_step v a) as trivial
    · rw [List.countP_cons_of_pos ha] at hsteps
      exact (length_calls_step w a).trans_lt (ih hc' (by omega))

end ends

/-! ## The result -/

section result

variable (group consumer : String) (claimIdle : ℕ)

/-- What a call examines: the first pending entries from its cursor on, at most a page of them, and a claim
goes out for those that are old enough. -/
structure Scan.Examines (c : Scan) : Prop where
  page : ∃ a : StreamId, c.cursor = a.render ∧
    PageOf (· < ·) (pendingIds group c.snapshot : Set StreamId) (a ≤ ·) 32 c.ids
  pending : ∀ e ∈ c.page, c.snapshot.pendingOf group e.1 = some e.2
  issued : c.issued = (c.page.filter (c.idle claimIdle)).map Prod.fst

/-- A worker before its first call. -/
structure Worker.Starts (w : Worker) : Prop where
  scan : w.scan = none
  calls : w.calls = []
  cursor : ∃ a : StreamId, w.pendingCursor = a.render

variable {group consumer claimIdle} {w : Worker} {as : List Act}

/-- A call that returned from a cursor examines the first pending entries from there on. -/
theorem Returned.examines {P : EventStream → Prop} {call : Scan × String} {a : StreamId}
    (h : Returned group claimIdle P call) (hcursor : call.1.cursor = a.render) :
    call.1.Examines group claimIdle where
  page := ⟨a, hcursor, h.reads.pageOf hcursor⟩
  pending _ he := h.reads.pendingOf hcursor he
  issued := by
    obtain ⟨seen, hseen, hissued⟩ := h.reads.issued_eq
    rw [h.rest_eq, List.append_nil] at hseen
    rw [hissued, hseen]

/-- The sweep over the pending entries skips nobody, in whatever order the worker's calls and the commands
of all others come:

* the cursor is the text of an id, and every call examines a page from its cursor on;
* between two moments at which the cursor is `0-0`, and no moment between them, an entry that is pending all
  the while is examined once;
* while no new entry becomes pending, one of so many calls comes back to `0-0`;
* a call ends after one step for each of its messages and one more. -/
theorem pending_sweep (hw : w.Starts)
    (hordinary : Along (fun v _ => Ordinary group v.stream) (step group consumer claimIdle) w as) :
    let after := run (step group consumer claimIdle) w
    (∃ id : StreamId, (after as).pendingCursor = id.render) ∧
    (∀ call ∈ (after as).calls, call.1.Examines group claimIdle) ∧
    (∀ as₁ as₂ calls last id, as = as₁ ++ as₂ → (after as₁).scan = none →
      (after as₁).pendingCursor = "0-0" → (after as).calls = (after as₁).calls ++ (calls ++ [last]) →
      (∀ call ∈ calls, call.2 ≠ "0-0") → last.2 = "0-0" →
      Along (fun v _ => id ∈ pendingIds group v.stream) (step group consumer claimIdle) (after as₁) as₂ →
      (List.flatMap (fun call => call.1.ids) (calls ++ [last])).count id = 1) ∧
    (∀ as₁ as₂ calls, as = as₁ ++ as₂ → (after as₁).scan = none →
      (after as).calls = (after as₁).calls ++ calls →
      Along (fun v _ => pendingIds group v.stream ⊆ pendingIds group (after as₁).stream)
        (step group consumer claimIdle) (after as₁) as₂ →
      (pendingIds group (after as₁).stream).card < 32 * calls.length →
      ∃ call ∈ calls, call.2 = "0-0") ∧
    ∀ as₁ as₂ c, as = as₁ ++ as₂ → (after as₁).scan = some c →
      c.rest.length < as₂.countP Act.isProceed → (after as₁).calls.length < (after as).calls.length := by
  intro after
  obtain ⟨a, ha⟩ := hw.cursor
  have hvalid : ∀ as', Along (fun v _ => Ordinary group v.stream) (step group consumer claimIdle) w as' →
      (∃ id : StreamId, (after as').pendingCursor = id.render) ∧
        ∀ call ∈ (after as').calls, call.1.Examines group claimIdle := by
    intro as' hord
    obtain ⟨calls, hcalls, hchain⟩ := exists_chained hw.scan hord
    rw [ha] at hchain
    obtain ⟨hfinish, hstarts⟩ := hchain.valid fun _ hs => hs
    refine ⟨hfinish, fun call hcall => ?_⟩
    rw [hcalls, hw.calls, List.nil_append] at hcall
    obtain ⟨b, hb⟩ := hstarts call hcall
    exact (hchain.returned call hcall).examines hb
  refine ⟨(hvalid as hordinary).1, (hvalid as hordinary).2, ?_, ?_, ?_⟩
  · rintro as₁ as₂ calls last id rfl hscan hcursor hcalls hbusy hback hpending
    have hordinary := ((along_append _ as₁ as₂ w).mp hordinary).2
    have hchain := chained_between (P := fun s => Ordinary group s ∧ id ∈ pendingIds group s) hscan
      (along_and _ as₂ _ hordinary hpending) hcalls
    rw [hcursor] at hchain
    exact hchain.count_eq_one (fun _ hs => hs) hbusy hback
  · rintro as₁ as₂ calls rfl hscan hcalls hpending hmany
    obtain ⟨hbefore, hordinary⟩ := (along_append _ as₁ as₂ w).mp hordinary
    obtain ⟨b, hb⟩ := (hvalid as₁ hbefore).1
    have hchain := chained_between
      (P := fun s => Ordinary group s ∧ pendingIds group s ⊆ pendingIds group (after as₁).stream) hscan
      (along_and _ as₂ _ hordinary hpending) hcalls
    rw [hb] at hchain
    by_contra hnever
    push Not at hnever
    exact absurd (hchain.length_le (fun _ hs => hs) hnever) (not_le.mpr hmany)
  · rintro as₁ as₂ c rfl hscan hsteps
    simp only [after, run_append]
    exact ends_call hscan hsteps

/-- A worker whose stream is new, its group about to be created. -/
def newWorker : Worker := ⟨.empty, 0, "0-0", none, []⟩

/-- 33 entries are appended and delivered to another consumer, one more than a page holds. -/
def delivering : List Act :=
  .createGroup "g1" :: (List.replicate 33 (.append []) ++ List.replicate 33 (.deliver "g1" "order-2"))

/-- A minute later the worker reads its first page. -/
def reading : List Act := [.tick 60000, .recoverPending]

/-- It claims the entries of its first page, while somebody acknowledges the second of them, and then reads and claims
the last entry. -/
def claiming : List Act :=
  .proceed :: .ack "g1" ⟨0, 2⟩ :: (List.replicate 32 .proceed ++ .recoverPending :: List.replicate 2 .proceed)

/-- Two calls sweep 33 entries: the last one, which stays pending, is examined once, by the second call, and then the
cursor is `0-0` again. -/
theorem pending_sweep_twoPages :
    let after := run (step "g1" "order-1" 60000) newWorker
    let as := delivering ++ (reading ++ claiming)
    (∃ id : StreamId, (after as).pendingCursor = id.render) ∧
    (∀ call ∈ (after as).calls, call.1.Examines "g1" 60000) ∧
    (after as).calls.map Prod.snd = ["0-33", "0-0"] ∧
    (List.flatMap (fun call => call.1.ids) (after as).calls).count ⟨0, 33⟩ = 1 ∧
    (∃ call ∈ (after as).calls, call.2 = "0-0") ∧
    (after (delivering ++ reading)).calls.length < (after as).calls.length := by
  intro after as
  have hstarts : newWorker.Starts := ⟨rfl, rfl, ⟨.zero, rfl⟩⟩
  have hordinary : Along (fun v _ => Ordinary "g1" v.stream) (step "g1" "order-1" 60000) newWorker as := by
    decide +kernel
  obtain ⟨hcursor, hexamines, honce, hback, hends⟩ := pending_sweep hstarts hordinary
  -- the two calls, and what they leave
  have hnone : (after delivering).calls = [] := List.eq_nil_of_length_eq_zero (by decide +kernel)
  have hnexts : (after as).calls.map Prod.snd = ["0-33", "0-0"] := by decide +kernel
  obtain ⟨first, second, hcalls⟩ : ∃ first second, (after as).calls = [first, second] := by
    rw [← List.length_eq_two, ← List.length_map Prod.snd, hnexts]
    rfl
  have hleft : first.2 = "0-33" ∧ second.2 = "0-0" := by
    rw [hcalls] at hnexts
    simpa using hnexts
  have hscan : (after delivering).scan = none := Option.isNone_iff_eq_none.mp (by decide +kernel)
  have hsplit : (after as).calls = (after delivering).calls ++ ([first] ++ [second]) := by
    rw [hnone, hcalls]
    rfl
  refine ⟨hcursor, hexamines, hnexts, ?_, ?_, ?_⟩
  · rw [hcalls]
    refine honce delivering (reading ++ claiming) [first] second ⟨0, 33⟩ rfl hscan (by decide +kernel) hsplit ?_
      hleft.2 (by decide +kernel)
    intro call hcall
    rw [List.mem_singleton.mp hcall, hleft.1]
    decide
  · refine hback delivering (reading ++ claiming) (after as).calls rfl hscan (by rw [hnone, List.nil_append])
      (by decide +kernel) ?_
    have hcard : (pendingIds "g1" (after delivering).stream).card < 32 * 2 := by decide +kernel
    rw [hcalls]
    exact hcard
  · obtain ⟨c, hc⟩ : ∃ c, (after (delivering ++ reading)).scan = some c :=
      Option.isSome_iff_exists.mp (by decide +kernel)
    have hrest : ∀ c ∈ (after (delivering ++ reading)).scan, c.rest.length = 32 := by decide +kernel
    refine hends (delivering ++ reading) claiming c (List.append_assoc ..).symm hc ?_
    rw [hrest c hc]
    decide

end result

end CampusHub.OrderQueue.Recovery
