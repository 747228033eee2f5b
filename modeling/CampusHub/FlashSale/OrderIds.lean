import CampusHub.Foundations.Decimal
import CampusHub.Foundations.Maps
import CampusHub.Foundations.Runs

/-!
# Order ids

* `LocalDateTime`, `LocalDate` — a reading of a clock and its date.
* `nextId` — the id of a reading and of a count.
* `State`, `Act`, `step` — calls of any number of instances. The reading of the clock and the increment of
  the counter are two steps.
* `order_ids_distinct` — no id is issued twice.

**Theorem** (`order_ids_distinct`). Any number of threads of any instances draw ids; each reads its clock
and then increments the counter of the date that it read, in two steps between which the others go on. As
long as the readings are in range and no date is counted up to `2^32`, no id is drawn twice and every id is
positive, whatever the clocks do.

**Proof route.** An id holds its reading and its count in separate bits (`toNat_nextId`). Equal ids have the
same second, so the same date, so the same counter (`counterKey_eq_iff`); and of one counter every count is
answered once (`Counted`), which is kept by every step. That the key of a counter names one date needs that
the text of a date does (`format_injective`).

**Left out.** Counters that are lost when Redis loses its data, and years from 10000 on.
-/

namespace CampusHub.FlashSale.OrderIds

open CampusHub.Foundations.Decimal CampusHub.Foundations.Maps CampusHub.Foundations.Runs

/-! ## Dates -/

structure LocalDate where
  year : ℕ
  month : ℕ
  day : ℕ
  deriving DecidableEq

/-- `LocalDate.ofEpochDay`, of a day from 1970 on. The year of its reckoning starts in March. -/
def LocalDate.ofEpochDay (epochDay : ℕ) : LocalDate :=
  let zeroDay : ℤ := epochDay + 719528 - 60
  let dayOfYear (year : ℤ) : ℤ := zeroDay - (365 * year + year / 4 - year / 100 + year / 400)
  let yearEst : ℤ := (400 * zeroDay + 591) / 146097
  let yearEst := if dayOfYear yearEst < 0 then yearEst - 1 else yearEst
  let marchDay0 := (dayOfYear yearEst).toNat
  let marchMonth0 := (marchDay0 * 5 + 2) / 153
  { year := (yearEst + (marchMonth0 / 10 : ℕ)).toNat
    month := (marchMonth0 + 2) % 12 + 1
    day := marchDay0 - (marchMonth0 * 306 + 5) / 10 + 1 }

example : LocalDate.ofEpochDay 18993 = ⟨2022, 1, 1⟩ := by decide

/-- A decimal text with zeros in front up to a width. -/
def padded (width n : ℕ) : List Char :=
  List.replicate (width - (decimal n).toList.length) '0' ++ (decimal n).toList

/-- `DateTimeFormatter.ofPattern("yyyy:MM:dd")`, of a year before 10000. -/
def LocalDate.format (date : LocalDate) : String :=
  String.ofList (padded 4 date.year ++ ':' :: (padded 2 date.month ++ ':' :: padded 2 date.day))

/-- A reading of a local clock: the seconds from 1970-01-01T00:00:00 on the same clock. -/
structure LocalDateTime where
  second : ℕ
  deriving DecidableEq

def LocalDateTime.date (now : LocalDateTime) : LocalDate := .ofEpochDay (now.second / 86400)

/-! ## The model -/

/-- Source: `RedisIdWorker.java` 19. -/
def beginTimestamp : ℤ := 1640995200

/-- Source: `RedisIdWorker.java` 22. -/
def countBits : ℕ := 32

/-- Source: `RedisIdWorker.java` 28–29. -/
def counterKey (key : String) (now : LocalDateTime) : String := "icr:" ++ key ++ ":" ++ now.date.format

/-- The id of a reading and of the count that `INCR` answered. Source: `RedisIdWorker.java` 26–30. -/
def nextId (now : LocalDateTime) (count : ℕ) : BitVec 64 :=
  let timestamp : ℤ := now.second - beginTimestamp
  BitVec.ofInt 64 timestamp <<< countBits ||| BitVec.ofNat 64 count

/-- An increment that was made, with its reading and its count. -/
structure Issue where
  now : LocalDateTime
  count : ℕ

def Issue.id (i : Issue) : BitVec 64 := nextId i.now i.count

/-- The counters, the calls that have read their clock, and the increments made so far. -/
structure State where
  counters : FiniteMap String ℕ
  calls : ℕ → Option LocalDateTime
  issued : List Issue

/-- A caller is a thread of any instance. -/
inductive Act where
  | read (caller : ℕ) (now : LocalDateTime)
  | increment (caller : ℕ)

section model

variable (key : String)

/-- The next state. An action whose caller is not where the action wants it changes nothing. -/
def step (s : State) : Act → State
  | .read caller now =>
    match s.calls caller with
    | some _ => s
    | none => { s with calls := Function.update s.calls caller (some now) }
  | .increment caller =>
    match s.calls caller with
    | none => s
    | some now =>
      let count := (s.counters.lookup (counterKey key now)).getD 0 + 1
      { counters := s.counters.insert (counterKey key now) count
        calls := Function.update s.calls caller none
        issued := s.issued ++ [⟨now, count⟩] }

end model

/-- Before the first call. -/
def start : State := ⟨∅, fun _ => none, []⟩

/-- From one second after the begin on, for less than `2 ^ 31` seconds. -/
def LocalDateTime.InRange (now : LocalDateTime) : Prop :=
  1640995201 ≤ now.second ∧ now.second < 1640995200 + 2147483648

def Act.InRange : Act → Prop
  | .read _ now => now.InRange
  | .increment _ => True

/-! ## Texts of dates -/

/-- A padded text has digits only. -/
theorem isDigit_of_mem_padded {width n : ℕ} {c : Char} (h : c ∈ padded width n) : c.isDigit = true := by
  rcases List.mem_append.mp h with h | h
  · rw [List.eq_of_mem_replicate h]
    decide
  · exact isDigit_of_mem_decimal h

/-- Zeros in front do not count. -/
theorem ofDigitChars_replicate_zero (k : ℕ) (cs : List Char) :
    Nat.ofDigitChars 10 (List.replicate k '0' ++ cs) 0 = Nat.ofDigitChars 10 cs 0 := by
  induction k with
  | zero => rfl
  | succ k ih =>
    rw [List.replicate_succ, List.cons_append, ofDigitChars_cons_zero, ih]
    simp

/-- Padded to one width, different numbers have different texts. -/
theorem padded_injective (width : ℕ) : Function.Injective (padded width) := by
  intro m n h
  have hvalue := congrArg (fun cs => Nat.ofDigitChars 10 cs 0) h
  unfold padded at hvalue
  simp only [ofDigitChars_replicate_zero, ofDigitChars_decimal] at hvalue
  exact hvalue

/-- Digits up to a colon are told from what follows. -/
theorem append_colon_inj {as bs r r' : List Char} (ha : ∀ c ∈ as, c.isDigit = true)
    (hb : ∀ c ∈ bs, c.isDigit = true) (h : as ++ ':' :: r = bs ++ ':' :: r') : as = bs ∧ r = r' := by
  have hfront : ∀ {cs tail : List Char}, (∀ c ∈ cs, c.isDigit = true) →
      (cs ++ ':' :: tail).takeWhile (· ≠ ':') = cs := by
    intro cs tail hcs
    have hall : ∀ c ∈ cs, (decide (c ≠ ':')) = true := by
      intro c hc
      exact decide_eq_true (ne_of_isDigit (hcs c hc) (by decide))
    rw [List.takeWhile_append_of_pos hall]
    simp
  have hsame := congrArg (List.takeWhile (· ≠ ':')) h
  rw [hfront ha, hfront hb] at hsame
  subst hsame
  exact ⟨rfl, (List.cons.inj (List.append_cancel_left h)).2⟩

/-- A text names one date. -/
theorem format_injective : Function.Injective LocalDate.format := by
  rintro ⟨y, m, d⟩ ⟨y', m', d'⟩ h
  have hlists := congrArg String.toList h
  unfold LocalDate.format at hlists
  rw [String.toList_ofList, String.toList_ofList] at hlists
  obtain ⟨hyear, hlists⟩ := append_colon_inj (fun _ => isDigit_of_mem_padded)
    (fun _ => isDigit_of_mem_padded) hlists
  obtain ⟨hmonth, hday⟩ := append_colon_inj (fun _ => isDigit_of_mem_padded)
    (fun _ => isDigit_of_mem_padded) hlists
  obtain rfl := padded_injective 4 hyear
  obtain rfl := padded_injective 2 hmonth
  obtain rfl := padded_injective 2 hday
  rfl

/-- Readings share a counter when they share their date. -/
theorem counterKey_eq_iff {key : String} {now now' : LocalDateTime} :
    counterKey key now = counterKey key now' ↔ now.date = now'.date := by
  unfold counterKey
  rw [String.append_right_inj]
  exact format_injective.eq_iff

/-! ## The number of a reading and of a count -/

/-- An id holds its reading and its count, and its sign bit is not set. -/
theorem toNat_nextId {now : LocalDateTime} {count : ℕ} (hnow : now.InRange) (hcount : count < 2 ^ 32) :
    (nextId now count).toNat = (now.second - 1640995200) * 2 ^ 32 + count := by
  obtain ⟨hlow, hhigh⟩ := hnow
  have htime : (now.second : ℤ) - beginTimestamp = ((now.second - 1640995200 : ℕ) : ℤ) := by
    unfold beginTimestamp
    omega
  have hbits : countBits = 32 := rfl
  unfold nextId
  simp only [htime]
  rw [BitVec.ofInt_natCast, BitVec.toNat_or, BitVec.toNat_shiftLeft, BitVec.toNat_ofNat,
    BitVec.toNat_ofNat, hbits, Nat.mod_eq_of_lt (by omega), Nat.shiftLeft_eq, Nat.mod_eq_of_lt (by omega),
    Nat.mod_eq_of_lt (by omega), ← Nat.shiftLeft_eq, ← Nat.shiftLeft_add_eq_or_of_lt hcount,
    Nat.shiftLeft_eq]

/-- Ids that are equal have one reading and one count. -/
theorem eq_of_nextId_eq {now now' : LocalDateTime} {count count' : ℕ} (hnow : now.InRange)
    (hnow' : now'.InRange) (hcount : count < 2 ^ 32) (hcount' : count' < 2 ^ 32)
    (h : nextId now count = nextId now' count') : now = now' ∧ count = count' := by
  have hvalue := congrArg BitVec.toNat h
  rw [toNat_nextId hnow hcount, toNat_nextId hnow' hcount'] at hvalue
  obtain ⟨s⟩ := now
  obtain ⟨s'⟩ := now'
  obtain ⟨hlow, -⟩ := hnow
  obtain ⟨hlow', -⟩ := hnow'
  simp only [LocalDateTime.mk.injEq] at hlow hlow' hvalue ⊢
  omega

/-- An id is positive. -/
theorem nextId_pos {now : LocalDateTime} {count : ℕ} (hnow : now.InRange) (hcount : count < 2 ^ 32) :
    0 < (nextId now count).toInt := by
  have hvalue := toNat_nextId hnow hcount
  obtain ⟨hlow, hhigh⟩ := hnow
  rw [BitVec.toInt_eq_toNat_of_lt (by omega)]
  omega

/-! ## The counters -/

section counters

variable (key : String)

/-- How many increments a counter has seen. -/
def seen (s : State) (text : String) : ℕ := s.issued.countP fun i => decide (counterKey key i.now = text)

/-- **What the counters say**: as many as they have seen, and each count is its own among those of its
counter. -/
structure Counted (s : State) : Prop where
  counters : ∀ text, (s.counters.lookup text).getD 0 = seen key s text
  ordered : s.issued.Pairwise fun i j => counterKey key i.now = counterKey key j.now → i.count < j.count
  bounded : ∀ i ∈ s.issued, i.count ≤ seen key s (counterKey key i.now)
  inRange : ∀ i ∈ s.issued, i.now.InRange
  calls : ∀ caller now, s.calls caller = some now → now.InRange

variable {key} {s : State}

/-- Before the first call the counters have seen nothing. -/
theorem counted_start : Counted key start where
  counters _ := rfl
  ordered := List.Pairwise.nil
  bounded := nofun
  inRange := nofun
  calls := nofun

/-- The next increment of a counter. -/
theorem Counted.increment (h : Counted key s) {caller : ℕ} {now : LocalDateTime}
    (hnow : s.calls caller = some now) : Counted key (step key s (.increment caller)) := by
  have hstep : step key s (.increment caller) =
      { counters := s.counters.insert (counterKey key now) (seen key s (counterKey key now) + 1)
        calls := Function.update s.calls caller none
        issued := s.issued ++ [⟨now, seen key s (counterKey key now) + 1⟩] } := by
    simp only [step, hnow, h.counters]
  have hseen : ∀ text, seen key (step key s (.increment caller)) text =
      seen key s text + if counterKey key now = text then 1 else 0 := by
    intro text
    rw [hstep]
    unfold seen
    rw [List.countP_append, List.countP_singleton]
    simp only [decide_eq_true_eq]
  have hbounded : ∀ i ∈ (step key s (.increment caller)).issued,
      i.count ≤ seen key (step key s (.increment caller)) (counterKey key i.now) := by
    intro i hi
    rw [hseen]
    rw [hstep] at hi
    rcases List.mem_append.mp hi with hi | hi
    · exact (h.bounded i hi).trans (Nat.le_add_right _ _)
    · obtain rfl := List.mem_singleton.mp hi
      rw [if_pos rfl]
  refine ⟨fun text => ?_, ?_, hbounded, ?_, ?_⟩
  · rw [hseen, hstep]
    simp only [lookup_insert_eq]
    by_cases htext : text = counterKey key now
    · subst htext
      rw [if_pos rfl, if_pos rfl]
      rfl
    · rw [if_neg htext, if_neg fun heq => htext heq.symm, h.counters]
      rfl
  · rw [hstep]
    refine List.pairwise_append.mpr ⟨h.ordered, List.pairwise_singleton _ _, ?_⟩
    intro i hi j hj hkey
    obtain rfl := List.mem_singleton.mp hj
    have hle := h.bounded i hi
    rw [hkey] at hle
    exact Nat.lt_succ_of_le hle
  · rw [hstep]
    intro i hi
    rcases List.mem_append.mp hi with hi | hi
    · exact h.inRange i hi
    · obtain rfl := List.mem_singleton.mp hi
      exact h.calls caller now hnow
  · rw [hstep]
    intro other now' hother
    simp only [Function.update_apply] at hother
    split at hother
    · cases hother
    · exact h.calls other now' hother

/-- **Step lemma**: a step on a date in range keeps the counters and what was issued in step. -/
theorem Counted.step (h : Counted key s) {a : Act} (ha : a.InRange) : Counted key (step key s a) := by
  cases a with
  | read caller now =>
    simp only [OrderIds.step]
    cases hcaller : s.calls caller with
    | some _ => exact h
    | none =>
      refine ⟨h.counters, h.ordered, h.bounded, h.inRange, fun other now' hother => ?_⟩
      simp only [Function.update_apply] at hother
      split at hother
      · obtain rfl := Option.some.inj hother
        exact ha
      · exact h.calls other now' hother
  | increment caller =>
    cases hcaller : s.calls caller with
    | some now => exact h.increment hcaller
    | none =>
      simp only [OrderIds.step, hcaller]
      exact h

/-- **Run lemma**: every run on dates in range keeps them in step. -/
theorem counted_run {as : List Act} (has : ∀ a ∈ as, a.InRange) :
    Counted key (run (step key) start as) :=
  run_invariant_of_along (step key) (fun _ _ h ha => h.step ha) as start counted_start
    (along_of_forall (step key) as start has)

/-- Below `2 ^ 32` increments a day every count fits its bits. -/
theorem Counted.count_lt (h : Counted key s)
    (hday : ∀ date, s.issued.countP (fun i => decide (i.now.date = date)) < 2 ^ 32) {i : Issue}
    (hi : i ∈ s.issued) : i.count < 2 ^ 32 := by
  refine (h.bounded i hi).trans_lt ?_
  have hsame : seen key s (counterKey key i.now) =
      s.issued.countP fun j => decide (j.now.date = i.now.date) := by
    unfold seen
    simp only [counterKey_eq_iff]
  rw [hsame]
  exact hday i.now.date

end counters

/-- **No order id is issued twice**, and all are positive: for any callers, clock readings and orders of the
increments, while no calendar date sees `2 ^ 32` of them. -/
theorem order_ids_distinct (key : String) {as : List Act} (has : ∀ a ∈ as, a.InRange)
    (hday : ∀ date, (run (step key) start as).issued.countP (fun i => decide (i.now.date = date)) <
      2 ^ 32) :
    ((run (step key) start as).issued.map Issue.id).Nodup ∧
      ∀ i ∈ (run (step key) start as).issued, 0 < i.id.toInt := by
  have h : Counted key (run (step key) start as) := counted_run has
  constructor
  · rw [List.Nodup, List.pairwise_map]
    refine List.Pairwise.imp_of_mem (fun {i j} hi hj hlt heq => ?_) h.ordered
    obtain ⟨hnow, hcount⟩ := eq_of_nextId_eq (h.inRange i hi) (h.inRange j hj) (h.count_lt hday hi)
      (h.count_lt hday hj) heq
    exact absurd hcount (hlt (congrArg _ hnow)).ne
  · intro i hi
    exact nextId_pos (h.inRange i hi) (h.count_lt hday hi)

/-- Two callers, the second with a clock behind the first, over the end of 2022. -/
def twoCallers : List Act :=
  [.read 1 ⟨1672531200⟩, .read 2 ⟨1672531199⟩, .increment 2, .increment 1]

/-- The two callers get different ids. -/
theorem order_ids_distinct_twoCallers :
    ((run (step "order") start twoCallers).issued.map Issue.id).Nodup := by
  have hrange : ∀ a ∈ twoCallers, a.InRange := by
    simp [twoCallers, Act.InRange, LocalDateTime.InRange]
  refine (order_ids_distinct "order" hrange fun date => ?_).1
  have hissued : (run (step "order") start twoCallers).issued.length = 2 := by decide
  have hcount : (run (step "order") start twoCallers).issued.countP
      (fun i => decide (i.now.date = date)) ≤ _ := List.countP_le_length
  omega

end CampusHub.FlashSale.OrderIds
