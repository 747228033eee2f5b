import Mathlib.Order.Bounds.Defs
import CampusHub.Foundations.Loops
import CampusHub.Foundations.Runs
import CampusHub.Redis.Bitmaps
import CampusHub.Engagement.MonthKeys

/-!
# Check-in

* `CheckInStore`, `sign`, `signCount` — the service over its store.
* `redisCheckInStore` — the store that keeps a bitmap for each month of a user.
* `Act`, `step` — calls of any users on any dates.
* `IsRun` — so many signed days in a row that end on a date and lie in its month.
* `signCount_of_bytes` — what the service answers after any calls, in terms of the bitmap before them.
* `signCount_longest_run` — the longest run, where no call was made in the month of the other era.

**Theorem** (`signCount_longest_run`). From a store without a bitmap of the month, and with no call in the
month of the other era that shares the bitmap, the answer is the longest run of signed days that ends on the
date and lies in its month. It is 0 when the date is not signed, and the same after all calls that sign the
same days. The loop ends for every number that the store can answer.

**Theorem** (`signCount_other_era`). That condition is needed: a call in the year before year 1 counts in
year 1.

**Proof route.** Calls set bits and never clear one, so the bitmap after any calls is what it was with the
bits that they mark (`run_bytes`). `BITFIELD` answers the days up to the date with the date at the low end
(`signedDays_of_bytes`), and the loop counts the ones there (`countDays_ends`).

**Left out.** Runs of days over the end of a month: the source counts within the month.
-/

namespace CampusHub.Engagement

open CampusHub.Redis CampusHub.Foundations.Bits CampusHub.Foundations.Loops CampusHub.Foundations

/-! ## The service -/

/-- The port of the service. Source: `CheckInStore.java`. -/
structure CheckInStore (σ : Type) where
  markSigned : Option ℤ → LocalDate → σ → Except Failure σ
  signedDays : Option ℤ → LocalDate → σ → Except Failure (BitVec 64)

/-- `(signedDays & 1L) == 1L` -/
def lastSigned (s : BitVec 64 × ℕ) : Bool := s.1 &&& 1 == 1

/-- `count++; signedDays >>>= 1;` -/
def countDay (s : BitVec 64 × ℕ) : BitVec 64 × ℕ := (s.1 >>> 1, s.2 + 1)

/-- The loop over the days; none when it takes more than `fuel` tests.
Source: `CheckInService.java` 23–28. -/
def countDays (fuel : ℕ) (signedDays : BitVec 64) : Option ℕ :=
  (loop lastSigned countDay fuel (signedDays, 0)).map Prod.snd

section service

variable {σ : Type} (store : CheckInStore σ)

/-- A call on the date `today` of the clock. Source: `CheckInService.java` 15–18. -/
def sign (userId : Option ℤ) (today : LocalDate) (s : σ) : Except Failure σ :=
  store.markSigned userId today s

/-- Source: `CheckInService.java` 20–29. -/
def signCount (fuel : ℕ) (userId : Option ℤ) (today : LocalDate) (s : σ) :
    Except Failure (Option ℕ) := do
  let signedDays ← store.signedDays userId today s
  .ok (countDays fuel signedDays)

end service

/-! ## The store -/

/-- The first number of a reply; `0` where the client has no reply, an empty one or no number.
Source: `RedisCheckInStore.java` 37–40. -/
def firstReply : Option (List (Option (BitVec 64))) → BitVec 64
  | some (some days :: _) => days
  | _ => 0

/-- Source: `RedisCheckInStore.java` 24–41. -/
def redisCheckInStore : CheckInStore (Database String) where
  markSigned userId date redis := redis.setBit (key userId date) (date.day - 1) true
  signedDays userId date redis := do
    let result ← redis.bitfieldGet (key userId date) date.day 0
    .ok (firstReply (some (result.map some)))

/-! ## Calls -/

/-- Calls, each with the user of the session and the date of the clock. -/
inductive Act where
  | sign (userId : Option ℤ) (today : LocalDate)
  | signCount (userId : Option ℤ) (today : LocalDate)

/-- The database after a call. A call that fails leaves it as it is. -/
def step (redis : Database String) : Act → Database String
  | .sign userId today =>
    match sign redisCheckInStore userId today redis with
    | .ok redis' => redis'
    | .error _ => redis
  | .signCount _ _ => redis

/-- The user made a sign call on the date. -/
def Signed (as : List Act) (userId : Option ℤ) (date : LocalDate) : Prop := .sign userId date ∈ as

/-- `n` signed days in a row, the last of them `d`, all in the month of `d`. -/
def IsRun (signed : LocalDate → Prop) (d : LocalDate) (n : ℕ) : Prop :=
  ∀ i < n, ∃ e : LocalDate, e.SameMonth d ∧ e.day + i = d.day ∧ signed e

/-- The call sets the bit of the key. -/
def Act.Marks (k : String) (offset : ℕ) : Act → Prop
  | .sign userId date => key userId date = k ∧ date.day - 1 = offset
  | .signCount _ _ => False

/-! ## The loop -/

/-- After `n` rounds `n` days are shifted out and counted. -/
theorem iterate_countDay (v : BitVec 64) (c n : ℕ) : countDay^[n] (v, c) = (v >>> n, c + n) := by
  induction n generalizing v c with
  | zero => simp
  | succ n ih =>
    rw [Function.iterate_succ_apply, countDay, ih, ← BitVec.shiftRight_add, Nat.add_comm 1 n,
      Nat.add_assoc, Nat.add_comm 1 n]

/-- After `n` rounds the bit `n` is tested. -/
theorem lastSigned_iterate (v : BitVec 64) (c n : ℕ) :
    lastSigned (countDay^[n] (v, c)) = v.getLsbD n := by
  rw [iterate_countDay, lastSigned, and_one_beq_one (by omega), BitVec.getLsbD_ushiftRight, Nat.add_zero]

/-- **The loop ends for every number, and answers how many ones stand at its low end.** -/
theorem countDays_ends (signedDays : BitVec 64) :
    ∃ n ≤ 64, (∀ fuel, 65 ≤ fuel → countDays fuel signedDays = some n) ∧
      IsGreatest {m | ∀ i < m, signedDays.getLsbD i = true} n := by
  have hpast : lastSigned (countDay^[64] (signedDays, 0)) = false := by
    rw [lastSigned_iterate]
    exact BitVec.getLsbD_of_ge signedDays 64 le_rfl
  obtain ⟨n, hn, hexits⟩ := exists_exits hpast
  refine ⟨n, hn, ?_, ?_, ?_⟩
  · intro fuel hfuel
    rw [countDays, loop_eq_some_iff.mpr ⟨n, by omega, hexits, rfl⟩, iterate_countDay, Option.map_some,
      Nat.zero_add]
  · intro i hi
    rw [← lastSigned_iterate signedDays 0]
    exact hexits.goes_on i hi
  · intro m hm
    by_contra hlt
    have hone := hm n (not_le.mp hlt)
    rw [← lastSigned_iterate signedDays 0, hexits.stops] at hone
    cases hone

/-! ## The bitmaps -/

variable {redis : Database String} {k : String} {bytes : List (BitVec 8)}

/-- **Step lemma**: a call sets the bit it marks, and no other. -/
theorem step_bytes (h : redis.bytesAt k = .ok bytes) (a : Act) :
    ∃ bytes', (step redis a).bytesAt k = .ok bytes' ∧
      ∀ o, bitAt bytes' o = true ↔ bitAt bytes o = true ∨ a.Marks k o := by
  cases a with
  | signCount userId today => exact ⟨bytes, h, fun o => by simp [Act.Marks]⟩
  | sign userId today =>
    cases hset : redis.setBit (key userId today) (today.day - 1) true with
    | error e =>
      have hstep : step redis (.sign userId today) = redis := by
        simp only [step, sign, redisCheckInStore, hset]
      have hne : key userId today ≠ k := by
        rintro rfl
        rw [Database.setBit_eq_ok_iff.mpr ⟨bytes, h, rfl⟩] at hset
        cases hset
      exact ⟨bytes, by rw [hstep, h], fun o => by simp [Act.Marks, hne]⟩
    | ok redis' =>
      have hstep : step redis (.sign userId today) = redis' := by
        simp only [step, sign, redisCheckInStore, hset]
      obtain ⟨before, hbefore, rfl⟩ := Database.setBit_eq_ok_iff.mp hset
      rw [hstep]
      by_cases hk : k = key userId today
      · subst hk
        rw [h, Except.ok.injEq] at hbefore
        subst hbefore
        refine ⟨_, Database.bytesAt_putString_self _, ?_⟩
        intro o
        rw [bitAt_writeBit]
        by_cases ho : o = today.day - 1
        · simp [Act.Marks, ho]
        · simp [Act.Marks, ho, Ne.symm ho]
      · exact ⟨bytes, by rw [Database.bytesAt_putString_of_ne hk, h],
          fun o => by simp [Act.Marks, Ne.symm hk]⟩

/-- **Run lemma**: the bits after any calls are those before them and those that the calls mark. -/
theorem run_bytes (h : redis.bytesAt k = .ok bytes) (as : List Act) :
    ∃ bytes', (Runs.run step redis as).bytesAt k = .ok bytes' ∧
      ∀ o, bitAt bytes' o = true ↔ bitAt bytes o = true ∨ ∃ a ∈ as, a.Marks k o := by
  induction as generalizing redis bytes with
  | nil => exact ⟨bytes, h, fun o => by simp⟩
  | cons a as ih =>
    obtain ⟨middle, hmiddle, hfirst⟩ := step_bytes h a
    obtain ⟨last, hlast, hrest⟩ := ih hmiddle
    refine ⟨last, hlast, ?_⟩
    intro o
    rw [hrest, hfirst, List.exists_mem_cons_iff, or_assoc]

/-- The store answers the days of the month up to the date, the date at the low end. -/
theorem signedDays_of_bytes {userId : Option ℤ} {date : LocalDate}
    (h : redis.bytesAt (key userId date) = .ok bytes) :
    ∃ days, redisCheckInStore.signedDays userId date redis = .ok days ∧
      ∀ i, days.getLsbD i = true ↔ i < date.day ∧ bitAt bytes (date.day - 1 - i) = true := by
  refine ⟨unsignedField bytes 0 date.day, ?_, ?_⟩
  · simp [redisCheckInStore, Database.bitfieldGet, h, Bind.bind, Except.bind, firstReply]
  · intro i
    have hday := date.day_le
    rw [getLsbD_unsignedField bytes 0 (by omega), Bool.and_eq_true, decide_eq_true_eq, Nat.zero_add]

/-! ## The answers -/

variable {as : List Act} {userId : Option ℤ} {date : LocalDate}

/-- Which bits the calls set. -/
theorem exists_marks_iff {o : ℕ} : (∃ a ∈ as, a.Marks (key userId date) o) ↔
    ∃ e : LocalDate, e.SharesBitmap date ∧ e.day - 1 = o ∧ Signed as userId e := by
  constructor
  · rintro ⟨a, ha, hmarks⟩
    cases a with
    | signCount u e => exact hmarks.elim
    | sign u e =>
      obtain ⟨rfl, hshares⟩ := key_eq_iff.mp hmarks.1
      exact ⟨e, hshares, hmarks.2, ha⟩
  · rintro ⟨e, hshares, hday, hsigned⟩
    exact ⟨_, hsigned, key_eq_iff.mpr ⟨rfl, hshares⟩, hday⟩

/-- **What the service answers after any calls**: so many days up to the date whose bit was set before
the calls, or that a call signed in a month that shares the bitmap. -/
theorem signCount_of_bytes (h : redis.bytesAt (key userId date) = .ok bytes) (as : List Act) :
    ∃ n, (∀ fuel, 65 ≤ fuel →
        signCount redisCheckInStore fuel userId date (Runs.run step redis as) = .ok (some n)) ∧
      IsGreatest {m | ∀ i < m, i < date.day ∧ (bitAt bytes (date.day - 1 - i) = true ∨
        ∃ e : LocalDate, e.SharesBitmap date ∧ e.day + i = date.day ∧ Signed as userId e)} n := by
  obtain ⟨bytes', hbytes', hbits⟩ := run_bytes h as
  obtain ⟨days, hdays, hlow⟩ := signedDays_of_bytes hbytes'
  obtain ⟨n, -, hcount, hgreatest⟩ := countDays_ends days
  refine ⟨n, ?_, ?_⟩
  · intro fuel hfuel
    simp only [signCount, hdays, Bind.bind, Except.bind, hcount fuel hfuel]
  · convert hgreatest using 1
    ext m
    refine forall₂_congr fun i _ => ?_
    rw [hlow, hbits, exists_marks_iff]
    refine and_congr_right fun hi => or_congr_right (exists_congr fun e => and_congr_right fun _ => ?_)
    have hpos := e.day_range.1
    exact and_congr_left fun _ => by omega

/-- No call of the user lies in the month of the other era that shares the bitmap of the date. -/
def OneEra (as : List Act) (userId : Option ℤ) (date : LocalDate) : Prop :=
  ∀ e : LocalDate, Signed as userId e → e.SharesBitmap date → e.SameMonth date

/-- In years from `1` on every call is of one era. -/
theorem oneEra_of_years (hyear : 1 ≤ date.year) (h : ∀ e, Signed as userId e → 1 ≤ e.year) :
    OneEra as userId date := by
  intro e he hshares
  exact hshares.sameMonth (h e he) hyear

/-- A run of days, by the bits. -/
theorem isRun_iff (h : OneEra as userId date) {m : ℕ} : IsRun (Signed as userId) date m ↔
    ∀ i < m, i < date.day ∧ (bitAt [] (date.day - 1 - i) = true ∨
      ∃ e : LocalDate, e.SharesBitmap date ∧ e.day + i = date.day ∧ Signed as userId e) := by
  refine forall₂_congr fun i _ => ?_
  constructor
  · rintro ⟨e, hmonth, hday, he⟩
    have hpos := e.day_range.1
    exact ⟨by omega, .inr ⟨e, hmonth.sharesBitmap, hday, he⟩⟩
  · rintro ⟨-, hbit | ⟨e, hshares, hday, he⟩⟩
    · rw [bitAt_nil] at hbit
      cases hbit
    · exact ⟨e, h e he hshares, hday, he⟩

/-- What the service answers is the longest run. -/
theorem signCount_run (h : redis (key userId date) = none) (hera : OneEra as userId date) :
    ∃ n, (∀ fuel, 65 ≤ fuel →
        signCount redisCheckInStore fuel userId date (Runs.run step redis as) = .ok (some n)) ∧
      IsGreatest {m | IsRun (Signed as userId) date m} n := by
  have hbytes : redis.bytesAt (key userId date) = .ok [] := by rw [Database.bytesAt, h]
  obtain ⟨n, hcount, hgreatest⟩ := signCount_of_bytes hbytes as
  exact ⟨n, hcount, by simpa only [isRun_iff hera] using hgreatest⟩

/-- A date is known by its month and its day. -/
theorem eq_of_sameMonth {e d : LocalDate} (h : e.SameMonth d) (hday : e.day = d.day) : e = d := by
  obtain ⟨year, month, day, _, _, _⟩ := e
  obtain ⟨year', month', day', _, _, _⟩ := d
  obtain ⟨rfl, rfl⟩ := h
  subst hday
  rfl

/-- A run of days depends on the days of its month. -/
theorem isRun_congr {signed signed' : LocalDate → Prop}
    (h : ∀ e : LocalDate, e.SameMonth date → (signed e ↔ signed' e)) {m : ℕ} :
    IsRun signed date m ↔ IsRun signed' date m := by
  refine forall₂_congr fun i _ => exists_congr fun e => and_congr_right fun hmonth => ?_
  rw [h e hmonth]

/-- **The longest run.** From a store with no bitmap of the month, and with no call in the other era's
month of that number, the answer is the longest run of signed days that ends on the date and lies in its
month; it is `0` when the date is not signed. It is the same after all calls that sign the same days of the
month. The loop ends whatever number the store answers. -/
theorem signCount_longest_run (h : redis (key userId date) = none) (hera : OneEra as userId date) :
    (∃ n, (∀ fuel, 65 ≤ fuel →
        signCount redisCheckInStore fuel userId date (Runs.run step redis as) = .ok (some n)) ∧
      IsGreatest {m | IsRun (Signed as userId) date m} n ∧ (¬ Signed as userId date → n = 0)) ∧
    (∀ bs, OneEra bs userId date →
      (∀ e : LocalDate, e.SameMonth date → (Signed as userId e ↔ Signed bs userId e)) →
      ∀ fuel, 65 ≤ fuel → signCount redisCheckInStore fuel userId date (Runs.run step redis bs) =
        signCount redisCheckInStore fuel userId date (Runs.run step redis as)) ∧
    ∀ (signedDays : BitVec 64) (fuel : ℕ), 65 ≤ fuel → ∃ n ≤ 64, countDays fuel signedDays = some n := by
  obtain ⟨n, hcount, hgreatest⟩ := signCount_run h hera
  refine ⟨⟨n, hcount, hgreatest, ?_⟩, ?_, ?_⟩
  · intro hnot
    by_contra hpos
    obtain ⟨e, hmonth, hday, he⟩ := hgreatest.1 0 (Nat.pos_of_ne_zero hpos)
    exact hnot (eq_of_sameMonth hmonth hday ▸ he)
  · intro bs hbs hsame fuel hfuel
    obtain ⟨n', hcount', hgreatest'⟩ := signCount_run h hbs
    have heq : n' = n := by
      simp only [← isRun_congr hsame] at hgreatest'
      exact hgreatest'.unique hgreatest
    rw [hcount fuel hfuel, hcount' fuel hfuel, heq]
  · intro signedDays fuel hfuel
    obtain ⟨m, hm, hends, -⟩ := countDays_ends signedDays
    exact ⟨m, hm, hends fuel hfuel⟩

section october

def october30 : LocalDate := ⟨2026, 10, 30, by decide, by decide, by decide⟩

def october31 : LocalDate := ⟨2026, 10, 31, by decide, by decide, by decide⟩

/-- Two users sign at the end of a month, one of them twice. -/
def octoberCalls : List Act :=
  [.sign (some 7) october31, .sign (some 8) october31, .signCount (some 8) october31,
    .sign (some 7) october30, .sign (some 7) october30]

/-- The user that signed on two days in a row has a run of two. -/
theorem signCount_longest_run_october :
    signCount redisCheckInStore 65 (some 7) october31 (Runs.run step Database.empty octoberCalls) =
        .ok (some 2) ∧
      IsGreatest {m | IsRun (Signed octoberCalls (some 7)) october31 m} 2 := by
  have hera : OneEra octoberCalls (some 7) october31 := by
    refine oneEra_of_years (by decide) ?_
    intro e he
    have he' : e = october31 ∨ e = october30 := by simpa [Signed, octoberCalls] using he
    rcases he' with rfl | rfl <;> decide
  have hnone : (Database.empty : Database String) (key (some 7) october31) = none := rfl
  obtain ⟨n, hcount, hgreatest, -⟩ := (signCount_longest_run hnone hera).1
  have htwo : signCount redisCheckInStore 65 (some 7) october31
      (Runs.run step Database.empty octoberCalls) = .ok (some 2) := by decide +kernel
  have hn : n = 2 := by
    rw [hcount 65 le_rfl] at htwo
    simpa using htwo
  exact ⟨htwo, hn ▸ hgreatest⟩

end october

section eras

/-- The 5th of January of the year before year `1`. -/
def beforeEra : LocalDate := ⟨0, 1, 5, by decide, by decide, by decide⟩

/-- The 5th of January of year `1`. -/
def firstYear : LocalDate := ⟨1, 1, 5, by decide, by decide, by decide⟩

/-- A call in the year before year `1` counts in year `1`. -/
theorem signCount_other_era :
    signCount redisCheckInStore 65 (some 7) firstYear
        (Runs.run step Database.empty [.sign (some 7) beforeEra]) = .ok (some 1) ∧
      IsGreatest {m | IsRun (Signed [.sign (some 7) beforeEra] (some 7)) firstYear m} 0 := by
  constructor
  · rfl
  · refine ⟨fun i hi => absurd hi (Nat.not_lt_zero i), ?_⟩
    intro m hm
    by_contra hpos
    obtain ⟨e, hmonth, -, he⟩ := hm 0 (not_le.mp hpos)
    have heq : e = beforeEra := by simpa [Signed] using he
    rw [heq] at hmonth
    exact absurd hmonth.1 (by decide)

end eras

end CampusHub.Engagement
