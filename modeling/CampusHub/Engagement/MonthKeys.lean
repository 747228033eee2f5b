import CampusHub.FlashSale.OrderIds

/-!
# The months of a user

* `LocalDate` — a date of the calendar, before or after the first year of the era.
* `LocalDate.format`, `key` — the key of the bitmap of a user's month.
* `LocalDate.SameMonth`, `LocalDate.SharesBitmap` — the month of a date, and the month as its key tells it.
* `key_eq_iff` — a key tells the user, the year of the era and the month.

**Theorem** (`key_eq_iff`). Two keys are equal exactly when the users are, and the dates share a bitmap:
they have the same month and the same year of the era. The pattern letter `y` is the year of the era, so
that year 0, the year before year 1, has the text of year 1. From year 1 on a shared bitmap is a shared
month (`SharesBitmap.sameMonth`).

**Proof route.** The colon between user and month stands nowhere else (`colon_not_mem_month`,
`colon_not_mem_longText`), which splits a key into its two parts; the month has two digits, which splits the
date.

**Left out.** Calendars and clocks: which date a call is made on is given.
-/

namespace CampusHub.Engagement

open CampusHub.Foundations.Decimal
open CampusHub.FlashSale.OrderIds (padded padded_injective isDigit_of_mem_padded)

/-! ## Dates -/

/-- `IsoChronology.isLeapYear` -/
def isLeapYear (year : ℤ) : Bool := decide (year % 4 = 0 ∧ (year % 100 ≠ 0 ∨ year % 400 = 0))

/-- `LocalDate.lengthOfMonth` -/
def lengthOfMonth (year : ℤ) (month : ℕ) : ℕ :=
  match month with
  | 2 => if isLeapYear year then 29 else 28
  | 4 | 6 | 9 | 11 => 30
  | _ => 31

/-- A Java `LocalDate`. Year `0` is the year before year `1`. -/
structure LocalDate where
  year : ℤ
  month : ℕ
  day : ℕ
  year_range : -999999999 ≤ year ∧ year ≤ 999999999
  month_range : 1 ≤ month ∧ month ≤ 12
  day_range : 1 ≤ day ∧ day ≤ lengthOfMonth year month
  deriving DecidableEq

/-- No month is longer than 31 days. -/
theorem lengthOfMonth_le (year : ℤ) (month : ℕ) : lengthOfMonth year month ≤ 31 := by
  unfold lengthOfMonth
  split
  · split <;> omega
  all_goals omega

namespace LocalDate

/-- No day comes after the 31st. -/
theorem day_le (d : LocalDate) : d.day ≤ 31 := d.day_range.2.trans (lengthOfMonth_le d.year d.month)

/-- `ChronoField.YEAR_OF_ERA`: the years before year `1` are counted back from it. -/
def yearOfEra (d : LocalDate) : ℕ := if 1 ≤ d.year then d.year.toNat else (1 - d.year).toNat

/-- Two dates lie in one month of the calendar. -/
def SameMonth (e d : LocalDate) : Prop := e.year = d.year ∧ e.month = d.month

/-- Two dates lie in months with one number, in years with one number. -/
def SharesBitmap (e d : LocalDate) : Prop := e.yearOfEra = d.yearOfEra ∧ e.month = d.month

/-- Dates of one month share a bitmap. -/
theorem SameMonth.sharesBitmap {e d : LocalDate} (h : e.SameMonth d) : e.SharesBitmap d :=
  ⟨by rw [yearOfEra, yearOfEra, h.1], h.2⟩

/-- From year `1` on the two agree. -/
theorem SharesBitmap.sameMonth {e d : LocalDate} (h : e.SharesBitmap d) (he : 1 ≤ e.year)
    (hd : 1 ≤ d.year) : e.SameMonth d := by
  obtain ⟨hyear, hmonth⟩ := h
  rw [yearOfEra, yearOfEra, if_pos he, if_pos hd] at hyear
  exact ⟨by omega, hmonth⟩

end LocalDate

/-! ## Keys -/

/-- The letters `yyyy` of a pattern: at least four digits, and a sign before more than four. -/
def yearText (yearOfEra : ℕ) : List Char :=
  if 10000 ≤ yearOfEra then '+' :: (decimal yearOfEra).toList else padded 4 yearOfEra

/-- `DateTimeFormatter.ofPattern(":yyyyMM")`. Source: `RedisCheckInStore.java` 16. -/
def LocalDate.format (date : LocalDate) : String :=
  String.ofList (':' :: (yearText date.yearOfEra ++ padded 2 date.month))

/-- The text of a `Long` in a concatenation. -/
def longText : Option ℤ → String
  | none => "null"
  | some n => n.repr

/-- Source: `RedisCheckInStore.java` 43–45. -/
def key (userId : Option ℤ) (date : LocalDate) : String := "sign:" ++ longText userId ++ date.format

/-- The text of a year tells the year. -/
theorem yearText_injective : Function.Injective yearText := by
  have hplus : ∀ {m n : ℕ}, '+' :: (decimal m).toList ≠ padded 4 n := by
    intro m n h
    have hmem : '+' ∈ padded 4 n := h ▸ List.mem_cons_self
    exact ne_of_isDigit (isDigit_of_mem_padded hmem) (by decide) rfl
  intro m n h
  unfold yearText at h
  split at h <;> split at h
  · exact decimal_injective (String.toList_injective (List.cons.inj h).2)
  · exact absurd h hplus
  · exact absurd h.symm hplus
  · exact padded_injective 4 h

/-- A month is written with two digits. -/
theorem length_padded_month (d : LocalDate) : (padded 2 d.month).length = 2 := by
  have hall : ∀ m : Fin 13, (padded 2 m).length = 2 := by decide
  exact hall ⟨d.month, Nat.lt_succ_of_le d.month_range.2⟩

/-- Neither a year nor a month has a colon. -/
theorem colon_not_mem_month (d : LocalDate) : ':' ∉ yearText d.yearOfEra ++ padded 2 d.month := by
  intro h
  rcases List.mem_append.mp h with h | h
  · unfold yearText at h
    split at h
    · rcases List.mem_cons.mp h with h | h
      · exact absurd h (by decide)
      · exact not_mem_decimal (by decide) _ h
    · exact ne_of_isDigit (isDigit_of_mem_padded h) (by decide) rfl
  · exact ne_of_isDigit (isDigit_of_mem_padded h) (by decide) rfl

/-- The text of a number that is not negative. -/
theorem longText_ofNat (n : ℕ) : longText (some (.ofNat n)) = decimal n := rfl

/-- The text of a negative number. -/
theorem longText_negSucc (n : ℕ) : longText (some (.negSucc n)) = "-" ++ decimal (n + 1) := rfl

/-- The text of a user has no colon. -/
theorem colon_not_mem_longText (userId : Option ℤ) : ':' ∉ (longText userId).toList := by
  intro h
  cases userId with
  | none => exact absurd h (by decide)
  | some n =>
    cases n with
    | ofNat n =>
      rw [longText_ofNat] at h
      exact not_mem_decimal (by decide) _ h
    | negSucc n =>
      rw [longText_negSucc, String.toList_append] at h
      rcases List.mem_append.mp h with h | h
      · exact absurd h (by decide)
      · exact not_mem_decimal (by decide) _ h

/-- A number starts with a digit. -/
theorem decimal_ne_cons {n : ℕ} {c : Char} {cs : List Char} (hc : c.isDigit = false) :
    (decimal n).toList ≠ c :: cs := by
  intro h
  exact not_mem_decimal hc n (h ▸ List.mem_cons_self)

/-- The text of a user tells the user. -/
theorem longText_injective : Function.Injective longText := by
  have hminus : ∀ n : ℕ, (longText (some (.negSucc n))).toList = '-' :: (decimal (n + 1)).toList := by
    intro n
    rw [longText_negSucc, String.toList_append]
    rfl
  have hnull : (longText none).toList = 'n' :: "ull".toList := by decide
  intro u v h
  have hlists := congrArg String.toList h
  rcases u with _ | m | m <;> rcases v with _ | n | n
  · rfl
  · rw [hnull, longText_ofNat] at hlists
    exact absurd hlists.symm (decimal_ne_cons (by decide))
  · rw [hnull, hminus] at hlists
    exact absurd (List.cons.inj hlists).1 (by decide)
  · rw [hnull, longText_ofNat] at hlists
    exact absurd hlists (decimal_ne_cons (by decide))
  · rw [decimal_injective h]
  · rw [hminus, longText_ofNat] at hlists
    exact absurd hlists (decimal_ne_cons (by decide))
  · rw [hnull, hminus] at hlists
    exact absurd (List.cons.inj hlists).1 (by decide)
  · rw [hminus, longText_ofNat] at hlists
    exact absurd hlists.symm (decimal_ne_cons (by decide))
  · rw [hminus, hminus] at hlists
    have hsucc := decimal_injective (String.toList_injective (List.cons.inj hlists).2)
    rw [Nat.succ.inj hsucc]

/-- Dates have one text exactly when they share a bitmap. -/
theorem format_eq_iff {e d : LocalDate} : e.format = d.format ↔ e.SharesBitmap d := by
  constructor
  · intro h
    have hlists := String.ofList_injective h
    obtain ⟨hyear, hmonth⟩ := List.append_inj' (List.cons.inj hlists).2
      (by rw [length_padded_month, length_padded_month])
    exact ⟨yearText_injective hyear, padded_injective 2 hmonth⟩
  · rintro ⟨hyear, hmonth⟩
    rw [LocalDate.format, LocalDate.format, hyear, hmonth]

/-- **A bitmap is the bitmap of one user and of the months that share it.** -/
theorem key_eq_iff {u v : Option ℤ} {e d : LocalDate} : key u e = key v d ↔ u = v ∧ e.SharesBitmap d := by
  constructor
  · intro h
    have hlists : (longText u).toList ++ ':' :: (yearText e.yearOfEra ++ padded 2 e.month) =
        (longText v).toList ++ ':' :: (yearText d.yearOfEra ++ padded 2 d.month) := by
      have htext := congrArg String.toList h
      simpa [key, LocalDate.format, String.append_assoc] using htext
    obtain ⟨huser, -, hmonth⟩ := (List.append_cons_inj_of_notMem (colon_not_mem_longText v)
      (colon_not_mem_month d)).mp hlists.symm
    exact ⟨longText_injective (String.toList_injective huser.symm),
      format_eq_iff.mp (congrArg (fun cs => String.ofList (':' :: cs)) hmonth.symm)⟩
  · rintro ⟨rfl, h⟩
    rw [key, key, format_eq_iff.mpr h]

end CampusHub.Engagement
