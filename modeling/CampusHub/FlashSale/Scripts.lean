import CampusHub.Foundations.Lua
import CampusHub.Foundations.Guards
import CampusHub.Redis.Keyspace

/-!
# The three flash-sale scripts

* `initializeFlashSale` — `initialize-flash-sale.lua`, the activity of a new voucher.
* `seckill` — `seckill.lua`, the admission of a user.
* `releaseCancelledOrder` — `release-cancelled-order.lua`, the stock of a cancelled order.

Each is translated check by check in the order of the source; `now` is the Redis clock in
milliseconds, which the scripts compute from `TIME`.

A script is a `Plan` over the keys it is given: early answers first, in the order of the source, then the
list of its writes. Nothing is assumed about the keys or the arguments here; a key of a wrong type makes the
command that reads it fail, a text that is no number makes `tonumber` answer `nil`, and a missing argument
is `nil` as well. The lemmas at the end are about texts and numbers alone: what passes a check such as
`ARGV[3] == string.format('%.0f', deadline)` is the decimal text of a natural number.

Whether all writes succeed is a matter of `FlashSale.Admission` and `FlashSale.Release`, which run them.
-/

namespace CampusHub.FlashSale.Scripts

open CampusHub.Redis CampusHub.Foundations.Guards CampusHub.Foundations.Lua
open CampusHub.Foundations.Decimal

variable {κ : Type}

/-! ## `initialize-flash-sale.lua` -/

/-- Source: `initialize-flash-sale.lua` 4–25. -/
def initializeFlashSale (now : ℕ) (ks : Keyspace κ) : List κ → List String → Checked ℕ (List (Command κ) × ℕ)
  | [stock, participants, activity, request], [initial, beginText, endText, expireText] => do
    ensure (ks.typeOf stock = .none) (.answer 1)
    ensure (ks.typeOf participants = .none) (.answer 1)
    ensure (ks.typeOf activity = .none) (.answer 1)
    ensure (ks.typeOf request = .none) (.answer 1)
    let stockNumber ← getOr (tonumber initial) (.answer 2)
    ensure (stockNumber.le (.ofNat 0) = false) (.answer 2)
    ensure ((Number.ofNat 2147483647).lt stockNumber = false) (.answer 2)
    ensure (stockNumber.eq stockNumber.floor = true) (.answer 2)
    ensure (isPositiveDecimal initial = true) (.answer 2)
    let beginAt ← getOr (tonumber beginText) (.answer 2)
    let endAt ← getOr (tonumber endText) (.answer 2)
    ensure (beginAt.lt (.ofNat 1000) = false) (.answer 2)
    ensure ((Number.ofNat 2147483647000).lt endAt = false) (.answer 2)
    ensure (endAt.le beginAt = false) (.answer 2)
    let expireAt ← getOr (tonumber expireText) (.answer 2)
    ensure (expireAt.eq (endAt.add (.ofNat 86400000)) = true) (.answer 2)
    ensure (expireAt.le (.ofNat now) = false) (.answer 2)
    ensure (beginText = beginAt.format0) (.answer 2)
    ensure (endText = endAt.format0) (.answer 2)
    ensure (expireText = expireAt.format0) (.answer 2)
    .ok ([.set stock initial, .pexpireat stock expireText,
      .hset activity [("status", "1"), ("beginAt", beginText), ("endAt", endText),
        ("expireAt", expireText)],
      .pexpireat activity expireText], 0)
  | _, _ => .error (.answer 2)

/-! ## `seckill.lua` -/

/-- The answer `{code, text}` of the admission script. -/
structure Reply where
  code : ℕ
  text : String
  deriving DecidableEq

/-- An early `return {code, ''}`. -/
def reject (code : ℕ) : Outcome Reply := .answer ⟨code, ""⟩

/-- Source: `seckill.lua` 5–49. `appended` is false when the server refuses the `XADD` for a reason
outside the keyspace, such as its memory limit. -/
def seckill (now : ℕ) (appended : Bool) (ks : Keyspace κ) :
    List κ → List String → Checked Reply (List (Command κ) × Reply)
  | [stock, participants, activity, request, stream],
    [userId, orderId, eligible, status, databaseBeginText, databaseEndText, voucherId] => do
    ensure (Typed ks stock .string) (reject 8)
    ensure (Typed ks participants .set) (reject 8)
    ensure (Typed ks activity .hash) (reject 8)
    ensure (Typed ks request .hash) (reject 8)
    ensure (Typed ks stream .stream) (reject 8)
    ensure (eligible = "1") (reject 7)
    absentOr (ks.hget request userId) fun previous => .answer ⟨9, previous⟩
    ensure (userId ∉ ks.members participants) (reject 2)
    ensure (status ≠ "3") (reject 5)
    ensure (status = "1") (reject 6)
    let databaseBegin ← getOr (tonumber databaseBeginText) (reject 8)
    let databaseEnd ← getOr (tonumber databaseEndText) (reject 8)
    ensure (databaseEnd.le databaseBegin = false) (reject 8)
    ensure ((Number.ofNat now).lt databaseBegin = false) (reject 4)
    ensure (databaseEnd.le (.ofNat now) = false) (reject 5)
    let activityStatus ← getOr (ks.hget activity "status") (reject 8)
    let beginText ← getOr (ks.hget activity "beginAt") (reject 8)
    let endText ← getOr (ks.hget activity "endAt") (reject 8)
    let expireText ← getOr (ks.hget activity "expireAt") (reject 8)
    ensure (activityStatus ≠ "3") (reject 5)
    ensure (activityStatus = "1") (reject 6)
    ensure (beginText = databaseBeginText) (reject 8)
    ensure (endText = databaseEndText) (reject 8)
    let beginAt ← getOr (tonumber beginText) (reject 8)
    let endAt ← getOr (tonumber endText) (reject 8)
    ensure (endAt.le beginAt = false) (reject 8)
    let expireAt ← getOr (tonumber expireText) (reject 8)
    ensure (expireAt.le endAt = false) (reject 8)
    ensure (expireAt.eq (endAt.add (.ofNat 86400000)) = true) (reject 8)
    ensure (expireText = expireAt.format0) (reject 8)
    let rawStock ← getOr (ks.get stock) (reject 8)
    let stockNumber ← getOr (tonumber rawStock) (reject 8)
    ensure (stockNumber.lt (.ofNat 0) = false) (reject 8)
    ensure ((Number.ofNat 2147483647).lt stockNumber = false) (reject 8)
    ensure (stockNumber.eq stockNumber.floor = true) (reject 8)
    ensure (rawStock = "0" ∨ isPositiveDecimal rawStock = true) (reject 8)
    ensure (stockNumber.eq (.ofNat 0) = false) (reject 1)
    -- The `pcall`: a failed `XADD` is an answer, and nothing is written yet.
    ensure (appended = true ∧ (StreamId.next now (ks.stream stream).lastId).isSome) (reject 8)
    .ok ([.xadd stream [("userId", userId), ("voucherId", voucherId), ("id", orderId)],
      .incrby stock (-1), .sadd participants userId, .hset request [(userId, orderId)],
      .pexpireat stock expireText, .pexpireat participants expireText,
      .pexpireat activity expireText, .pexpireat request expireText], ⟨0, orderId⟩)
  | _, _ => .error (reject 8)

/-! ## `release-cancelled-order.lua` -/

/-- Source: `release-cancelled-order.lua` 6–31. -/
def releaseCancelledOrder (now : ℕ) (ks : Keyspace κ) (stock activity request released : κ)
    (userId orderId deadlineText : String) : Checked ℕ (List (Command κ) × ℕ) := do
  let deadline ← getOr (tonumber deadlineText) (.answer 3)
  ensure (deadline.eq deadline.floor = true) (.answer 3)
  ensure (deadline.lt (.ofNat 1) = false) (.answer 3)
  ensure (deadlineText = deadline.format0) (.answer 3)
  ensure (deadline.le (.ofNat now) = false) (.answer 2)
  ensure (ks.typeOf stock = .string) (.answer 3)
  ensure (ks.typeOf activity = .hash) (.answer 3)
  ensure (ks.typeOf request = .hash) (.answer 3)
  ensure (Typed ks released .hash) (.answer 3)
  absentOr (ks.hget released orderId) fun prior =>
    .answer (if prior = "DONE:" ++ userId then 1 else 3)
  ensure (ks.hget activity "expireAt" = some deadlineText) (.answer 3)
  ensure (ks.hget request userId = some orderId) (.answer 4)
  let raw ← getOr (ks.get stock) (.answer 3)
  let stockNumber ← getOr (tonumber raw) (.answer 3)
  ensure (stockNumber.lt (.ofNat 0) = false) (.answer 3)
  ensure ((Number.ofNat 2147483647).le stockNumber = false) (.answer 3)
  ensure (stockNumber.eq stockNumber.floor = true) (.answer 3)
  ensure (raw = "0" ∨ isPositiveDecimal raw = true) (.answer 3)
  .ok ([.hset released [(orderId, "PENDING:" ++ userId)], .pexpireat released deadlineText,
    .incrby stock 1, .hset released [(orderId, "DONE:" ++ userId)]], 0)

/-! ## Texts and numbers -/

/-- A number that spells its own text and is not negative is a natural number. -/
theorem exists_eq_decimal {t : String} {r : ℚ} (ht : tonumber t = some (.fin r)) (hr : 0 ≤ r)
    (htext : t = (Number.fin r).format0) : ∃ n : ℕ, t = decimal n ∧ r = n := by
  have hround : ¬ roundEven r < 0 :=
    not_lt.mpr ((Int.floor_nonneg.mpr hr).trans (floor_le_roundEven r))
  rw [Number.format0, if_neg hround] at htext
  rw [htext, tonumber_decimal_eq, Option.some.injEq] at ht
  rcases roundDouble_natCast_cases (roundEven r).natAbs with h | ⟨n, h⟩
  · rw [h] at ht; cases ht
  · rw [h, Number.fin.injEq] at ht
    refine ⟨n, ?_, ht.symm⟩
    have : roundEven r = n := by rw [← ht]; exact roundEven_intCast n
    rw [htext, this, Int.natAbs_natCast]

/-- The deadline of an activity that has not ended spells a natural number after `now`. -/
theorem exists_deadline {now b : ℕ} {endAt expireAt c : Number} {t : String}
    (ht : tonumber t = some expireAt) (hend : endAt.le (.ofNat now) = false)
    (hlt : expireAt.le endAt = false) (heq : expireAt.eq (endAt.add c) = true)
    (htext : t = expireAt.format0) (hb : (Number.ofNat b).le (endAt.add c) = false) :
    ∃ n : ℕ, t = decimal n ∧ now < n ∧ n < b := by
  cases hsum : endAt.add c with
  | nan => rw [hsum] at heq; cases expireAt <;> cases heq
  | inf s =>
    rw [hsum] at hb heq
    obtain rfl : s = true := by simpa [Number.ofNat, Number.le] using hb
    cases expireAt with
    | nan => cases heq
    | fin r => cases heq
    | inf u =>
      obtain rfl : u = true := by simpa [Number.eq] using heq
      cases endAt <;> simp [Number.le, Number.add] at hlt hsum
  | fin s =>
    rw [hsum, eq_fin_iff] at heq
    subst heq
    rw [hsum] at hb
    have hbs : s < b := by simpa [Number.ofNat] using hb
    have hr : (now : ℚ) < s := by
      cases endAt with
      | nan => cases hsum
      | inf u => cases c <;> simp [Number.add] at hsum; split at hsum <;> cases hsum
      | fin q =>
        simp only [Number.ofNat, le_fin_fin, decide_eq_false_iff_not, not_le] at hend hlt
        exact hend.trans hlt
    obtain ⟨n, hn, rfl⟩ := exists_eq_decimal ht (le_trans (Nat.cast_nonneg now) hr.le) htext
    exact ⟨n, hn, by exact_mod_cast hr, by exact_mod_cast hbs⟩

/-- A stock text that passes the checks spells a natural number in range. -/
theorem exists_stock {raw : String} {x : Number} {b : ℕ} (hx : tonumber raw = some x)
    (hb : b < 2 ^ 53) (hmax : (Number.ofNat b).lt x = false)
    (htext : raw = "0" ∨ isPositiveDecimal raw = true) :
    ∃ n ≤ b, raw = decimal n ∧ x = .ofNat n := by
  obtain ⟨n, rfl⟩ : ∃ n, raw = decimal n := by
    rcases htext with rfl | h
    · exact ⟨0, rfl⟩
    · obtain ⟨n, -, hn⟩ := isPositiveDecimal_iff.mp h
      exact ⟨n, hn⟩
  have hle := tonumber_decimal_le hb hx hmax
  rw [tonumber_decimal (hle.trans_lt hb), Option.some.injEq] at hx
  exact ⟨n, hle, rfl, hx.symm⟩

end CampusHub.FlashSale.Scripts
