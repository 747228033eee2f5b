import Mathlib.Tactic.Linarith
import CampusHub.Domain
import CampusHub.Foundations.Guards
import CampusHub.Redis.Keyspace

/-!
# The time window of a flash sale

* `LocalDateTime`, `Voucher` — a voucher with its UTC begin and end.
* `FlashSaleRules` — the window in epoch milliseconds. Its fields carry the checks of the Java
  constructor, so a window that fails them cannot be built.
* `flashSaleRules` — the constructor.
* `activityKeys`, `publishAfterCommit`, `admissionArguments` — what the Java services pass to the
  scripts.

A voucher may lack its times, its type or its stock, and the Java code refuses it where it needs them, so
the columns are optional here and the refusals are those of the source, with their texts. What passes is a
`FlashSaleRules`, and from then on the bounds of the window are its fields: the begin is before the end,
both are within the range that a Lua number holds exactly, and the deadline is one day after the end.

The arguments that the services pass to the scripts are decimal texts of these numbers; the scripts check
them again, and `FlashSale.Initialization` shows that what the constructor admits passes these checks.

**Left out.** The zone database: the times are UTC, as the source fixes them.
-/

namespace CampusHub.FlashSale.Rules

open CampusHub.Domain CampusHub.Foundations.Decimal CampusHub.Foundations.Guards CampusHub.Redis

/-- A date and time without a zone, read as UTC. -/
structure LocalDateTime where
  epochSecond : ℤ
  nano : ℕ
  deriving DecidableEq

/-- `withNano(0).toInstant(ZoneOffset.UTC).toEpochMilli()`; none on an overflow of `long`. -/
def LocalDateTime.toEpochMilli (t : LocalDateTime) : Option ℤ :=
  let millis := t.epochSecond * 1000
  if -longMax - 1 ≤ millis ∧ millis ≤ longMax then some millis else none

/-- The columns of `tb_voucher` and `tb_seckill_voucher` that the flash sale reads.
Source: `Voucher.java`, `VoucherMapper.findFlashSale`. -/
structure Voucher where
  id : LongId
  type : Option ℤ
  status : Option ℤ
  stock : Option ℤ
  beginTime : Option LocalDateTime
  endTime : Option LocalDateTime
  deriving DecidableEq

/-- Source: `RedisConstants.java` 26. -/
def seckillRetentionMillis : ℕ := 24 * 60 * 60 * 1000

/-- Source: `FlashSaleRules.java` 16–39. -/
structure FlashSaleRules where
  beginMillis : ℕ
  endMillis : ℕ
  expiresAtMillis : ℕ
  begin_ge : 1000 ≤ beginMillis
  end_le : endMillis ≤ 2147483647000
  begin_lt_end : beginMillis < endMillis
  expires_eq : expiresAtMillis = endMillis + seckillRetentionMillis

/-- The refusal of a window out of range. -/
def outOfRange (message : String) : BusinessException := ⟨.validationFailed, message⟩

/-- `Math.addExact` on `long`. -/
def addExact (a b : ℤ) : Option ℤ :=
  if -longMax - 1 ≤ a + b ∧ a + b ≤ longMax then some (a + b) else none

/-- The instant of a time that a voucher has to have.
Source: `FlashSaleRules.java` 21–26. -/
def requiredMillis (time : Option LocalDateTime) : Except BusinessException ℤ := do
  let time ← getOr time { errorCode := .activityUnavailable }
  getOr time.toEpochMilli (outOfRange "活动时间超出支持范围")

/-- Source: `FlashSaleRules.java` 20–39. -/
def flashSaleRules (voucher : Voucher) : Except BusinessException FlashSaleRules := do
  ensure (voucher.beginTime.isSome ∧ voucher.endTime.isSome) { errorCode := .activityUnavailable }
  let beginMillis ← requiredMillis voucher.beginTime
  let endMillis ← requiredMillis voucher.endTime
  let _ ← getOr (addExact endMillis seckillRetentionMillis) (outOfRange "活动时间超出支持范围")
  if h : 1000 ≤ beginMillis ∧ endMillis ≤ 2147483647000 ∧ beginMillis < endMillis then
    .ok
      { beginMillis := beginMillis.toNat
        endMillis := endMillis.toNat
        expiresAtMillis := endMillis.toNat + seckillRetentionMillis
        begin_ge := by omega
        end_le := by omega
        begin_lt_end := by omega
        expires_eq := rfl }
  else .error (outOfRange "活动时间超出支持范围或结束时间无效")

/-- Source: `FlashSaleRules.java` 37–42. -/
def activityKeys (voucherId : LongId) : List Key :=
  [.stock voucherId, .order voucherId, .activity voucherId, .request voucherId]

/-- The arguments of `initialize-flash-sale.lua`, once the voucher passes the checks.
Source: `FlashSaleRedisPublisher.java` 31–50. -/
def publishAfterCommit (voucher : Voucher) : Except BusinessException (List String) := do
  let rules ← flashSaleRules voucher
  let stock ← getOr voucher.stock ⟨.validationFailed, "活动初始化参数无效"⟩
  ensure (0 < stock) ⟨.validationFailed, "活动初始化参数无效"⟩
  ensure (voucher.status = some 1) ⟨.validationFailed, "活动初始化参数无效"⟩
  .ok [counterText stock, decimal rules.beginMillis, decimal rules.endMillis,
    decimal rules.expiresAtMillis]

/-- `String.valueOf` of an `Integer`. -/
def valueOf : Option ℤ → String
  | none => "null"
  | some z => counterText z

/-- The arguments of `seckill.lua`. Source: `FlashSaleAdmissionService.java` 73–75. -/
def admissionArguments (voucher : Voucher) (rules : FlashSaleRules) (userId orderId : LongId) :
    List String :=
  [userId.text, orderId.text, "1", valueOf voucher.status, decimal rules.beginMillis,
    decimal rules.endMillis, voucher.id.text]

end CampusHub.FlashSale.Rules
