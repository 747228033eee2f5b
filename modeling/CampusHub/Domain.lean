import Mathlib.Data.Nat.Basic
import CampusHub.Foundations.Decimal

/-!
# The data shared by the order flow

* `LongId` — the positive Java `long` of a user, a voucher or an order.
* `VoucherOrder` — an order as a stream event carries it.
* `Key` — the Redis keys of the flash-sale activities and of the order queue.
* `ErrorCode`, `BusinessException` — what a request is refused with.

The keys of Redis are an inductive type and not texts: the constructors are the prefixes of
`RedisConstants.java`, so that two keys are different when their constructors or their ids are. What the
scripts check of ids they check of texts, and `isLong_iff` says that the texts which pass are the texts of
the positive `long` values. It is why an id is a `LongId` behind the check and a text in front of it.

**Left out.** The columns and fields that no modelled function reads: payment data of an order, the display
data of a voucher, and the HTTP status that an error code carries.
-/

namespace CampusHub.Domain

open CampusHub.Foundations.Decimal

/-- `Long.MAX_VALUE`. -/
def longMax : ℕ := 9223372036854775807

/-- One is a `long`. -/
theorem one_le_longMax : 1 ≤ longMax := by decide

/-- The id of a user, a voucher or an order: a positive Java `long`. -/
structure LongId where
  val : ℕ
  pos : 0 < val
  le_max : val ≤ longMax
  deriving DecidableEq

/-- `Long.toString`. -/
def LongId.text (i : LongId) : String := decimal i.val

/-- Different ids have different texts. -/
theorem LongId.text_injective : Function.Injective LongId.text := by
  rintro ⟨a, _, _⟩ ⟨b, _, _⟩ h
  simpa [LongId.text] using h

/-- Two texts of ids are the same exactly when the ids are. -/
@[simp] theorem LongId.text_inj {i j : LongId} : i.text = j.text ↔ i = j :=
  LongId.text_injective.eq_iff

/-- The texts of ids: `^[1-9]%d*$` with at most 19 digits, not above `Long.MAX_VALUE`.
Source: `redrive-order.lua` 27–33, `order-stream-transition.lua` 57–58,
`OrderStreamConsumer.java` 143–148. -/
def isLong (value : String) : Prop :=
  isPositiveDecimal value = true ∧
    (byteLength value < 19 ∨ byteLength value = 19 ∧ ¬ "9223372036854775807" < value)

instance (value : String) : Decidable (isLong value) := inferInstanceAs (Decidable (_ ∧ _))

/-- The texts of ids are those that pass the check. -/
theorem isLong_iff {value : String} : isLong value ↔ ∃ i : LongId, value = i.text := by
  have hmax : "9223372036854775807" = decimal longMax := by decide
  have hlength : byteLength (decimal longMax) = 19 := by decide
  unfold isLong
  rw [isPositiveDecimal_iff, hmax, ← hlength]
  constructor
  · rintro ⟨⟨n, hpos, rfl⟩, hle⟩
    exact ⟨⟨n, hpos, le_iff_text.mp hle⟩, rfl⟩
  · rintro ⟨i, rfl⟩
    exact ⟨⟨i.val, i.pos, rfl⟩, le_iff_text.mpr i.le_max⟩

/-- The text of an id passes the check. -/
@[simp] theorem isLong_text (i : LongId) : isLong i.text := isLong_iff.mpr ⟨i, rfl⟩

/-- A `VoucherOrder` with the three fields an event carries. -/
structure VoucherOrder where
  id : LongId
  userId : LongId
  voucherId : LongId
  deriving DecidableEq

/-- The keys of the activities and of the order queue.
Source: `RedisConstants.java` 22–25, `OrderCancellationReconciler.java` 75–78,
`OrderStreamQueue.java` 89–92, `OrderLifecycleService.java` 104–128. -/
inductive Key where
  /-- `seckill:stock:<voucher>` -/
  | stock (voucherId : LongId)
  /-- `seckill:order:<voucher>`, the participants. -/
  | order (voucherId : LongId)
  /-- `seckill:activity:<voucher>` -/
  | activity (voucherId : LongId)
  /-- `seckill:request:<voucher>`, the accepted order of each user. -/
  | request (voucherId : LongId)
  /-- `seckill:released:<voucher>` -/
  | released (voucherId : LongId)
  /-- `stream.orders` -/
  | orders
  /-- `stream.orders.attempts` -/
  | attempts
  /-- `stream.orders.dead` -/
  | dead
  /-- `stream.orders.failures` -/
  | failures
  /-- `stream.orders.redrives` -/
  | redrives
  deriving DecidableEq

/-- The error codes of the requests. Source: `ErrorCode.java` 9–27. -/
inductive ErrorCode where
  | validationFailed | authenticationFailed | authorizationFailed | rateLimited | notFound | conflict
  | activityNotStarted | activityEnded | activityInactive | soldOut | alreadyParticipated
  | activityUnavailable | orderStateUnavailable | operationFailed | internalError
  deriving DecidableEq

/-- Source: `ErrorCode.java` 9–27, the second argument. -/
def ErrorCode.defaultMessage : ErrorCode → String
  | .validationFailed => "请求参数校验失败"
  | .authenticationFailed => "认证失败"
  | .authorizationFailed => "无权执行该操作"
  | .rateLimited => "请求过于频繁"
  | .notFound => "请求的资源不存在"
  | .conflict => "请求与当前资源状态冲突"
  | .activityNotStarted => "活动尚未开始"
  | .activityEnded => "活动已结束"
  | .activityInactive => "活动未上架"
  | .soldOut => "库存不足"
  | .alreadyParticipated => "已有参与记录，请查询原订单"
  | .activityUnavailable => "活动暂不可受理，请稍后使用同一账号重试"
  | .orderStateUnavailable => "订单状态暂时无法确认，请稍后重试"
  | .operationFailed => "业务操作失败"
  | .internalError => "服务器异常"

/-- Source: `BusinessException.java`. -/
structure BusinessException where
  errorCode : ErrorCode
  message : String := errorCode.defaultMessage
  deriving DecidableEq

end CampusHub.Domain
