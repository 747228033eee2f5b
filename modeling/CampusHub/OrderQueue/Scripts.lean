import CampusHub.Foundations.Json
import CampusHub.Foundations.Lua
import CampusHub.Domain
import CampusHub.Redis.Keyspace

/-!
# The two scripts of the order queue

* `orderStreamTransition` — `order-stream-transition.lua`: a consumer begins an attempt, ends it with
  success, or ends it with failure, which archives the entry once its budget is used up.
* `redriveOrder` — `redrive-order.lua`: an operator puts an archived order back into the queue.
* `QueueKeys`, `QueueKeys.initializeQueue` — the five keys of a queue, and how its group is created.

Both scripts are plans: their checks come first, in the order of the source, and then the list of their
writes. The parts that the script shares between its transitions are definitions of their own here, under
the words of the source (`ownedAttempts`, `acknowledge`, `archive`, `orderIndex`), and `perform` chooses
among them as the script does. An entry is any list of fields and a dead letter carries its fields as a JSON
array, since the script archives what it cannot read as well.

What a call does to the keys is stated in `OrderQueue.Transition` and `OrderQueue.Redrive`; here are the
definitions, and that a new queue is the empty one.

**Left out.** The text of the server's own error replies, apart from the ones that the scripts make.
-/

namespace CampusHub.OrderQueue

open CampusHub.Redis CampusHub.Foundations.Guards CampusHub.Foundations.Lua
open CampusHub.Foundations.Decimal CampusHub.Foundations.Json CampusHub.Domain

variable {κ : Type}

/-- The keys of an order queue, all different. Source: `OrderStreamQueue.java` 89–92,
`redrive-order.lua` 2. -/
structure QueueKeys (κ : Type) where
  source : κ
  attempts : κ
  dead : κ
  failures : κ
  redrives : κ
  nodup : [source, attempts, dead, failures, redrives].Nodup

/-- The five keys are different. -/
theorem QueueKeys.ne (K : QueueKeys κ) :
    K.source ≠ K.attempts ∧ K.source ≠ K.dead ∧ K.source ≠ K.failures ∧ K.source ≠ K.redrives ∧
      K.attempts ≠ K.dead ∧ K.attempts ≠ K.failures ∧ K.attempts ≠ K.redrives ∧
      K.dead ≠ K.failures ∧ K.dead ≠ K.redrives ∧ K.failures ≠ K.redrives := by
  have := K.nodup
  simp only [List.nodup_cons, List.mem_cons, List.not_mem_nil, or_false, not_or] at this
  tauto

/-- The keys of `stream.orders`. Source: `OrderStreamConsumer.java` 55. -/
def orderKeys : QueueKeys Key where
  source := .orders
  attempts := .attempts
  dead := .dead
  failures := .failures
  redrives := .redrives
  nodup := by decide

/-- The group is created at `0-0`, with its stream if need be; a group that is there is kept.
Source: `OrderStreamQueue.java` 44–55. -/
def QueueKeys.initializeQueue [DecidableEq κ] (K : QueueKeys κ) (group : String) (ks : Keyspace κ) :
    Except Failure (Keyspace κ) := do
  expectKind ks K.source .stream
  match (ks.stream K.source).createGroup group with
  | some s => .ok (ks.put K.source (.stream s))
  -- `BUSYGROUP`
  | none => .ok ks

/-- `stream.orders` with its group, and no other key. -/
def emptyQueue : Keyspace Key := fun k =>
  if k = .orders then
    some ⟨.stream (EventStream.empty.setGroup "g1" ⟨.zero, ∅⟩ ⟨le_rfl, by simp⟩), none⟩
  else none

/-- The queue that the first consumer makes. -/
theorem initialize_emptyQueue : orderKeys.initializeQueue "g1" (fun _ => none) = .ok emptyQueue := by
  have hinit : orderKeys.initializeQueue "g1" (fun _ => none) = .ok
      (Keyspace.put (fun _ => none) .orders
        (.stream (EventStream.empty.setGroup "g1" ⟨.zero, ∅⟩ ⟨le_rfl, by simp⟩))) := rfl
  rw [hinit, Except.ok.injEq]
  funext k
  exact Keyspace.put_apply ..

/-- `redis.error_reply(message)` -/
def errorReply {ρ : Type} (message : String) : Outcome ρ := .raised (.reply message)

/-! ## `order-stream-transition.lua` -/

/-- The index of the orders of an archived entry. Source: `order-stream-transition.lua` 55–61. -/
def orderIndex (failures : κ) (fields : Fields) (deadId : String) : List (Command κ) :=
  (fields.filter fun f => f.1 = "id" ∧ isLong f.2).map fun f =>
    .hset failures [("order:" ++ f.2, deadId)]

/-- An entry is done with. Source: `order-stream-transition.lua` 28–30 and 62–64. -/
def acknowledge (source attempts : κ) (group id : String) : List (Command κ) :=
  [.xack source group id, .hdel attempts id]

/-- The fields of a dead letter. Source: `order-stream-transition.lua` 41–43. -/
def deadLetter (now : ℕ) (id group consumer : String) (attempts : Number) (errorClass : String)
    (payload : Fields) : Fields :=
  [("sourceId", id), ("group", group), ("consumer", consumer), ("attempts", attempts.format0),
    ("errorClass", errorClass), ("failedAt", decimal (now / 1000)),
    ("payload", encodeStrings (payload.flatMap fun f => [f.1, f.2])), ("reservation", "RETAINED")]

/-- The attempts counted for an entry that the consumer owns.
Source: `order-stream-transition.lua` 17–22. -/
def ownedAttempts (ks : Keyspace κ) (source attemptsKey : κ) (group consumer id : String) :
    Checked ℤ Number := do
  -- `XPENDING` refuses a text that is no id, and a group that is not there.
  let pending ← getOr ((ks.stream source).xpending group id) (.raised .invalidId)
  ensure ((ks.stream source).groups.lookup group).isSome (.raised .noGroup)
  let owner ← getOr pending.head? (.answer (-1))
  ensure (owner.2.consumer = consumer) (.answer (-1))
  let attempts ← getOr (tonumber ((ks.hget attemptsKey id).getD "0"))
    (errorReply "ORDER_INVALID_ATTEMPTS")
  ensure (attempts.lt (.ofNat 0) = false) (errorReply "ORDER_INVALID_ATTEMPTS")
  ensure (attempts.eq attempts.floor = true) (errorReply "ORDER_INVALID_ATTEMPTS")
  ensure ((Number.ofNat 100).lt attempts = false) (errorReply "ORDER_INVALID_ATTEMPTS")
  .ok attempts

/-- The writes of a `FAILURE` after the budget is used up: the entry is archived, unless an earlier
dead letter is recorded for it, and done with. Source: `order-stream-transition.lua` 33–64. -/
def archive (now : ℕ) (ks : Keyspace κ) (source attemptsKey dead failures : κ)
    (group consumer id : String) (attempts : Number) (errorClass : String) :
    Checked ℤ (List (Command κ) × ℤ) := do
  let original ← getOr ((ks.stream source).xrange id) (.raised .invalidId)
  let entry ← getOr original.head? (errorReply "ORDER_PAYLOAD_MISSING")
  match ks.hget failures id with
  | none =>
    -- `XADD` raises when the ids of the dead letters are used up.
    let deadId ← getOr (StreamId.next now (ks.stream dead).lastId) (.raised .exhausted)
    .ok (.xadd dead (deadLetter now id group consumer attempts errorClass entry.2) ::
      .hset failures [(id, deadId.render)] :: (orderIndex failures entry.2 deadId.render ++
      acknowledge source attemptsKey group id), 1)
  | some deadId =>
    let archived ← getOr ((ks.stream dead).xrange deadId) (.raised .invalidId)
    let letter ← getOr archived.head? (errorReply "ORDER_ARCHIVE_INDEX_CORRUPT")
    ensure (archived.length = 1) (errorReply "ORDER_ARCHIVE_INDEX_CORRUPT")
    ensure (("sourceId", id) ∈ letter.2) (errorReply "ORDER_ARCHIVE_INDEX_CORRUPT")
    .ok (orderIndex failures entry.2 deadId ++ acknowledge source attemptsKey group id, 1)

/-- The part of a transition after its checks. Source: `order-stream-transition.lua` 23–64. -/
def perform (now : ℕ) (ks : Keyspace κ) (source attemptsKey dead failures : κ)
    (action group consumer id : String) (maximum attempts : Number) (errorClass : String) :
    Checked ℤ (List (Command κ) × ℤ) :=
  if action = "BEGIN" then do
    ensure (maximum.le attempts = false) (.answer 0)
    -- `HINCRBY` answers the new count.
    .ok ([.hincrby attemptsKey id 1],
      (string2ll ((ks.hget attemptsKey id).getD "0")).getD 0 + 1)
  else if action = "SUCCESS" then .ok (acknowledge source attemptsKey group id, 1)
  else do
    ensure (attempts.lt maximum = false) (.answer 0)
    archive now ks source attemptsKey dead failures group consumer id attempts errorClass

/-- Source: `order-stream-transition.lua` 5–64. -/
def orderStreamTransition (now : ℕ) (ks : Keyspace κ) :
    List κ → List String → Checked ℤ (List (Command κ) × ℤ)
  | [source, attemptsKey, dead, failures], [action, group, consumer, id, budget, errorClass] => do
    ensure (action = "BEGIN" ∨ action = "SUCCESS" ∨ action = "FAILURE")
      (errorReply "ORDER_INVALID_ACTION")
    ensure (Typed ks source .stream) (errorReply "ORDER_STATE_WRONGTYPE")
    ensure (Typed ks attemptsKey .hash) (errorReply "ORDER_STATE_WRONGTYPE")
    ensure (action = "FAILURE" → Typed ks dead .stream) (errorReply "ORDER_STATE_WRONGTYPE")
    ensure (action = "FAILURE" → Typed ks failures .hash) (errorReply "ORDER_STATE_WRONGTYPE")
    let maximum ← getOr (tonumber budget) (errorReply "ORDER_INVALID_BUDGET")
    ensure (maximum.lt (.ofNat 1) = false) (errorReply "ORDER_INVALID_BUDGET")
    ensure ((Number.ofNat 100).lt maximum = false) (errorReply "ORDER_INVALID_BUDGET")
    let attempts ← ownedAttempts ks source attemptsKey group consumer id
    perform now ks source attemptsKey dead failures action group consumer id maximum attempts
      errorClass
  | _, _ => .error (errorReply "ORDER_INVALID_ACTION")

/-! ## `redrive-order.lua` -/

/-- The pattern `^[%w_.-]+$` over at most 64 bytes. Source: `redrive-order.lua` 11. -/
def isAuditLabel (label : String) : Bool :=
  1 ≤ byteLength label && byteLength label ≤ 64 &&
    label.toList.all fun c => c.isAlphanum || c == '_' || c == '.' || c == '-'

/-- The three ids of a payload, by their names. A name that is not one of the three, a name twice, a
value that is no id: `none`. Source: `redrive-order.lua` 24–37. -/
def payloadIds : List String → Option (List (String × String))
  | [k₁, v₁, k₂, v₂, k₃, v₃] =>
    let pairs := [(k₁, v₁), (k₂, v₂), (k₃, v₃)]
    if (∀ p ∈ pairs, (p.1 = "id" ∨ p.1 = "userId" ∨ p.1 = "voucherId") ∧ isLong p.2) ∧
        (pairs.map Prod.fst).Nodup then some pairs
    else none
  | _ => none

/-- Source: `redrive-order.lua` 5–41. A payload that is not an array of six strings fails one of the
checks of lines 23–32, all of which give one answer. -/
def redriveOrder (now : ℕ) (ks : Keyspace κ) :
    List κ → List String → Checked String (List (Command κ) × String)
  | [source, dead, redrives], [deadId, operator, reason] => do
    ensure (Typed ks source .stream) (errorReply "ORDER_STATE_WRONGTYPE")
    ensure (Typed ks dead .stream) (errorReply "ORDER_STATE_WRONGTYPE")
    ensure (Typed ks redrives .hash) (errorReply "ORDER_STATE_WRONGTYPE")
    ensure (isAuditLabel operator = true) (errorReply "ORDER_AUDIT_LABEL_INVALID")
    ensure (isAuditLabel reason = true) (errorReply "ORDER_AUDIT_LABEL_INVALID")
    absentOr (ks.hget redrives deadId) .answer
    let letters ← getOr ((ks.stream dead).xrange deadId) (.raised .invalidId)
    let letter ← getOr letters.head? (errorReply "ORDER_DEAD_LETTER_MISSING")
    ensure (letters.length = 1) (errorReply "ORDER_DEAD_LETTER_MISSING")
    -- The last field of that name counts.
    let payload ← getOr (letter.2.reverse.lookup "payload") (errorReply "ORDER_PAYLOAD_MISSING")
    let values ← getOr (decodeStrings payload) (errorReply "ORDER_PAYLOAD_INVALID")
    let data ← getOr (payloadIds values) (errorReply "ORDER_PAYLOAD_INVALID")
    let id ← getOr (data.lookup "id") (errorReply "ORDER_PAYLOAD_INVALID")
    let userId ← getOr (data.lookup "userId") (errorReply "ORDER_PAYLOAD_INVALID")
    let voucherId ← getOr (data.lookup "voucherId") (errorReply "ORDER_PAYLOAD_INVALID")
    let newId ← getOr (StreamId.next now (ks.stream source).lastId) (.raised .exhausted)
    .ok ([.xadd source [("id", id), ("userId", userId), ("voucherId", voucherId)],
      .hset redrives [(deadId, newId.render), (deadId ++ ":operator", operator),
        (deadId ++ ":reason", reason), (deadId ++ ":at", decimal (now / 1000))]], newId.render)
  | _, _ => .error (errorReply "ORDER_AUDIT_LABEL_INVALID")

end CampusHub.OrderQueue
