import CampusHub.OrderQueue.Redrive

/-!
# Order events

* `decode` — the order that a consumer reads from the fields of an event.
* `admittedFields`, `redrivenFields` — the fields that the admission script and the redrive script
  write for an order; both are read back (`carries_of_eventOf`).
* `payloadOf` — the payload of a dead letter, from which the order is read back too.

An order goes through three texts on its way: the fields that the admission script appends, the JSON payload
of a dead letter, and the fields that a redrive appends. Each is read by another program. The lemmas say
that all of them are read back as the same order, whichever event the letter was made from, so a message
keeps its meaning however often it is archived and redriven.

**Proof route.** The fields have fixed names and the texts of three ids, so reading them is
`positiveId_text` three times. The payload is an array of six strings (`decodeStrings_payloadOf`), from
which both the redrive script and the query service pick their pairs by name.

**Left out.** Events of other producers: what an event that carries no order does is part of the consumers.
-/

namespace CampusHub.OrderFlow

open CampusHub.Redis CampusHub.Foundations.Guards CampusHub.Foundations.Decimal
open CampusHub.Foundations.Json CampusHub.Foundations.Maps CampusHub.Domain CampusHub.OrderQueue

/-! ## Reading -/

/-- An id field; the error is the class of the exception. Source: `OrderStreamConsumer.java` 143–148. -/
def positiveId (value : Option String) : Except String LongId := do
  let text ← getOr value "IllegalArgumentException"
  ensure (isPositiveDecimal text = true ∧ byteLength text ≤ 19) "IllegalArgumentException"
  let n := Nat.ofDigitChars 10 text.toList 0
  if h : 0 < n ∧ n ≤ longMax then .ok ⟨n, h.1, h.2⟩ else .error "NumberFormatException"

/-- The order of an event. Source: `OrderStreamConsumer.java` 137–141. -/
def decode (fields : Fields) : Except String VoucherOrder := do
  let values := writeFields ∅ fields
  ensure (values.keys.card = 3) "IllegalArgumentException"
  let id ← positiveId (values.lookup "id")
  let userId ← positiveId (values.lookup "userId")
  let voucherId ← positiveId (values.lookup "voucherId")
  .ok ⟨id, userId, voucherId⟩

/-- **The event carries the order**: its fields are exactly the three ids. -/
def Carries (o : VoucherOrder) (fields : Fields) : Prop := decode fields = .ok o

/-- An event carries one order. -/
theorem Carries.unique {o o' : VoucherOrder} {fields : Fields} (h : Carries o fields)
    (h' : Carries o' fields) : o = o' :=
  Except.ok.inj (h.symm.trans h')

/-- The text of an id passes the length check. -/
theorem byteLength_text_le (i : LongId) : byteLength i.text ≤ 19 :=
  byteLength_decimal_le (by decide) (lt_of_le_of_lt i.le_max (by norm_num [longMax]))

/-- The text of an id is read back. -/
theorem positiveId_text (i : LongId) : positiveId (some i.text) = .ok i := by
  have hcheck : isPositiveDecimal i.text = true ∧ byteLength i.text ≤ 19 :=
    ⟨isPositiveDecimal_decimal i.pos, byteLength_text_le i⟩
  have hvalue : Nat.ofDigitChars 10 i.text.toList 0 = i.val := ofDigitChars_decimal i.val
  rw [positiveId, getOr_some_bind, ensure_of hcheck]
  simp only [hvalue, i.pos, i.le_max, and_self, dite_true]

/-- An id field that is read is the text of its id. -/
theorem positiveId_eq_ok {value : Option String} {i : LongId} (h : positiveId value = .ok i) :
    value = some i.text := by
  unfold positiveId at h
  simp only [getOr_bind_eq_ok, ensure_bind_eq_ok] at h
  obtain ⟨text, rfl, ⟨hpos, -⟩, h⟩ := h
  obtain ⟨n, -, rfl⟩ := isPositiveDecimal_iff.mp hpos
  simp only [ofDigitChars_decimal] at h
  split at h
  · rw [← Except.ok.inj h]
    rfl
  · cases h

/-! ## Writing -/

/-- The event of an admission. Source: `seckill.lua` 40–41. -/
def admittedFields (o : VoucherOrder) : Fields :=
  [("userId", o.userId.text), ("voucherId", o.voucherId.text), ("id", o.id.text)]

/-- The event of a redrive. Source: `redrive-order.lua` 38. -/
def redrivenFields (o : VoucherOrder) : Fields :=
  [("id", o.id.text), ("userId", o.userId.text), ("voucherId", o.voucherId.text)]

/-- The fields are an event of the order. -/
def EventOf (o : VoucherOrder) (fields : Fields) : Prop :=
  fields = admittedFields o ∨ fields = redrivenFields o

/-- The three fields of an event, by their names. -/
theorem lookup_of_eventOf {o : VoucherOrder} {fields : Fields} (h : EventOf o fields) (f : String) :
    (writeFields ∅ fields).lookup f =
      if f = "id" then some o.id.text
      else if f = "userId" then some o.userId.text
      else if f = "voucherId" then some o.voucherId.text
      else none := by
  rcases h with rfl | rfl
  · simp only [writeFields, admittedFields, List.foldl_cons, List.foldl_nil, lookup_insert_eq,
      Finmap.lookup_empty]
    split_ifs <;> simp_all
  · simp only [writeFields, redrivenFields, List.foldl_cons, List.foldl_nil, lookup_insert_eq,
      Finmap.lookup_empty]
    split_ifs <;> simp_all

/-- An event of an order carries it. -/
theorem carries_of_eventOf {o : VoucherOrder} {fields : Fields} (h : EventOf o fields) :
    Carries o fields := by
  have hkeys : (writeFields ∅ fields).keys = {"id", "userId", "voucherId"} := by
    ext f
    rw [mem_keys_iff, lookup_of_eventOf h]
    simp only [Finset.mem_insert, Finset.mem_singleton]
    split_ifs <;> simp_all
  have hcard : (writeFields ∅ fields).keys.card = 3 := by
    rw [hkeys]
    decide
  rw [Carries, decode, ensure_of hcard]
  simp [lookup_of_eventOf h, positiveId_text, bind, Except.bind]

/-! ## Dead letters -/

/-- The payload text of a dead letter of an event. Source: `order-stream-transition.lua` 43. -/
def payloadOf (fields : Fields) : String := encodeStrings (fields.flatMap fun f => [f.1, f.2])

/-- The six strings of the payload of an event. -/
theorem decodeStrings_payloadOf {o : VoucherOrder} {fields : Fields} (h : EventOf o fields) :
    decodeStrings (payloadOf fields) = some (fields.flatMap fun f => [f.1, f.2]) := by
  refine decodeStrings_encodeStrings ?_
  rcases h with rfl | rfl
  · simp [admittedFields]
  · simp [redrivenFields]

/-- The redrive script reads the fields of the event. -/
theorem payloadIds_eventOf {o : VoucherOrder} {fields : Fields} (h : EventOf o fields) :
    payloadIds (fields.flatMap fun f => [f.1, f.2]) = some fields := by
  rcases h with rfl | rfl
  · simp [payloadIds, admittedFields]
  · simp [payloadIds, redrivenFields]

/-- The fields of an event by their names. -/
theorem list_lookup_of_eventOf {o : VoucherOrder} {fields : Fields} (h : EventOf o fields) :
    fields.lookup "id" = some o.id.text ∧ fields.lookup "userId" = some o.userId.text ∧
      fields.lookup "voucherId" = some o.voucherId.text := by
  rcases h with rfl | rfl
  · exact ⟨rfl, rfl, rfl⟩
  · exact ⟨rfl, rfl, rfl⟩

/-- The fields are those of a dead letter of an event of the order. -/
def LetterOf (o : VoucherOrder) (fields : Fields) : Prop :=
  ∃ now id group consumer attempts errorClass payload, EventOf o payload ∧
    fields = deadLetter now id group consumer attempts errorClass payload

/-- The payload of a dead letter. -/
theorem payload_of_letterOf {o : VoucherOrder} {fields : Fields} (h : LetterOf o fields) :
    ∃ payload, EventOf o payload ∧
      fields.reverse.lookup "payload" = some (payloadOf payload) ∧
      (writeFields ∅ fields).lookup "payload" = some (payloadOf payload) := by
  obtain ⟨now, id, group, consumer, attempts, errorClass, payload, hevent, rfl⟩ := h
  refine ⟨payload, hevent, ?_, ?_⟩
  · rfl
  · simp [deadLetter, payloadOf, writeFields]

/-- **A redrive of a dead letter writes an event of its order.** -/
theorem redriven_of_letterOf {o : VoucherOrder} {letter fields : Fields} (h : LetterOf o letter)
    (hfields : PayloadFields letter fields) : fields = redrivenFields o := by
  obtain ⟨payload, hevent, hpayload, -⟩ := payload_of_letterOf h
  obtain ⟨text, values, data, id, userId, voucherId, htext, hvalues, hdata, hid, huser, hvoucher,
    rfl⟩ := hfields
  obtain rfl := Option.some.inj (hpayload.symm.trans htext)
  rw [decodeStrings_payloadOf hevent, Option.some.injEq] at hvalues
  subst hvalues
  rw [payloadIds_eventOf hevent, Option.some.injEq] at hdata
  subst hdata
  obtain ⟨hid', huser', hvoucher'⟩ := list_lookup_of_eventOf hevent
  obtain rfl := Option.some.inj (hid'.symm.trans hid)
  obtain rfl := Option.some.inj (huser'.symm.trans huser)
  obtain rfl := Option.some.inj (hvoucher'.symm.trans hvoucher)
  rfl

end CampusHub.OrderFlow
