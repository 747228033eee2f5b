import CampusHub.OrderFlow.Status

/-!
# Archive, redrive and decode

* `decode_eq_ok_iff`, `payloadIds_iff` — the consumer and the redrive script read the same events as
  the same orders.
* `archived_letter_redriven` — the dead letter of an event is redriven if and only if the consumer reads
  the event, and the new entry is read as the same order.
* `Desk` — a sequence of redrives, with the entry that each made for its dead letter.
* `redrive_once` — calls that name their letters in full make one entry for each, and answer its id.
* `archive_redrive_decode` — the three together.
* `redrive_not_once` — a call that names its letter in part makes a second entry.

**Theorem** (`archive_redrive_decode`). The dead letter that a `FAILURE` writes for an event with different
field names is redriven exactly when the consumer reads the event, and the new entry is read as the same
order. The texts that the consumer and the two scripts read as an id are the canonical decimals of the
positive `long` values. Over any sequence of calls that name their letters in full, each letter has one
entry, and every call answers it.

**Proof route.** The consumer asks for exactly three fields, and the script for three pairs, in any order;
both are shown to hold exactly when the fields are a permutation of the three ids (`decode_eq_ok_iff`,
`payloadIds_iff`). For the sequences, `Recorded` says that redrives are recorded under the ids of their
letters, which a call that names its letter in full keeps.

**Left out.** Events with a field twice, which the admission script never writes.
-/

namespace CampusHub.OrderFlow

open CampusHub.Redis CampusHub.Foundations CampusHub.Foundations.Guards CampusHub.Foundations.Decimal
open CampusHub.Foundations.Lua CampusHub.Foundations.Json CampusHub.Foundations.Maps CampusHub.Domain
open CampusHub.OrderQueue

/-! ## The readers agree -/

section readers

variable {o : VoucherOrder} {fields : Fields}

/-- Three fields with the ids of an order among them are these, in some order. -/
theorem perm_redrivenFields (hlength : fields.length ≤ 3) (hsub : redrivenFields o ⊆ fields) :
    fields.Perm (redrivenFields o) := by
  have hnodup : (redrivenFields o).Nodup := by simp [redrivenFields]
  exact ((List.subperm_of_subset hnodup hsub).perm_of_length_le hlength).symm

/-- The ids of an order, by their names, in any order of the fields. -/
theorem lookup_of_perm (hperm : fields.Perm (redrivenFields o)) :
    fields.lookup "id" = some o.id.text ∧ fields.lookup "userId" = some o.userId.text ∧
      fields.lookup "voucherId" = some o.voucherId.text := by
  have hnames : (fields.map Prod.fst).Nodup := by
    rw [(hperm.map Prod.fst).nodup_iff]
    simp [redrivenFields]
  have hfield : ∀ p ∈ redrivenFields o, fields.lookup p.1 = some p.2 := fun p hp =>
    lookup_of_mem hnames (hperm.mem_iff.mpr hp)
  simp only [redrivenFields, List.forall_mem_cons, List.not_mem_nil, false_imp_iff, implies_true,
    and_true] at hfield
  exact hfield

/-- **The consumer reads an event** with different names as an order if and only if its fields are the
three ids of the order. -/
theorem decode_eq_ok_iff (hnames : (fields.map Prod.fst).Nodup) :
    decode fields = .ok o ↔ fields.Perm (redrivenFields o) := by
  have hlookup : ∀ f, (writeFields ∅ fields).lookup f = fields.lookup f := fun f => by
    rw [lookup_writeFields hnames, Finmap.lookup_empty, Option.or_none]
  have hcard : (writeFields ∅ fields).keys.card = fields.length := by
    rw [keys_writeFields, Finmap.keys_empty, Finset.empty_union, List.toFinset_card_of_nodup hnames,
      List.length_map]
  constructor
  · intro h
    simp only [decode, ensure_bind_eq_ok, hcard, hlookup] at h
    obtain ⟨hlength, h⟩ := h
    have hfield : ∀ {f : String} {i : LongId}, positiveId (fields.lookup f) = .ok i →
        (f, i.text) ∈ fields := fun hi =>
      mem_of_lookup (positiveId_eq_ok hi)
    obtain ⟨id, hid, h⟩ := exists_of_bind_eq_ok h
    obtain ⟨userId, huser, h⟩ := exists_of_bind_eq_ok h
    obtain ⟨voucherId, hvoucher, h⟩ := exists_of_bind_eq_ok h
    obtain rfl := Except.ok.inj h
    refine perm_redrivenFields hlength.le ?_
    simp only [redrivenFields, List.cons_subset, List.nil_subset, and_true]
    exact ⟨hfield hid, hfield huser, hfield hvoucher⟩
  · intro h
    obtain ⟨hid, huser, hvoucher⟩ := lookup_of_perm h
    have hlength : (writeFields ∅ fields).keys.card = 3 := by
      rw [hcard, h.length_eq]
      rfl
    rw [decode, ensure_of hlength]
    simp [hlookup, hid, huser, hvoucher, positiveId_text, bind, Except.bind]

/-- **The redrive script reads a payload** with different names if and only if its fields are the three
ids of an order. -/
theorem payloadIds_iff {data : Fields} (hnames : (fields.map Prod.fst).Nodup) :
    payloadIds (fields.flatMap fun f => [f.1, f.2]) = some data ↔
      data = fields ∧ ∃ o, fields.Perm (redrivenFields o) := by
  by_cases hlength : fields.length = 3
  · obtain ⟨⟨k₁, v₁⟩, ⟨k₂, v₂⟩, ⟨k₃, v₃⟩, rfl⟩ := List.length_eq_three.mp hlength
    have hread : payloadIds ([(k₁, v₁), (k₂, v₂), (k₃, v₃)].flatMap fun f => [f.1, f.2]) =
        if (∀ p ∈ [(k₁, v₁), (k₂, v₂), (k₃, v₃)],
            (p.1 = "id" ∨ p.1 = "userId" ∨ p.1 = "voucherId") ∧ isLong p.2) ∧
          ([(k₁, v₁), (k₂, v₂), (k₃, v₃)].map Prod.fst).Nodup
        then some [(k₁, v₁), (k₂, v₂), (k₃, v₃)] else none := rfl
    rw [hread]
    generalize [(k₁, v₁), (k₂, v₂), (k₃, v₃)] = fields at *
    constructor
    · intro h
      split at h
      · rename_i hall
        refine ⟨(Option.some.inj h).symm, ?_⟩
        have hsub : fields.map Prod.fst ⊆ ["id", "userId", "voucherId"] := fun f hf => by
          obtain ⟨p, hp, rfl⟩ := List.mem_map.mp hf
          simpa using (hall.1 p hp).1
        have hperm := (List.subperm_of_subset hnames hsub).perm_of_length_le
          (by simp [hlength])
        have hid : ∀ f ∈ ["id", "userId", "voucherId"], ∃ i : LongId, (f, i.text) ∈ fields :=
          fun f hf => by
            obtain ⟨p, hp, rfl⟩ := List.mem_map.mp (hperm.mem_iff.mpr hf)
            obtain ⟨i, hi⟩ := isLong_iff.mp (hall.1 p hp).2
            exact ⟨i, hi ▸ hp⟩
        obtain ⟨id, hid'⟩ := hid "id" (by simp)
        obtain ⟨userId, huser⟩ := hid "userId" (by simp)
        obtain ⟨voucherId, hvoucher⟩ := hid "voucherId" (by simp)
        refine ⟨⟨id, userId, voucherId⟩, perm_redrivenFields hlength.le ?_⟩
        simp only [redrivenFields, List.cons_subset, List.nil_subset, and_true]
        exact ⟨hid', huser, hvoucher⟩
      · cases h
    · rintro ⟨rfl, o, hperm⟩
      rw [if_pos]
      refine ⟨fun p hp => ?_, hnames⟩
      have hmem := hperm.mem_iff.mp hp
      simp only [redrivenFields, List.mem_cons, List.not_mem_nil, or_false] at hmem
      rcases hmem with rfl | rfl | rfl <;> simp
  · constructor
    · intro h
      have hnone : payloadIds (fields.flatMap fun f => [f.1, f.2]) = none := by
        rcases fields with _ | ⟨a, _ | ⟨b, _ | ⟨c, _ | ⟨d, rest⟩⟩⟩⟩
        · rfl
        · rfl
        · rfl
        · exact absurd rfl hlength
        · rfl
      rw [hnone] at h
      cases h
    · rintro ⟨-, o, hperm⟩
      exact absurd hperm.length_eq hlength

/-- The fields that a redrive reads from the dead letter of an event are those of its order. -/
theorem payloadFields_iff {now : ℕ} {id group consumer errorClass : String} {attempts : Number}
    {new : Fields} (hnames : (fields.map Prod.fst).Nodup) :
    PayloadFields (deadLetter now id group consumer attempts errorClass fields) new ↔
      ∃ o, decode fields = .ok o ∧ new = redrivenFields o := by
  have hpayload : (deadLetter now id group consumer attempts errorClass fields).reverse.lookup
      "payload" = some (payloadOf fields) := rfl
  have hvalues : ∀ values, decodeStrings (payloadOf fields) = some values →
      ∀ data, payloadIds values = some data → fields ≠ [] ∧
        values = fields.flatMap fun f => [f.1, f.2] := fun values hvalues data hdata => by
    cases fields with
    | nil => cases (show decodeStrings (payloadOf []) = none from rfl).symm.trans hvalues
    | cons f rest =>
      refine ⟨by simp, Option.some.inj (hvalues.symm.trans (decodeStrings_encodeStrings ?_))⟩
      simp
  constructor
  · rintro ⟨payload, values, data, i, user, voucher, htext, hdecode, hdata, hi, huser, hvoucher, rfl⟩
    obtain rfl := Option.some.inj (hpayload.symm.trans htext)
    obtain ⟨-, rfl⟩ := hvalues values hdecode data hdata
    obtain ⟨rfl, o, hperm⟩ := (payloadIds_iff hnames).mp hdata
    obtain ⟨hid', huser', hvoucher'⟩ := lookup_of_perm hperm
    obtain rfl := Option.some.inj (hid'.symm.trans hi)
    obtain rfl := Option.some.inj (huser'.symm.trans huser)
    obtain rfl := Option.some.inj (hvoucher'.symm.trans hvoucher)
    exact ⟨o, (decode_eq_ok_iff hnames).mpr hperm, rfl⟩
  · rintro ⟨o, ho, rfl⟩
    have hperm := (decode_eq_ok_iff hnames).mp ho
    obtain ⟨hid, huser, hvoucher⟩ := lookup_of_perm hperm
    have hne : fields.flatMap (fun f => [f.1, f.2]) ≠ [] := by
      cases fields with
      | nil => cases hid
      | cons f rest => simp
    exact ⟨_, _, fields, _, _, _, hpayload, decodeStrings_encodeStrings hne,
      (payloadIds_iff hnames).mpr ⟨rfl, o, hperm⟩, hid, huser, hvoucher, rfl⟩

end readers

/-! ## A dead letter is redriven -/

section letters

variable {κ : Type} [DecidableEq κ] {K : QueueKeys κ} {now : ℕ} {ks : Keyspace κ} {letterId : StreamId}
  {letter : Fields} {operator reason : String}

/-- **A dead letter can be redriven**: it is there, no redrive of it is recorded, the keys are of their
types, the queue has an id left for it and the labels are valid. -/
structure Redrivable (K : QueueKeys κ) (ks : Keyspace κ) (letterId : StreamId) (letter : Fields)
    (operator reason : String) : Prop where
  source : Typed ks K.source .stream
  dead : Typed ks K.dead .stream
  redrives : Typed ks K.redrives .hash
  operator : isAuditLabel operator = true
  reason : isAuditLabel reason = true
  prior : ks.hget K.redrives letterId.render = none
  letter : (ks.stream K.dead).lookup letterId = some letter
  room : (ks.stream K.source).lastId ≠ .last

omit [DecidableEq κ] in
/-- The letter is the only one that its id selects. -/
theorem Redrivable.selected (h : Redrivable K ks letterId letter operator reason) :
    (ks.stream K.dead).xrange letterId.render = some [(letterId, letter)] := by
  rw [EventStream.xrange_render, h.letter]
  rfl

omit [DecidableEq κ] in
/-- A call for a letter whose fields the script reads comes to its writes. -/
theorem Redrivable.exists_plan (h : Redrivable K ks letterId letter operator reason) (now : ℕ)
    {fields : Fields} (hfields : PayloadFields letter fields) :
    ∃ p, redriveOrder now ks [K.source, K.dead, K.redrives] [letterId.render, operator, reason] =
      .ok p := by
  obtain ⟨payload, values, data, id, userId, voucherId, hpayload, hvalues, hdata, hid, huser,
    hvoucher, -⟩ := hfields
  obtain ⟨newId, hnext⟩ := StreamId.exists_next h.room now
  rw [redriveOrder, ensure_of h.source, ensure_of h.dead, ensure_of h.redrives,
    ensure_of h.operator, ensure_of h.reason, h.prior, absentOr_none_bind, h.selected,
    getOr_some_bind, List.head?_cons, getOr_some_bind, ensure_of List.length_singleton, hpayload,
    getOr_some_bind, hvalues, getOr_some_bind, hdata, getOr_some_bind, hid, getOr_some_bind, huser,
    getOr_some_bind, hvoucher, getOr_some_bind, hnext, getOr_some_bind]
  exact ⟨_, rfl⟩

/-- **A redrive of a dead letter** adds an entry with the fields that are read from the letter, and
answers its id. -/
theorem Redrivable.redrive (h : Redrivable K ks letterId letter operator reason) (now : ℕ)
    {fields : Fields} (hfields : PayloadFields letter fields) :
    let r := K.redrive now ks letterId.render operator reason
    ∃ fields newId, PayloadFields letter fields ∧ r.1 = .answer newId.render ∧
      Redriven K now letterId.render (letterId, letter) fields newId ks r.2 := by
  intro r
  obtain ⟨p, hplan⟩ := h.exists_plan now hfields
  obtain ⟨letter', fields', newId, hanswer, -, hredriven⟩ := redriven_of_plan hplan
  have hselected := hredriven.selected
  rw [h.selected, Option.some.injEq, List.cons.injEq] at hselected
  obtain rfl := hselected.1
  exact ⟨fields', newId, hredriven.payload, hanswer, hredriven⟩

/-- It is refused, and changes nothing, if none are read. -/
theorem Redrivable.refuse (h : Redrivable K ks letterId letter operator reason) (now : ℕ)
    (hfields : ∀ fields, ¬ PayloadFields letter fields) :
    ∃ e, K.redrive now ks letterId.render operator reason = (.raised e, ks) := by
  rcases redrive_outcome K now ks letterId.render operator reason with
    ⟨text, -, hprior, -⟩ | hraised | ⟨letter', fields, newId, -, -, hredriven⟩
  · rw [h.prior] at hprior
    cases hprior
  · exact hraised
  · have hselected := hredriven.selected
    rw [h.selected, Option.some.injEq, List.cons.injEq] at hselected
    obtain rfl := hselected.1
    exact absurd hredriven.payload (hfields fields)

omit [DecidableEq κ] in
/-- The dead letter that a `FAILURE` writes is one of the entry. -/
theorem letter_of_failure {ks : Keyspace κ} {group consumer id budget errorClass : String}
    {letter : Fields} {rest : List (Command κ)} {z : ℤ}
    (h : orderStreamTransition now ks [K.source, K.attempts, K.dead, K.failures]
      ["FAILURE", group, consumer, id, budget, errorClass] = .ok (.xadd K.dead letter :: rest, z)) :
    ∃ entry attempts, ((ks.stream K.source).xrange id).bind List.head? = some entry ∧
      letter = deadLetter now id group consumer attempts errorClass entry.2 := by
  have hindex : ∀ (fields : Fields) (deadId : String), .xadd K.dead letter :: rest ≠
      orderIndex K.failures fields deadId ++ acknowledge K.source K.attempts group id := by
    intro fields deadId heq
    unfold orderIndex acknowledge at heq
    generalize fields.filter _ = indexed at heq
    cases indexed <;> simp at heq
  simp only [orderStreamTransition, ensure_bind_eq_ok, getOr_bind_eq_ok] at h
  obtain ⟨-, -, -, -, -, maximum, -, -, -, h⟩ := h
  obtain ⟨attempts, -, h⟩ := exists_of_bind_eq_ok h
  rw [perform, if_neg (by decide), if_neg (by decide), ensure_bind_eq_ok] at h
  obtain ⟨-, h⟩ := h
  simp only [archive, getOr_bind_eq_ok] at h
  obtain ⟨original, horiginal, entry, hentry, h⟩ := h
  refine ⟨entry, attempts, by rw [horiginal, Option.bind_some, hentry], ?_⟩
  split at h
  · simp only [getOr_bind_eq_ok, Except.ok.injEq, Prod.mk.injEq, List.cons.injEq,
      Command.xadd.injEq] at h
    obtain ⟨deadId, -, ⟨⟨-, hletter⟩, -⟩, -⟩ := h
    exact hletter.symm
  · simp only [getOr_bind_eq_ok, ensure_bind_eq_ok, Except.ok.injEq, Prod.mk.injEq] at h
    obtain ⟨archived, -, letter', -, -, -, hplan, -⟩ := h
    exact absurd hplan.symm (hindex _ _)

/-- **The dead letter that a `FAILURE` writes for an event is redriven if and only if the consumer reads
the event.** The new entry is read as the same order, and a refusal changes nothing. -/
theorem archived_letter_redriven {ks ks' : Keyspace κ} {now now' : ℕ}
    {group consumer id budget errorClass : String} {rest : List (Command κ)} {z : ℤ}
    {entry : StreamId × Fields}
    (hfailure : orderStreamTransition now ks [K.source, K.attempts, K.dead, K.failures]
      ["FAILURE", group, consumer, id, budget, errorClass] = .ok (.xadd K.dead letter :: rest, z))
    (hentry : ((ks.stream K.source).xrange id).bind List.head? = some entry)
    (hnames : (entry.2.map Prod.fst).Nodup)
    (h : Redrivable K ks' letterId letter operator reason) :
    let r := K.redrive now' ks' letterId.render operator reason
    ((∃ text, r.1 = .answer text) ↔ ∃ o, decode entry.2 = .ok o) ∧
    (∀ text, r.1 = .answer text → ∃ o newId fields, decode entry.2 = .ok o ∧ text = newId.render ∧
      (ks'.stream K.source).lookup newId = none ∧
      (r.2.stream K.source).lookup newId = some fields ∧ decode fields = .ok o) ∧
    ((∀ text, r.1 ≠ .answer text) → r.2 = ks') := by
  intro r
  obtain ⟨entry', attempts, hentry', rfl⟩ := letter_of_failure hfailure
  obtain rfl := Option.some.inj (hentry.symm.trans hentry')
  by_cases hread : ∃ o, decode entry.2 = .ok o
  · obtain ⟨o, ho⟩ := hread
    obtain ⟨fields, newId, hfields, hanswer, hredriven⟩ :=
      h.redrive now' ((payloadFields_iff hnames).mpr ⟨o, ho, rfl⟩)
    obtain ⟨o', ho', rfl⟩ := (payloadFields_iff hnames).mp hfields
    obtain ⟨s, happend, hslot⟩ := hredriven.source
    have hstream : r.2.stream K.source = s := by
      rw [Keyspace.stream, show r.2 K.source = _ from hslot]
    refine ⟨⟨fun _ => ⟨o, ho⟩, fun _ => ⟨_, hanswer⟩⟩, fun text htext => ?_,
      fun hnone => absurd hanswer (hnone _)⟩
    have hsame : text = newId.render := Outcome.answer.inj (htext.symm.trans hanswer)
    refine ⟨o', newId, _, ho', hsame, EventStream.lookup_of_append_self happend, ?_,
      carries_of_eventOf (.inr rfl)⟩
    rw [hstream, EventStream.lookup_append happend, if_pos rfl]
  · obtain ⟨e, hraised⟩ := h.refuse now' fun fields hfields => by
      obtain ⟨o, ho, -⟩ := (payloadFields_iff hnames).mp hfields
      exact hread ⟨o, ho⟩
    have hr : r = (.raised e, ks') := hraised
    rw [hr]
    refine ⟨⟨?_, fun ho => absurd ho hread⟩, ?_, fun _ => rfl⟩
    · rintro ⟨text, htext⟩
      cases htext
    · intro text htext
      cases htext

end letters

/-- **The texts that are read as an id** by the consumer, and by the two scripts, are the canonical
decimals of the positive Java `long`s. -/
theorem id_readers (value : String) :
    (isLong value ↔ ∃ n, 1 ≤ n ∧ n ≤ 9223372036854775807 ∧ value = decimal n) ∧
    ((∃ i, positiveId (some value) = .ok i) ↔ isLong value) ∧
    ∀ i, positiveId (some value) = .ok i → value = i.text := by
  have htext : ∀ i, positiveId (some value) = .ok i → value = i.text := fun i hi =>
    Option.some.inj (positiveId_eq_ok hi)
  refine ⟨?_, ?_, htext⟩
  · rw [isLong_iff]
    constructor
    · rintro ⟨i, rfl⟩
      exact ⟨i.val, i.pos, i.le_max, rfl⟩
    · rintro ⟨n, hpos, hmax, rfl⟩
      exact ⟨⟨n, hpos, hmax⟩, rfl⟩
  · rw [isLong_iff]
    constructor
    · rintro ⟨i, hi⟩
      exact ⟨i, htext i hi⟩
    · rintro ⟨i, rfl⟩
      exact ⟨i, positiveId_text i⟩

/-! ## Sequences of redrives -/

/-- A call of the script, with the time of the server. -/
structure Call where
  now : ℕ
  deadId : String
  operator : String
  reason : String

/-- The keys, and the entries that the redrives made, each with its dead letter. -/
structure Desk (κ : Type) where
  redis : Keyspace κ
  made : List (StreamId × StreamId)

section desks

variable {κ : Type} [DecidableEq κ] (K : QueueKeys κ)

/-- The answer of a call. -/
def Desk.answer (d : Desk κ) (a : Call) : Outcome String :=
  (K.redrive a.now d.redis a.deadId a.operator a.reason).1

/-- The dead letters that a text selects. -/
def selects (ks : Keyspace κ) (deadId : String) : List StreamId :=
  (((ks.stream K.dead).xrange deadId).getD []).map Prod.fst

/-- The ids of the entries of a stream that another has not. -/
def newIds (s t : EventStream) : List StreamId :=
  (t.entries.filter fun e => s.lookup e.1 = none).map Prod.fst

/-- A call; an entry that is new is made for the dead letters that the first argument selects. -/
def Desk.step (d : Desk κ) (a : Call) : Desk κ :=
  let r := K.redrive a.now d.redis a.deadId a.operator a.reason
  ⟨r.2, d.made ++ (newIds (d.redis.stream K.source) (r.2.stream K.source)).flatMap fun i =>
    (selects K d.redis a.deadId).map fun l => (l, i)⟩

/-- A call with valid labels whose first argument has a redrive recorded, or selects one dead letter,
gives the id of its letter in full. -/
def NamesFully (d : Desk κ) (a : Call) : Prop :=
  isAuditLabel a.operator = true → isAuditLabel a.reason = true →
    d.redis.hget K.redrives a.deadId ≠ none ∨ (∃ l, selects K d.redis a.deadId = [l]) →
    ∃ l, selects K d.redis a.deadId = [l] ∧ a.deadId = l.render

/-- **One entry for each letter.** A dead letter has one entry made for it at most. -/
def OneEach (d : Desk κ) : Prop := ∀ l i i', (l, i) ∈ d.made → (l, i') ∈ d.made → i = i'

/-- **The call answers its entry**: the id of the entry that was made for the letter it selects. -/
def AnswersEntry (d : Desk κ) (a : Call) : Prop :=
  ∀ text, d.answer K a = .answer text → ∃ l i, selects K d.redis a.deadId = [l] ∧
    (l, i) ∈ (d.step K a).made ∧ text = i.render

/-- The redrives are recorded under the ids of their letters. -/
structure Recorded (d : Desk κ) : Prop where
  recorded : ∀ l i, (l, i) ∈ d.made → d.redis.hget K.redrives l.render = some i.render
  made : ∀ (l : StreamId) text, d.redis.hget K.redrives l.render = some text →
    ∃ i, text = i.render ∧ (l, i) ∈ d.made

variable {K} {d : Desk κ} {a : Call}

omit [DecidableEq κ] in
/-- Where redrives are recorded so, each letter has one entry. -/
theorem Recorded.oneEach (h : Recorded K d) : OneEach d := by
  intro l i i' hi hi'
  have hsame := (h.recorded l i hi).symm.trans (h.recorded l i' hi')
  rwa [Option.some.injEq, StreamId.render_inj] at hsame

/-- A stream has no new id against itself. -/
theorem newIds_self (s : EventStream) : newIds s s = [] := by
  rw [newIds, List.map_eq_nil_iff, List.filter_eq_nil_iff]
  intro e he
  rw [EventStream.lookup_eq_some.mpr he]
  simp

/-- An entry that is appended is the only new one. -/
theorem newIds_append {s t : EventStream} {now : ℕ} {fields : Fields} {id : StreamId}
    (h : s.append now fields = some (id, t)) : newIds s t = [id] := by
  have hold := newIds_self s
  rw [newIds, List.map_eq_nil_iff] at hold
  rw [newIds, (EventStream.append_eq_some h).2.1, List.filter_append, hold, List.nil_append,
    List.filter_cons_of_pos (by simp [EventStream.lookup_of_append_self h])]
  rfl

/-- A call that changes nothing makes no entry. -/
theorem Desk.step_same (h : (K.redrive a.now d.redis a.deadId a.operator a.reason).2 = d.redis) :
    d.step K a = d := by
  simp only [Desk.step, h, newIds_self, List.flatMap_nil, List.append_nil]

/-- A redrive makes one entry, for the letter it selects. -/
theorem Desk.step_redriven {letter : StreamId × Fields} {fields : Fields} {newId : StreamId}
    (h : Redriven K a.now a.deadId letter fields newId d.redis
      (K.redrive a.now d.redis a.deadId a.operator a.reason).2) :
    selects K d.redis a.deadId = [letter.1] ∧
      (d.step K a).made = d.made ++ [(letter.1, newId)] := by
  have hselects : selects K d.redis a.deadId = [letter.1] := by
    rw [selects, h.selected]
    rfl
  refine ⟨hselects, ?_⟩
  obtain ⟨s, happend, hslot⟩ := h.source
  have hstream : (K.redrive a.now d.redis a.deadId a.operator a.reason).2.stream K.source = s := by
    rw [Keyspace.stream, hslot]
  simp only [Desk.step, hstream, newIds_append happend, hselects]
  rfl

/-- **A call that names its letter in full** keeps the redrives recorded under the ids of their letters,
and answers the entry of its letter. -/
theorem Recorded.step (h : Recorded K d) (hfull : NamesFully K d a) :
    Recorded K (d.step K a) ∧ AnswersEntry K d a := by
  rcases redrive_outcome K a.now d.redis a.deadId a.operator a.reason with
    ⟨text, hr, hprior, hoperator, hreason⟩ | ⟨e, hr⟩ |
    ⟨letter, fields, newId, hanswer, ⟨hoperator, hreason⟩, hredriven⟩
  · have hsame := Desk.step_same (congrArg Prod.snd hr)
    rw [AnswersEntry, hsame]
    refine ⟨h, fun text' htext' => ?_⟩
    obtain rfl : text = text' :=
      Outcome.answer.inj ((congrArg Prod.fst hr).symm.trans htext')
    obtain ⟨l, hselects, hid⟩ := hfull hoperator hreason (.inl (by rw [hprior]; nofun))
    rw [hid] at hprior
    obtain ⟨i, htext, hmade⟩ := h.made l text hprior
    exact ⟨l, i, hselects, hmade, htext⟩
  · rw [AnswersEntry, Desk.step_same (congrArg Prod.snd hr)]
    refine ⟨h, fun text htext => ?_⟩
    rw [Desk.answer, hr] at htext
    cases htext
  · obtain ⟨hselects, hmade⟩ := Desk.step_redriven hredriven
    obtain ⟨l, hselects', hid⟩ := hfull hoperator hreason (.inr ⟨_, hselects⟩)
    obtain rfl : letter.1 = l := by
      rw [hselects, List.cons.injEq] at hselects'
      exact hselects'.1
    have hmarks : ∀ i : StreamId, (d.step K a).redis.hget K.redrives i.render =
        if i = letter.1 then some newId.render else d.redis.hget K.redrives i.render := by
      intro i
      show (K.redrive a.now d.redis a.deadId a.operator a.reason).2.hget K.redrives i.render = _
      rw [hredriven.marks i]
      simp only [hid, StreamId.render_inj]
    refine ⟨⟨fun l i hi => ?_, fun l text htext => ?_⟩, fun text htext => ?_⟩
    · rw [hmade, List.mem_append, List.mem_singleton, Prod.mk.injEq] at hi
      rw [hmarks]
      rcases hi with hi | ⟨rfl, rfl⟩
      · rw [if_neg, h.recorded l i hi]
        rintro rfl
        have hprior := hredriven.prior
        rw [hid, h.recorded _ i hi] at hprior
        cases hprior
      · rw [if_pos rfl]
    · rw [hmarks] at htext
      rw [hmade]
      split at htext
      · rename_i hl
        rw [hl]
        exact ⟨newId, (Option.some.inj htext).symm, List.mem_append_right _ (List.mem_singleton_self _)⟩
      · obtain ⟨i, hi, hmem⟩ := h.made l text htext
        exact ⟨i, hi, List.mem_append_left _ hmem⟩
    · obtain rfl : newId.render = text := Outcome.answer.inj (hanswer.symm.trans htext)
      refine ⟨letter.1, newId, hselects, ?_, rfl⟩
      rw [hmade]
      exact List.mem_append_right _ (List.mem_singleton_self _)

/-- **Redrives that name their letters in full** make one entry for each, and every call answers the id
of the entry of its letter. -/
theorem redrive_once {ks : Keyspace κ} (hnone : ∀ f, ks.hget K.redrives f = none)
    (calls : List Call) (hfull : Runs.Along (NamesFully K) (Desk.step K) ⟨ks, []⟩ calls) :
    OneEach (Runs.run (Desk.step K) ⟨ks, []⟩ calls) ∧
      Runs.Along (AnswersEntry K) (Desk.step K) ⟨ks, []⟩ calls := by
  have hinitial : Recorded K (⟨ks, []⟩ : Desk κ) := by
    refine ⟨nofun, fun l text htext => ?_⟩
    rw [hnone] at htext
    cases htext
  refine ⟨(Runs.run_invariant_of_along _ (fun d a hd hok => (hd.step hok).1) calls _ hinitial
    hfull).oneEach, ?_⟩
  exact Runs.along_of_along _ (fun d a hd hok => hd.step hok) calls _ hinitial hfull

end desks

/-- **Archive, redrive and decode fit together.** The dead letter that a `FAILURE` writes for an event
with different names is redriven if and only if the consumer reads the event, and the new entry is read
as the same order; a refusal changes nothing. The ids are the canonical decimals of the positive `long`s
for all readers. And redrives that name their letters in full make one entry for each letter at most,
and every successful call answers the id of the entry of its letter. -/
theorem archive_redrive_decode {κ : Type} [DecidableEq κ] (K : QueueKeys κ) :
    (∀ (ks ks' : Keyspace κ) (now now' : ℕ) (group consumer id budget errorClass : String)
      (letter : Fields) (rest : List (Command κ)) (z : ℤ) (entry : StreamId × Fields)
      (letterId : StreamId) (operator reason : String),
      orderStreamTransition now ks [K.source, K.attempts, K.dead, K.failures]
        ["FAILURE", group, consumer, id, budget, errorClass] = .ok (.xadd K.dead letter :: rest, z) →
      ((ks.stream K.source).xrange id).bind List.head? = some entry →
      (entry.2.map Prod.fst).Nodup → Redrivable K ks' letterId letter operator reason →
      let r := K.redrive now' ks' letterId.render operator reason
      ((∃ text, r.1 = .answer text) ↔ ∃ o, decode entry.2 = .ok o) ∧
      (∀ text, r.1 = .answer text → ∃ o newId fields, decode entry.2 = .ok o ∧
        text = newId.render ∧ (ks'.stream K.source).lookup newId = none ∧
        (r.2.stream K.source).lookup newId = some fields ∧ decode fields = .ok o) ∧
      ((∀ text, r.1 ≠ .answer text) → r.2 = ks')) ∧
    (∀ value, (isLong value ↔ ∃ n, 1 ≤ n ∧ n ≤ 9223372036854775807 ∧ value = decimal n) ∧
      ((∃ i, positiveId (some value) = .ok i) ↔ isLong value) ∧
      ∀ i, positiveId (some value) = .ok i → value = i.text) ∧
    ∀ (ks : Keyspace κ) (calls : List Call), (∀ f, ks.hget K.redrives f = none) →
      Runs.Along (NamesFully K) (Desk.step K) ⟨ks, []⟩ calls →
      OneEach (Runs.run (Desk.step K) ⟨ks, []⟩ calls) ∧
        Runs.Along (AnswersEntry K) (Desk.step K) ⟨ks, []⟩ calls :=
  ⟨fun _ _ _ _ _ _ _ _ _ _ _ _ _ _ _ _ hfailure hentry hnames h =>
      archived_letter_redriven hfailure hentry hnames h,
    id_readers, fun _ calls hnone hfull => redrive_once hnone calls hfull⟩

/-! ## The letter of the small sale -/

/-- The stores when the only attempt of the first order of the small sale has begun. -/
def failingSale : World :=
  Runs.run (step smallSale) (initial smallSale 1000 0) (firstSale ++ [.readNew 0 "c", .begin 0,
    .refuse 0 (.reason .lockBusy)])

/-- The stores after it failed: the order is archived under `1000-0`. -/
def archivedSale : Keyspace Key := (step smallSale failingSale (.finish 0)).redis

/-- The dead letter of that order. -/
def firstLetter : Fields :=
  deadLetter 1000 "1000-0" "g1" "c" (.ofNat 1) "LOCK_BUSY" (admittedFields firstOrder)

/-- No redrive was called yet. -/
theorem archivedSale_redrives : archivedSale .redrives = none := by
  have hnone : (archivedSale .redrives).isNone = true := by decide +kernel
  exact Option.isNone_iff_eq_none.mp hnone

/-- No redrive is recorded. -/
theorem archivedSale_unrecorded (f : String) : archivedSale.hget .redrives f = none := by
  rw [Keyspace.hget, Keyspace.fields, archivedSale_redrives]
  rfl

/-- The script writes that letter first. -/
theorem firstLetter_written : ∃ rest z,
    orderStreamTransition 1000 failingSale.redis [.orders, .attempts, .dead, .failures]
      ["FAILURE", "g1", "c", "1000-0", "1", "LOCK_BUSY"] =
      .ok (.xadd .dead firstLetter :: rest, z) := by
  have hhead : ((orderStreamTransition 1000 failingSale.redis [.orders, .attempts, .dead, .failures]
      ["FAILURE", "g1", "c", "1000-0", "1", "LOCK_BUSY"]).toOption.bind fun p => p.1.head?) =
      some (.xadd .dead firstLetter) := by decide +kernel
  cases hplan : orderStreamTransition 1000 failingSale.redis [.orders, .attempts, .dead, .failures]
      ["FAILURE", "g1", "c", "1000-0", "1", "LOCK_BUSY"] with
  | error e =>
    rw [hplan] at hhead
    cases hhead
  | ok p =>
    rw [hplan] at hhead
    obtain ⟨_ | ⟨command, rest⟩, z⟩ := p
    · cases hhead
    · obtain rfl := Option.some.inj (show some command = _ from hhead)
      exact ⟨rest, z, rfl⟩

/-- The letter can be redriven. -/
theorem firstLetter_redrivable :
    Redrivable orderKeys archivedSale ⟨1000, 0⟩ firstLetter "operator" "retry" where
  source := by decide +kernel
  dead := by decide +kernel
  redrives := by decide +kernel
  operator := by decide
  reason := by decide
  prior := archivedSale_unrecorded _
  letter := by decide +kernel
  room := by decide +kernel

/-- The letter of the small sale is redriven by its id, and has one entry when that is done twice. -/
theorem archivedSale_redriven :
    (∃ text, (orderKeys.redrive 1001 archivedSale (StreamId.render ⟨1000, 0⟩) "operator" "retry").1 =
      .answer text) ∧
    let calls : List Call := [⟨1001, "1000-0", "operator", "retry"⟩, ⟨1002, "1000-0", "operator", "retry"⟩]
    OneEach (Runs.run (Desk.step orderKeys) ⟨archivedSale, []⟩ calls) ∧
      Runs.Along (AnswersEntry orderKeys) (Desk.step orderKeys) ⟨archivedSale, []⟩ calls := by
  obtain ⟨hletter, -, hcalls⟩ := archive_redrive_decode orderKeys
  constructor
  · obtain ⟨rest, z, hfailure⟩ := firstLetter_written
    exact (hletter failingSale.redis archivedSale 1000 1001 "g1" "c" "1000-0" "1" "LOCK_BUSY"
      firstLetter rest z (⟨1000, 0⟩, admittedFields firstOrder) ⟨1000, 0⟩ "operator" "retry" hfailure
      (by decide +kernel) (by decide) firstLetter_redrivable).1.mpr
      ⟨firstOrder, carries_of_eventOf (.inl rfl)⟩
  · refine hcalls archivedSale _ archivedSale_unrecorded ?_
    have hrender : "1000-0" = (⟨1000, 0⟩ : StreamId).render := by decide
    exact ⟨fun _ _ _ => ⟨⟨1000, 0⟩, by decide +kernel, hrender⟩,
      fun _ _ _ => ⟨⟨1000, 0⟩, by decide +kernel, hrender⟩, trivial⟩

/-- **A letter that is named in part is redriven twice; the field of an audit label is answered as the
id of an entry.** -/
theorem redrive_not_once :
    (¬ ∀ (ks : Keyspace Key) (calls : List Call), (∀ f, ks.hget .redrives f = none) →
      OneEach (Runs.run (Desk.step orderKeys) ⟨ks, []⟩ calls)) ∧
    ¬ ∀ (ks : Keyspace Key) (calls : List Call), (∀ f, ks.hget .redrives f = none) →
      Runs.Along (AnswersEntry orderKeys) (Desk.step orderKeys) ⟨ks, []⟩ calls := by
  constructor
  · intro hall
    have hone := hall archivedSale [⟨1001, "1000", "operator", "retry"⟩,
      ⟨1002, "1000-0", "operator", "retry"⟩] archivedSale_unrecorded
    have hmade : (Runs.run (Desk.step orderKeys) ⟨archivedSale, []⟩
        [⟨1001, "1000", "operator", "retry"⟩, ⟨1002, "1000-0", "operator", "retry"⟩]).made =
        [(⟨1000, 0⟩, ⟨1001, 0⟩), (⟨1000, 0⟩, ⟨1002, 0⟩)] := by decide +kernel
    have hsame := hone ⟨1000, 0⟩ ⟨1001, 0⟩ ⟨1002, 0⟩ (by rw [hmade]; simp) (by rw [hmade]; simp)
    exact absurd hsame (by decide)
  · intro hall
    have hanswers := (hall archivedSale [⟨1001, "1000-0", "operator", "retry"⟩,
      ⟨1002, "1000-0:operator", "operator", "retry"⟩] archivedSale_unrecorded).2.1
    obtain ⟨l, -, hselects, -⟩ := hanswers "operator" (by decide +kernel)
    have hnone : selects orderKeys (Desk.step orderKeys ⟨archivedSale, []⟩
        ⟨1001, "1000-0", "operator", "retry"⟩).redis "1000-0:operator" = [] := by decide +kernel
    rw [hnone] at hselects
    cases hselects

end CampusHub.OrderFlow
