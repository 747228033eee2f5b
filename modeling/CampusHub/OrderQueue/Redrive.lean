import CampusHub.OrderQueue.Scripts

/-!
# What a redrive of the order queue does

* `PayloadFields` — the fields that a redrive reads from a dead letter.
* `Redriven` — the writes of a redrive, key by key.
* `redrive_outcome` — a call with any arguments answers what is recorded, is refused, or redrives a
  dead letter; `redrive_cases` — so it redrives a dead letter or changes nothing.

A redrive is called by an operator with a text for the id and two labels. `redrive_outcome` says what any
such call comes to: the answer that is recorded under its first argument, a refusal, or a new entry with the
fields of the one dead letter that the first argument selects. It selects with `XRANGE`, which also accepts
the first half of an id, and the call is recorded under the text as it was given; this is why the results of
`OrderFlow` speak of redrives that name their letter in full.

**Proof route.** The checks are inverted once; the record that the script reads and the ones that it writes
share a hash, so the fields of ids and of labels are told apart by the colon that no id has.

**Left out.** Who may call the script.
-/

namespace CampusHub.OrderQueue

open CampusHub.Redis CampusHub.Foundations.Guards CampusHub.Foundations.Lua
open CampusHub.Foundations.Decimal CampusHub.Foundations.Json CampusHub.Foundations.Maps
open CampusHub.Domain

variable {κ : Type}

/-- The fields of the new entry, as the script reads them from the fields of a dead letter. -/
def PayloadFields (letter fields : Fields) : Prop :=
  ∃ payload values data id userId voucherId, letter.reverse.lookup "payload" = some payload ∧
    decodeStrings payload = some values ∧ payloadIds values = some data ∧
    data.lookup "id" = some id ∧ data.lookup "userId" = some userId ∧
    data.lookup "voucherId" = some voucherId ∧
    fields = [("id", id), ("userId", userId), ("voucherId", voucherId)]

/-- **A redrive.** A dead letter that is the only one under the text given, and has no redrive
recorded under that text, is put back into the queue, and the new entry is recorded under the text. -/
structure Redriven (K : QueueKeys κ) (now : ℕ) (deadId : String) (letter : StreamId × Fields)
    (fields : Fields) (newId : StreamId) (ks ks' : Keyspace κ) : Prop where
  prior : ks.hget K.redrives deadId = none
  selected : (ks.stream K.dead).xrange deadId = some [letter]
  payload : PayloadFields letter.2 fields
  source : ∃ s, (ks.stream K.source).append now fields = some (newId, s) ∧
    ks' K.source = some ⟨.stream s, ks.ttl K.source⟩
  redrives : Typed ks' K.redrives .hash
  marks : ∀ i : StreamId, ks'.hget K.redrives i.render =
    if i.render = deadId then some newId.render else ks.hget K.redrives i.render
  ttl : ∀ k, ks'.ttl k = ks.ttl k
  frame : ∀ k, k ≠ K.source → k ≠ K.redrives → ks' k = ks k

/-- The dead letter is one of the stream. -/
theorem Redriven.mem {K : QueueKeys κ} {now : ℕ} {deadId : String} {letter : StreamId × Fields}
    {fields : Fields} {newId : StreamId} {ks ks' : Keyspace κ}
    (h : Redriven K now deadId letter fields newId ks ks') :
    (ks.stream K.dead).lookup letter.1 = some letter.2 := by
  have hsel := h.selected
  simp only [EventStream.xrange, Option.map_eq_some_iff] at hsel
  obtain ⟨⟨a, b⟩, -, hrange⟩ := hsel
  have hmem : letter ∈ (ks.stream K.dead).range a b := by
    rw [hrange]
    exact List.mem_singleton_self letter
  exact EventStream.lookup_eq_some.mpr (EventStream.mem_range.mp hmem).1

/-- The id of an entry has no colon in it. -/
theorem colon_notMem_render (i : StreamId) : ':' ∉ i.render.toList := by
  rw [StreamId.toList_render, List.mem_append, List.mem_cons]
  rintro (hd | hd | hd)
  · exact not_mem_decimal (by decide) _ hd
  · exact absurd hd (by decide)
  · exact not_mem_decimal (by decide) _ hd

/-- The id of an entry is no text with a colon in it. -/
theorem render_ne_append (i : StreamId) (s : String) {t : String} (ht : ':' ∈ t.toList) :
    i.render ≠ s ++ t := by
  intro h
  refine colon_notMem_render i ?_
  rw [h, String.toList_append]
  exact List.mem_append_right _ ht

/-- The id of an entry is no field of the index of the orders. -/
theorem render_ne_order (i : StreamId) (s : String) : i.render ≠ "order:" ++ s := by
  intro h
  refine colon_notMem_render i ?_
  rw [h, String.toList_append]
  exact List.mem_append_left _ (by decide)

variable [DecidableEq κ]

/-- A call of the script. Source: `redrive-order.lua` 2–3. -/
def QueueKeys.redrive (K : QueueKeys κ) (now : ℕ) (ks : Keyspace κ)
    (deadId operator reason : String) : Outcome String × Keyspace κ :=
  Plan.run now (redriveOrder now ks [K.source, K.dead, K.redrives] [deadId, operator, reason]) ks

omit [DecidableEq κ] in
/-- A call with valid labels answers before its writes only what is recorded under its first
argument. -/
theorem redrive_early (K : QueueKeys κ) (now : ℕ) (ks : Keyspace κ)
    (deadId operator reason : String) :
    Raises (fun e => ∀ text, e = .answer text → ks.hget K.redrives deadId = some text ∧
        isAuditLabel operator = true ∧ isAuditLabel reason = true)
      (redriveOrder now ks [K.source, K.dead, K.redrives] [deadId, operator, reason]) := by
  unfold redriveOrder
  simp only [raises_ensure_bind, raises_getOr_bind, raises_absentOr_bind, raises_ok, errorReply,
    reduceCtorEq, false_imp_iff, implies_true, true_and, and_true, Outcome.answer.injEq]
  rintro - - - hoperator hreason prior hprior text rfl
  exact ⟨hprior, hoperator, hreason⟩

/-- **A call that comes to its writes** redrives a dead letter. -/
theorem redriven_of_plan {K : QueueKeys κ} {now : ℕ} {ks : Keyspace κ}
    {deadId operator reason : String} {p : List (Command κ) × String}
    (hplan : redriveOrder now ks [K.source, K.dead, K.redrives] [deadId, operator, reason] = .ok p) :
    let r := K.redrive now ks deadId operator reason
    ∃ letter fields newId, r.1 = .answer newId.render ∧
      (isAuditLabel operator = true ∧ isAuditLabel reason = true) ∧
      Redriven K now deadId letter fields newId ks r.2 := by
  intro r
  have h := hplan
  unfold redriveOrder at h
  simp only [ensure_bind_eq_ok, getOr_bind_eq_ok, absentOr_bind_eq_ok] at h
  obtain ⟨hsource, hdead, hredrives, hoperator, hreason, hprior, letters, hletters, letter, hletter, hlength,
    payload, hpayload, values, hvalues, data, hdata, id, hid, userId, huser, voucherId, hvoucher,
    newId, hnext, hp⟩ := h
  obtain ⟨-, -, -, hsr, -, -, -, -, hdr, -⟩ := K.ne
  obtain ⟨⟨newId', s⟩, happend⟩ : ∃ e, (ks.stream K.source).append now
      [("id", id), ("userId", userId), ("voucherId", voucherId)] = some e :=
    Option.isSome_iff_exists.mp (by rw [EventStream.append_isSome, hnext]; rfl)
  obtain rfl : newId' = newId :=
    Option.some.inj ((EventStream.next_of_append happend).symm.trans hnext)
  have hadd := apply_xadd hsource happend
  set ks1 := ks.put K.source (.stream s)
  have hslot : ks1 K.redrives = ks K.redrives := Keyspace.put_of_ne _ _ hsr.symm
  set marks : Fields := [(deadId, newId'.render), (deadId ++ ":operator", operator),
    (deadId ++ ":reason", reason), (deadId ++ ":at", decimal (now / 1000))]
  have hset : apply now ks1 (.hset K.redrives marks) =
      .ok (ks1.put K.redrives (.hash (writeFields (ks1.fields K.redrives) marks))) :=
    apply_hset ((typed_congr hslot).mpr hredrives)
  set ks2 := ks1.put K.redrives (.hash (writeFields (ks1.fields K.redrives) marks))
  have hrun : r = (.answer newId'.render, ks2) := by
    show Plan.run now _ ks = _
    rw [hplan, ← Except.ok.inj hp]
    simp only [Plan.run, exec_cons hadd, exec_cons hset, exec_nil]
  suffices hred : Redriven K now deadId letter
      [("id", id), ("userId", userId), ("voucherId", voucherId)] newId' ks ks2 by
    rw [hrun]
    exact ⟨letter, _, newId', rfl, ⟨hoperator, hreason⟩, hred⟩
  refine ⟨hprior, ?_, ⟨payload, values, data, id, userId, voucherId, hpayload, hvalues, hdata, hid,
    huser, hvoucher, rfl⟩, ⟨s, happend, ?_⟩, typed_put rfl, fun i => ?_, fun k => ?_,
    fun k hk hk' => ?_⟩
  · obtain ⟨l, rfl⟩ := List.length_eq_one_iff.mp hlength
    obtain rfl := Option.some.inj hletter
    exact hletters
  · rw [show ks2 K.source = ks1 K.source from Keyspace.put_of_ne _ _ hsr]
    exact Keyspace.put_self ..
  · have hat : i.render ≠ deadId ++ ":at" := render_ne_append i deadId (by decide)
    have hreason : i.render ≠ deadId ++ ":reason" := render_ne_append i deadId (by decide)
    have hoperator : i.render ≠ deadId ++ ":operator" := render_ne_append i deadId (by decide)
    have hfields : ks1.fields K.redrives = ks.fields K.redrives := Keyspace.fields_congr hslot
    rw [hget_put, hfields]
    simp only [marks, writeFields, List.foldl_cons, List.foldl_nil, lookup_insert_eq]
    rw [if_neg hat, if_neg hreason, if_neg hoperator, Keyspace.hget]
  · rw [Keyspace.ttl_put, Keyspace.ttl_put]
  · rw [show ks2 k = ks1 k from Keyspace.put_of_ne _ _ hk']
    exact Keyspace.put_of_ne _ _ hk

/-- **The outcome of a call**, whatever its arguments: what is recorded under the first, a refusal, or
a redrive. -/
theorem redrive_outcome (K : QueueKeys κ) (now : ℕ) (ks : Keyspace κ)
    (deadId operator reason : String) :
    let r := K.redrive now ks deadId operator reason
    (∃ text, r = (.answer text, ks) ∧ ks.hget K.redrives deadId = some text ∧
      isAuditLabel operator = true ∧ isAuditLabel reason = true) ∨
    (∃ e, r = (.raised e, ks)) ∨
    ∃ letter fields newId, r.1 = .answer newId.render ∧
      (isAuditLabel operator = true ∧ isAuditLabel reason = true) ∧
      Redriven K now deadId letter fields newId ks r.2 := by
  intro r
  cases hplan : redriveOrder now ks [K.source, K.dead, K.redrives] [deadId, operator, reason] with
  | error o =>
    have hrun : r = (o, ks) := by
      show Plan.run now _ ks = _
      rw [hplan]
      rfl
    cases o with
    | answer text =>
      exact .inl ⟨text, hrun, redrive_early K now ks deadId operator reason _ hplan text rfl⟩
    | raised e => exact .inr (.inl ⟨e, hrun⟩)
  | ok p => exact .inr (.inr (redriven_of_plan hplan))

/-- **What a call can do**, whatever its arguments. -/
theorem redrive_cases (K : QueueKeys κ) (now : ℕ) (ks : Keyspace κ)
    (deadId operator reason : String) :
    let r := Plan.run now (redriveOrder now ks [K.source, K.dead, K.redrives]
      [deadId, operator, reason]) ks
    r.2 = ks ∨ ∃ letter fields newId, r.1 = .answer newId.render ∧
      (isAuditLabel operator = true ∧ isAuditLabel reason = true) ∧
      Redriven K now deadId letter fields newId ks r.2 := by
  intro r
  rcases redrive_outcome K now ks deadId operator reason with ⟨text, hr, -⟩ | ⟨e, hr⟩ | hredriven
  · exact .inl (congrArg Prod.snd hr)
  · exact .inl (congrArg Prod.snd hr)
  · exact .inr hredriven

end CampusHub.OrderQueue
