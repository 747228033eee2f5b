import CampusHub.Foundations.Custody
import CampusHub.OrderFlow.Stock

/-!
# Custody of the accepted orders

* `custody` — the order flow as a queue of orders with letters for review.
* `Filing` — what is recorded for entries, orders and dead letters.
* `NamesLetter` — a redrive is called with the id of its dead letter.
* `Move.custody` — every move is a step of the custody, which notes each redrive that names its letter.
* `accepted_order_covered` — no accepted order is lost.

**Theorem** (`accepted_order_covered`). In every world that a run with fresh order ids reaches, an accepted
order has its row, or an entry with it is live, or a dead letter of it is recorded under its id and no
redrive of that letter is. A redrive may be called with any arguments here; what it needs to name its letter
for is that the order is in one place only, see `OrderFlow.Status`.

**Proof route.** `custody` reads the world as a queue of messages in the sense of `Foundations.Custody`, and
`Move.custody` shows that every move is one of the steps that are allowed there. What this takes is a
bookkeeping of the records in Redis (`Filing`): an entry that is not acknowledged has no letter, the letter
of an entry is found under its id, and the index has the letter that an order was archived in last.

**Left out.** That an entry is handled after some time: workers need not come.
-/

namespace CampusHub.OrderFlow

open CampusHub.Redis CampusHub.Foundations CampusHub.Foundations.Guards CampusHub.Foundations.Maps
open CampusHub.Foundations.Json CampusHub.Domain CampusHub.FlashSale.Initialization
open CampusHub.FlashSale.Admission CampusHub.OrderQueue

/-! ## The abstraction -/

/-- The order of a dead letter. -/
def letterContent (fields : Fields) : Option VoucherOrder := do
  let payload ← (writeFields ∅ fields).lookup "payload"
  let values ← decodeStrings payload
  let pairs ← pairsOf values
  (decode pairs).toOption

/-- The entry is not delivered yet, or pending. -/
def World.Live (w : World) (id : StreamId) : Prop :=
  (w.redis.stream .orders).Live consumerGroup id

instance (w : World) (id : StreamId) : Decidable (w.Live id) :=
  inferInstanceAs (Decidable ((w.redis.stream .orders).Live consumerGroup id))

/-- **The order flow as custody of the accepted orders.** -/
def custody (w : World) : Custody VoucherOrder StreamId StreamId where
  accepted := {o | w.Accepted o}
  done := {o | Persisted w.db o}
  queued i :=
    if w.Live i then ((w.redis.stream .orders).lookup i).bind fun fields => (decode fields).toOption
    else none
  filed l := ((w.redis.stream .dead).lookup l).bind letterContent
  index o l := w.redis.hget .failures ("order:" ++ o.id.text) = some l.render ∧
    ((w.redis.stream .dead).lookup l).bind letterContent = some o
  replayed := {l | w.redis.hget .redrives l.render ≠ none}

/-- **What is recorded.** No dead letter for an entry that is not acknowledged, no redrive for a letter
that is not there, and for an order none but its letters. -/
structure Filing (w : World) : Prop where
  unfiled : ∀ id, (w.redis.stream .orders).Unacked consumerGroup id →
    w.redis.hget .failures id.render = none
  marked : ∀ l : StreamId, w.redis.hget .redrives l.render ≠ none →
    ((w.redis.stream .dead).lookup l).isSome
  indexed : ∀ (i : LongId) (text : String), w.redis.hget .failures ("order:" ++ i.text) = some text →
    ∃ (l : StreamId) (fields : Fields) (o : VoucherOrder), text = l.render ∧
      (w.redis.stream .dead).lookup l = some fields ∧ LetterOf o fields ∧ o.id = i

/-- A redrive with valid labels that selects a dead letter is called with its id. -/
def NamesLetter (w : World) : Act → Prop
  | .redrive deadId operator reason => isAuditLabel operator = true → isAuditLabel reason = true →
      ∀ letter, (w.redis.stream .dead).xrange deadId = some [letter] → deadId = letter.1.render
  | _ => True

section content

/-- The payload of a dead letter of an order is read as the order. -/
theorem content_of_letterOf {o : VoucherOrder} {fields : Fields} (h : LetterOf o fields) :
    ∃ payload values pairs, (writeFields ∅ fields).lookup "payload" = some payload ∧
      decodeStrings payload = some values ∧ pairsOf values = some pairs ∧ decode pairs = .ok o := by
  obtain ⟨payload, hevent, -, hpayload⟩ := payload_of_letterOf h
  refine ⟨_, _, payload, hpayload, decodeStrings_payloadOf hevent, ?_, carries_of_eventOf hevent⟩
  rcases hevent with rfl | rfl
  · simp [pairsOf, admittedFields]
  · simp [pairsOf, redrivenFields]

/-- A dead letter of an order has the order for its content. -/
theorem letterContent_of_letterOf {o : VoucherOrder} {fields : Fields} (h : LetterOf o fields) :
    letterContent fields = some o := by
  obtain ⟨payload, values, pairs, hpayload, hvalues, hpairs, hdecode⟩ := content_of_letterOf h
  simp only [letterContent, hpayload, hvalues, hpairs, hdecode, bind, Option.bind]
  rfl

/-- The index field of the order of an event. -/
theorem indexes_eventOf {o : VoucherOrder} {payload : Fields} (h : EventOf o payload) (f : String) :
    Indexes payload f ↔ f = "order:" ++ o.id.text := by
  unfold Indexes
  rcases h with rfl | rfl
  · simp [admittedFields]
  · simp [redrivenFields]

variable {w w' : World}

/-- A live entry with an event of an order holds the order. -/
theorem queued_eq {id : StreamId} {o : VoucherOrder} (hlive : w.Live id)
    (ho : Carried w.redis id o) : (custody w).queued id = some o := by
  obtain ⟨fields, hfields, hcarries⟩ := ho
  have hdecode : decode fields = .ok o := hcarries
  show (if w.Live id then _ else none) = _
  rw [if_pos hlive, hfields, Option.bind_some, hdecode]
  rfl

/-- What holds an order is a live entry with it. -/
theorem carried_of_queued {id : StreamId} {o : VoucherOrder}
    (h : (custody w).queued id = some o) : w.Live id ∧ Carried w.redis id o := by
  replace h : (if w.Live id then ((w.redis.stream .orders).lookup id).bind
    fun fields => (decode fields).toOption else none) = some o := h
  split at h
  · rename_i hlive
    refine ⟨hlive, ?_⟩
    obtain ⟨fields, hfields, hdecode⟩ := Option.bind_eq_some_iff.mp h
    refine ⟨fields, hfields, ?_⟩
    cases hd : decode fields with
    | error e =>
      rw [hd] at hdecode
      cases hdecode
    | ok o' =>
      rw [hd] at hdecode
      rw [Carries, hd, Option.some.inj hdecode]
  · cases h

end content

/-! ## What a move does to the queue -/

/-- The three keys where letters and redrives are recorded are as before. -/
def SameRecords (w w' : World) : Prop :=
  w'.redis .dead = w.redis .dead ∧ w'.redis .failures = w.redis .failures ∧
    w'.redis .redrives = w.redis .redrives

/-- **What a move does to the queue.** -/
inductive Traffic (a : Act) (w w' : World) : Prop
  | rest (hentries : ∀ i, (w'.redis.stream .orders).lookup i = (w.redis.stream .orders).lookup i)
      (hlive : ∀ i, w'.Live i ↔ w.Live i)
      (hunacked : ∀ i, (w'.redis.stream .orders).Unacked consumerGroup i →
        (w.redis.stream .orders).Unacked consumerGroup i)
      (hpending : ∀ i, ((w.redis.stream .orders).pendingOf consumerGroup i).isSome →
        ((w'.redis.stream .orders).pendingOf consumerGroup i).isSome)
      (hrecords : SameRecords w w') (haccepted : w'.accepted = w.accepted)
  | admitVoucher {o : VoucherOrder} {appended : Bool} {newId : StreamId} {fields : Fields} {s : EventStream}
      (hact : a = .admitVoucher o.voucherId o.userId o.id appended) (hevent : EventOf o fields)
      (happend : (w.redis.stream .orders).append w.now fields = some (newId, s))
      (hstream : w'.redis.stream .orders = s) (hrecords : SameRecords w w') (hdb : w'.db = w.db)
      (haccepted : w'.Accepted o)
  | acknowledge {id : StreamId} {o : VoucherOrder} {p : Pending}
      (hpending : (w.redis.stream .orders).pendingOf consumerGroup id = some p)
      (hcarried : Carried w.redis id o) (hpersisted : Persisted w.db o)
      (hstream : w'.redis.stream .orders = (w.redis.stream .orders).ack consumerGroup id)
      (hrecords : SameRecords w w') (hdb : w'.db = w.db) (haccepted : w'.accepted = w.accepted)
  | archive {id letterId : StreamId} {o : VoucherOrder} {p : Pending} {payload letter : Fields}
      {s : EventStream}
      (hpending : (w.redis.stream .orders).pendingOf consumerGroup id = some p)
      (hpayload : (w.redis.stream .orders).lookup id = some payload) (hevent : EventOf o payload)
      (hstream : w'.redis.stream .orders = (w.redis.stream .orders).ack consumerGroup id)
      (happend : (w.redis.stream .dead).append w.now letter = some (letterId, s))
      (hletter : LetterOf o letter) (hdead : w'.redis.stream .dead = s)
      (hfailures : ∀ f, w'.redis.hget .failures f =
        if f = id.render ∨ f = "order:" ++ o.id.text then some letterId.render
        else w.redis.hget .failures f)
      (hredrives : w'.redis .redrives = w.redis .redrives) (hdb : w'.db = w.db)
      (haccepted : w'.accepted = w.accepted)
  | redrive {deadId operator reason : String} {letterId newId : StreamId} {o : VoucherOrder}
      {fields letter : Fields} {s : EventStream}
      (hact : a = .redrive deadId operator reason)
      (hlabels : isAuditLabel operator = true ∧ isAuditLabel reason = true)
      (hselected : (w.redis.stream .dead).xrange deadId = some [(letterId, letter)])
      (hprior : w.redis.hget .redrives deadId = none)
      (hmem : (w.redis.stream .dead).lookup letterId = some letter) (hletter : LetterOf o letter)
      (hevent : EventOf o fields)
      (happend : (w.redis.stream .orders).append w.now fields = some (newId, s))
      (hstream : w'.redis.stream .orders = s) (hdead : w'.redis .dead = w.redis .dead)
      (hfailures : w'.redis .failures = w.redis .failures)
      (hmarks : ∀ l : StreamId, w'.redis.hget .redrives l.render =
        if l.render = deadId then some newId.render else w.redis.hget .redrives l.render)
      (hdb : w'.db = w.db) (haccepted : w'.accepted = w.accepted)

section traffic

variable {c : Config} {w w' : World} {a : Act}

/-- A move that leaves the keys of the queue as they are. -/
theorem Traffic.quiet (hkeys : ∀ k, QueueKey k → k ≠ .attempts → w'.redis k = w.redis k)
    (haccepted : w'.accepted = w.accepted) : Traffic a w w' := by
  have hstream : w'.redis.stream .orders = w.redis.stream .orders :=
    Keyspace.stream_congr (hkeys .orders trivial (by decide))
  refine .rest (fun i => by rw [hstream]) (fun i => by rw [World.Live, World.Live, hstream])
    (fun i hi => by rwa [hstream] at hi) (fun i hi => by rwa [hstream])
    ⟨hkeys .dead trivial (by decide), hkeys .failures trivial (by decide),
      hkeys .redrives trivial (by decide)⟩ haccepted

/-- **What a move does to the queue.** -/
theorem Move.traffic (h : WorldInv c w) (hf : Filing w) (m : Move c w a w') : Traffic a w w' := by
  cases m with
  | quiet _ _ _ _ => exact .quiet (fun _ _ _ => rfl) rfl
  | expire d => exact .quiet (fun k hk _ => h.ready.purge _ hk) rfl
  | publish _ _ _ hinit =>
    exact .quiet (fun k hk _ => hinit.frame k (queueKey_ne_activity hk _).1) rfl
  | @admitVoucher v u o n x ks appended hadmitted hact =>
    obtain ⟨newId, s, happend, hslot⟩ := admitted_source hadmitted
    refine .admitVoucher (o := ⟨o, u, v⟩) hact (.inl rfl) happend (stream_of_slot hslot)
      ⟨admitted_frame hadmitted (k := .dead) trivial (by decide),
        admitted_frame hadmitted (k := .failures) trivial (by decide),
        admitted_frame hadmitted (k := .redrives) trivial (by decide)⟩ rfl ?_
    show (Function.update w.accepted v ((w.accepted v).insert u o) v).lookup u = some o
    rw [Function.update_self, Finmap.lookup_insert]
  | @deliver s _ hentries _ hunacked hlive _ hpending =>
    have hput : ∀ k, k ≠ .orders → w.redis.put .orders (.stream s) k = w.redis k :=
      fun k hk => Keyspace.put_of_ne _ _ hk
    refine .rest (fun i => ?_) (fun i => ?_) (fun i hi => ?_) (fun i hi => ?_)
      ⟨hput .dead (by decide), hput .failures (by decide), hput .redrives (by decide)⟩ rfl
    · rw [stream_put, EventStream.lookup_congr hentries]
    · rw [World.Live, stream_put]
      exact hlive i
    · rw [stream_put] at hi
      exact hunacked i hi
    · rw [stream_put]
      exact hpending i hi
  | count _ _ _ => exact .quiet (fun k _ hk => Keyspace.put_of_ne _ _ hk) rfl
  | @acknowledge id n consumer order ks jobs hheld hcarried hpersisted hack _ =>
    obtain ⟨p, hp, -⟩ := hheld.owned
    exact .acknowledge hp hcarried hpersisted hack.stream
      ⟨hack.frame _ (by decide) (by decide), hack.frame _ (by decide) (by decide),
        hack.frame _ (by decide) (by decide)⟩ rfl rfl
  | @archive id n consumer errorClass letter payload ks₁ ks jobs hheld hpayload harchived hack _ =>
    obtain ⟨p, hp, -⟩ := hheld.owned
    have hp' : (w.redis.stream .orders).pendingOf consumerGroup id = some p := hp
    obtain ⟨o, -, hevent⟩ := h.traced.entry id payload hpayload
    have hnone := hf.unfiled id (EventStream.unacked_of_pendingOf hp')
    obtain ⟨horders, -, hredrives⟩ := archived_source harchived
    have hstream : ks.stream .orders = (w.redis.stream .orders).ack consumerGroup id := by
      rw [← Keyspace.stream_congr horders]
      exact hack.stream
    have hdead : ks .dead = ks₁ .dead := hack.frame _ (by decide) (by decide)
    have hfailures : ks .failures = ks₁ .failures := hack.frame _ (by decide) (by decide)
    have hmarks : ks .redrives = ks₁ .redrives := hack.frame _ (by decide) (by decide)
    rcases harchived.lettered with ⟨-, letterId, s, rfl, happend, hslot⟩ | ⟨hsome, -, -⟩
    · refine .archive hp' hpayload hevent hstream happend ⟨_, _, _, _, _, _, payload, hevent, rfl⟩
        ?_ (fun f => ?_) (hmarks.trans hredrives) rfl rfl
      · show ks.stream .dead = s
        rw [Keyspace.stream_congr hdead]
        exact stream_of_slot hslot
      · have hindex : ks₁.hget .failures f = _ := harchived.index f
        show ks.hget .failures f = _
        rw [Keyspace.hget_congr hfailures, hindex]
        simp only [indexes_eventOf hevent]
        rfl
    · have hsome' : w.redis.hget .failures id.render = some letter := hsome
      rw [hnone] at hsome'
      cases hsome'
  | persist _ _ _ _ _ _ _ _ _ => exact .quiet (fun _ _ _ => rfl) rfl
  | cancel _ => exact .quiet (fun _ _ _ => rfl) rfl
  | release _ _ hdone =>
    refine .quiet (fun k hk _ => ?_) rfl
    obtain ⟨-, hstock, hmarks⟩ := queueKey_ne_activity hk _
    exact hdone.frame k hstock hmarks
  | @redrive deadId operator reason letter fields newId ks hredriven hact hlabels =>
    obtain ⟨o, -, hletter⟩ := h.traced.letter letter.1 letter.2 hredriven.mem
    obtain rfl := redriven_of_letterOf hletter hredriven.payload
    obtain ⟨s, happend, hslot⟩ := hredriven.source
    exact .redrive hact hlabels hredriven.selected hredriven.prior hredriven.mem hletter (.inr rfl)
      happend (stream_of_slot hslot) (hredriven.frame _ (by decide) (by decide))
      (hredriven.frame _ (by decide) (by decide)) hredriven.marks rfl rfl

/-- The records stay as they are, and no entry comes back. -/
theorem Filing.congr (h : Filing w) (hrecords : SameRecords w w')
    (hunacked : ∀ i, (w'.redis.stream .orders).Unacked consumerGroup i →
      (w.redis.stream .orders).Unacked consumerGroup i) : Filing w' where
  unfiled id hid := by
    rw [Keyspace.hget_congr hrecords.2.1]
    exact h.unfiled id (hunacked id hid)
  marked l hl := by
    rw [Keyspace.hget_congr hrecords.2.2] at hl
    rw [Keyspace.stream_congr hrecords.1]
    exact h.marked l hl
  indexed i text htext := by
    rw [Keyspace.hget_congr hrecords.2.1] at htext
    rw [Keyspace.stream_congr hrecords.1]
    exact h.indexed i text htext

/-- An event that is appended is new, so what is not acknowledged was not before. -/
theorem unacked_of_append {id i : StreamId} {fields : Fields} {s t : EventStream} {now : ℕ}
    (happend : s.append now fields = some (id, t)) (hi : t.Unacked consumerGroup i) :
    s.Unacked consumerGroup i :=
  (EventStream.unacked_congr (EventStream.append_eq_some happend).2.2.2).mp hi

/-- **Every move keeps the records.** -/
theorem Filing.traffic (h : Filing w) (ht : Traffic a w w') : Filing w' := by
  cases ht with
  | rest _ _ hunacked _ hrecords _ => exact h.congr hrecords hunacked
  | admitVoucher _ _ happend hstream hrecords _ _ =>
    exact h.congr hrecords fun i hi => unacked_of_append happend (hstream ▸ hi)
  | acknowledge hpending _ _ hstream hrecords _ _ =>
    refine h.congr hrecords fun i hi => ?_
    rw [hstream] at hi
    exact (EventStream.unacked_of_ack hpending hi).1
  | @archive id letterId o p payload letter s hpending hpayload hevent hstream happend hletter hdead
      hfailures hredrives _ _ =>
    refine ⟨fun i hi => ?_, fun l hl => ?_, fun i text htext => ?_⟩
    · rw [hstream] at hi
      obtain ⟨hold, hne⟩ := EventStream.unacked_of_ack hpending hi
      rw [hfailures, if_neg, h.unfiled i hold]
      rintro (heq | heq)
      · exact hne (StreamId.render_inj.mp heq)
      · exact render_ne_order i _ heq
    · rw [Keyspace.hget_congr hredrives] at hl
      obtain ⟨fields, hfields⟩ := Option.isSome_iff_exists.mp (h.marked l hl)
      rw [hdead, EventStream.lookup_append_of_some happend hfields]
      rfl
    · rw [hfailures] at htext
      split at htext
      · rename_i hindex
        rcases hindex with heq | heq
        · exact absurd heq.symm (render_ne_order id _)
        · refine ⟨letterId, letter, o, (Option.some.inj htext).symm, ?_, hletter, ?_⟩
          · rw [hdead, EventStream.lookup_append happend, if_pos rfl]
          · rw [← LongId.text_inj, ← (String.append_right_inj "order:").mp heq]
      · obtain ⟨l, fields, o', rfl, hfields, hrest⟩ := h.indexed i text htext
        refine ⟨l, fields, o', rfl, ?_, hrest⟩
        rw [hdead, EventStream.lookup_append_of_some happend hfields]
  | @redrive deadId operator reason letterId newId o fields letter s hact hlabels hselected hprior hmem
      hletter hevent happend hstream hdead hfailures hmarks _ _ =>
    refine ⟨fun i hi => ?_, fun l hl => ?_, fun i text htext => ?_⟩
    · rw [Keyspace.hget_congr hfailures]
      rw [hstream] at hi
      exact h.unfiled i (unacked_of_append happend hi)
    · rw [Keyspace.stream_congr hdead]
      rw [hmarks] at hl
      split at hl
      · rename_i heq
        rw [← heq] at hselected
        rw [(EventStream.eq_of_xrange_render hselected).2]
        rfl
      · exact h.marked l hl
    · rw [Keyspace.hget_congr hfailures] at htext
      rw [Keyspace.stream_congr hdead]
      exact h.indexed i text htext

/-- Nothing is recorded in the first world. -/
theorem filing_initial (c : Config) (now clock : ℕ) : Filing (initial c now clock) where
  unfiled _ _ := rfl
  marked _ hl := absurd rfl hl
  indexed _ _ htext := by cases htext

end traffic

/-! ## Moves are steps of the custody -/

section steps

variable {c : Config} {w w' : World} {a : Act}

/-- A new entry of an order. -/
theorem queued_append (hcreated : ∃ g, (w.redis.stream .orders).groups.lookup consumerGroup = some g)
    {now : ℕ} {fields : Fields} {newId : StreamId} {s : EventStream} {o : VoucherOrder}
    (happend : (w.redis.stream .orders).append now fields = some (newId, s))
    (hstream : w'.redis.stream .orders = s) (hevent : EventOf o fields) :
    (custody w).queued newId = none ∧
      (custody w').queued = Function.update (custody w).queued newId (some o) := by
  obtain ⟨g, hg⟩ := hcreated
  have hnone : (custody w).queued newId = none := by
    show (if w.Live newId then _ else none) = none
    rw [EventStream.lookup_of_append_self happend]
    exact ite_self none
  refine ⟨hnone, funext fun i => ?_⟩
  have hlive : w'.Live i ↔ i = newId ∨ w.Live i := by
    rw [World.Live, hstream]
    exact EventStream.live_append happend hg i
  have hlookup : (w'.redis.stream .orders).lookup i =
      if i = newId then some fields else (w.redis.stream .orders).lookup i := by
    rw [hstream, EventStream.lookup_append happend]
  by_cases hi : i = newId
  · subst hi
    rw [Function.update_self]
    exact queued_eq (hlive.mpr (.inl rfl)) ⟨fields, by rw [hlookup, if_pos rfl],
      carries_of_eventOf hevent⟩
  · rw [Function.update_of_ne hi]
    show (if w'.Live i then _ else none) = (if w.Live i then _ else none)
    simp only [hlive, hlookup, hi, false_or, if_false]

/-- An entry is acknowledged. -/
theorem queued_ack {id : StreamId} {p : Pending}
    (hpending : (w.redis.stream .orders).pendingOf consumerGroup id = some p)
    (hstream : w'.redis.stream .orders = (w.redis.stream .orders).ack consumerGroup id) :
    (custody w').queued = Function.update (custody w).queued id none := by
  funext i
  have hlive : w'.Live i ↔ w.Live i ∧ i ≠ id := by
    rw [World.Live, hstream]
    exact EventStream.live_ack hpending i
  have hlookup : (w'.redis.stream .orders).lookup i = (w.redis.stream .orders).lookup i := by
    rw [hstream, EventStream.lookup_congr EventStream.ack_entries]
  show (if w'.Live i then _ else none) = _
  by_cases hi : i = id
  · subst hi
    rw [Function.update_self, if_neg]
    exact fun hl => (hlive.mp hl).2 rfl
  · rw [Function.update_of_ne hi]
    show _ = (if w.Live i then _ else none)
    simp only [hlive, hlookup, hi, ne_eq, not_false_iff, and_true]

/-- What is accepted after a move that admits nothing. -/
theorem custody_accepted (haccepted : w'.accepted = w.accepted) :
    (custody w').accepted = (custody w).accepted := by
  ext o
  show (w'.accepted _).lookup _ = _ ↔ _
  rw [haccepted]
  rfl

/-- What is done is read off the rows. -/
theorem custody_done (hdb : w'.db = w.db) : (custody w').done = (custody w).done := by
  ext o
  show Persisted w'.db o ↔ _
  rw [hdb]
  rfl

/-- The letters after a move that leaves the records as they are. -/
theorem custody_records (hrecords : SameRecords w w') :
    (custody w').filed = (custody w).filed ∧ (custody w').index = (custody w).index ∧
      (custody w').replayed = (custody w).replayed := by
  obtain ⟨hdead, hfailures, hredrives⟩ := hrecords
  refine ⟨?_, ?_, ?_⟩
  · simp only [custody, Keyspace.stream_congr hdead]
  · simp only [custody, Keyspace.stream_congr hdead, Keyspace.hget_congr hfailures]
  · simp only [custody, Keyspace.hget_congr hredrives]

/-- A pending entry with an order holds it. -/
theorem queued_of_pendingOf {id : StreamId} {p : Pending} {o : VoucherOrder}
    (hpending : (w.redis.stream .orders).pendingOf consumerGroup id = some p)
    (ho : Carried w.redis id o) : (custody w).queued id = some o :=
  queued_eq (EventStream.live_of_pendingOf hpending) ho

/-- A dead letter is of an accepted order. -/
theorem WorldInv.accepted_of_filed (h : WorldInv c w) {l : StreamId} {o : VoucherOrder}
    (ho : (custody w).filed l = some o) : w.Accepted o := by
  obtain ⟨fields, hfields, hcontent⟩ := Option.bind_eq_some_iff.mp ho
  obtain ⟨o', ho', hletter⟩ := h.traced.letter l fields hfields
  rw [letterContent_of_letterOf hletter, Option.some.injEq] at hcontent
  rwa [← hcontent]

/-- The index after an order was archived. -/
theorem index_archive {id letterId : StreamId} {o : VoucherOrder}
    (hunique : ∀ o' l, (custody w).filed l = some o' → o'.id = o.id → o' = o)
    (hfiled : (custody w').filed = Function.update (custody w).filed letterId (some o))
    (hnone : (custody w).filed letterId = none)
    (hfailures : ∀ f, w'.redis.hget .failures f =
      if f = id.render ∨ f = "order:" ++ o.id.text then some letterId.render
      else w.redis.hget .failures f) :
    (custody w').index = Function.update (custody w).index o (· = letterId) := by
  funext o' l
  refine propext ?_
  have hleft : (custody w').index o' l ↔ w'.redis.hget .failures ("order:" ++ o'.id.text) =
      some l.render ∧ (custody w').filed l = some o' := Iff.rfl
  have hright : (custody w).index o' l ↔ w.redis.hget .failures ("order:" ++ o'.id.text) =
      some l.render ∧ (custody w).filed l = some o' := Iff.rfl
  rw [hleft, hfailures, hfiled]
  by_cases hid : o'.id = o.id
  · rw [if_pos (.inr (by rw [hid])), Option.some.injEq, StreamId.render_inj]
    by_cases ho : o' = o
    · subst ho
      rw [Function.update_self]
      constructor
      · exact fun hl => hl.1.symm
      · rintro rfl
        exact ⟨rfl, Function.update_self ..⟩
    · rw [Function.update_of_ne ho, hright]
      constructor
      · rintro ⟨rfl, hl⟩
        rw [Function.update_self, Option.some.injEq] at hl
        exact absurd hl.symm ho
      · exact fun hl => absurd (hunique o' l hl.2 hid) ho
  · have ho : o' ≠ o := fun ho => hid (by rw [ho])
    rw [if_neg, Function.update_of_ne ho, hright]
    · by_cases hl : l = letterId
      · subst hl
        rw [Function.update_self, hnone, Option.some.injEq]
        exact ⟨fun hl => absurd hl.2.symm ho, fun hl => absurd hl.2 (by simp)⟩
      · rw [Function.update_of_ne hl]
    · rintro (heq | heq)
      · exact render_ne_order id _ heq.symm
      · exact hid (LongId.text_inj.mp ((String.append_right_inj "order:").mp heq))

/-- **Every move is a step of the custody**, which notes each redrive that names its letter. -/
theorem WorldInv.custody_step (h : WorldInv c w) (hd : Distinct w) (hf : Filing w)
    (m : Move c w a w') (hfresh : FreshIds w a) :
    Custody.Step (NamesLetter w a) (custody w) (custody w') := by
  have hcreated := h.ready.created
  cases m.traffic h hf with
  | rest hentries hlive _ _ hrecords haccepted =>
    obtain ⟨hfiled, hindex, hreplayed⟩ := custody_records hrecords
    have hqueued : (custody w').queued = (custody w).queued := by
      funext i
      show (if w'.Live i then _ else none) = (if w.Live i then _ else none)
      simp only [hlive, hentries]
    rw [show custody w' = { custody w with done := (custody w').done } from
      Custody.ext (custody_accepted haccepted) rfl hqueued hfiled hindex hreplayed]
    exact .rest fun o ho => m.persisted ho
  | @admitVoucher o appended newId fields s hact hevent happend hstream hrecords hdb haccepted =>
    obtain ⟨hfiled, hindex, hreplayed⟩ := custody_records hrecords
    obtain ⟨hslot, hqueued⟩ := queued_append hcreated happend hstream hevent
    have hnew : ¬ w.Accepted o := fun ho => by
      rw [hact] at hfresh
      exact hfresh (hd.drawn o ho)
    have hinsert : (custody w').accepted = insert o (custody w).accepted := by
      ext o'
      constructor
      · intro ho'
        rcases m.accepted_or_admits ho' with hold | ⟨appended', hact'⟩
        · exact .inr hold
        · rw [hact, Act.admitVoucher.injEq] at hact'
          obtain ⟨hv, hu, hi, -⟩ := hact'
          left
          cases o
          cases o'
          simp_all
      · rintro (rfl | hold)
        · exact haccepted
        · exact m.accepted h.phase hold
    rw [show custody w' = { custody w with
        accepted := insert o (custody w).accepted
        queued := Function.update (custody w).queued newId (some o) } from
      Custody.ext hinsert (custody_done hdb) hqueued hfiled hindex hreplayed]
    exact .accept hnew hslot
  | @acknowledge id o p hpending hcarried hpersisted hstream hrecords hdb haccepted =>
    obtain ⟨hfiled, hindex, hreplayed⟩ := custody_records hrecords
    rw [show custody w' = { custody w with queued := Function.update (custody w).queued id none } from
      Custody.ext (custody_accepted haccepted) (custody_done hdb) (queued_ack hpending hstream) hfiled
        hindex hreplayed]
    exact .finish (queued_of_pendingOf hpending hcarried) hpersisted
  | @archive id letterId o p payload letter s hpending hpayload hevent hstream happend hletter hdead
      hfailures hredrives hdb haccepted =>
    have hqueued := queued_of_pendingOf hpending ⟨payload, hpayload, carries_of_eventOf hevent⟩
    have hfresh : (w.redis.stream .dead).lookup letterId = none :=
      EventStream.lookup_of_append_self happend
    have hfiled : (custody w').filed = Function.update (custody w).filed letterId (some o) := by
      funext l
      show ((w'.redis.stream .dead).lookup l).bind letterContent = _
      rw [hdead, EventStream.lookup_append happend]
      by_cases hl : l = letterId
      · subst hl
        rw [if_pos rfl, Function.update_self, Option.bind_some, letterContent_of_letterOf hletter]
      · rw [if_neg hl, Function.update_of_ne hl]
        rfl
    have ho : w.Accepted o :=
      h.traced.accepted_of_carried ⟨payload, hpayload, carries_of_eventOf hevent⟩
    have hindex : (custody w').index = Function.update (custody w).index o (· = letterId) := by
      refine index_archive (fun o' l hl hid => ?_) hfiled ?_ hfailures
      · exact hd.unique o' o (h.accepted_of_filed hl) ho hid
      · show ((w.redis.stream .dead).lookup letterId).bind letterContent = none
        rw [hfresh, Option.bind_none]
    have hreplayed : (custody w').replayed = (custody w).replayed := by
      simp only [custody, Keyspace.hget_congr hredrives]
    rw [show custody w' = { custody w with
        queued := Function.update (custody w).queued id none
        filed := Function.update (custody w).filed letterId (some o)
        index := Function.update (custody w).index o (· = letterId) } from
      Custody.ext (custody_accepted haccepted) (custody_done hdb) (queued_ack hpending hstream) hfiled
        hindex hreplayed]
    refine .file hqueued ?_ ?_
    · show ((w.redis.stream .dead).lookup letterId).bind letterContent = none
      rw [hfresh, Option.bind_none]
    · intro hmem
      have hsome := hf.marked letterId hmem
      rw [hfresh] at hsome
      cases hsome
  | @redrive deadId operator reason letterId newId o fields letter s hact hlabels hselected hprior hmem
      hletter hevent happend hstream hdead hfailures hmarks hdb haccepted =>
    obtain ⟨hslot, hqueued⟩ := queued_append hcreated happend hstream hevent
    have hfiled : (custody w').filed = (custody w).filed := by
      simp only [custody, Keyspace.stream_congr hdead]
    have hindex : (custody w').index = (custody w).index := by
      simp only [custody, Keyspace.stream_congr hdead, Keyspace.hget_congr hfailures]
    have hcontent : (custody w).filed letterId = some o := by
      show ((w.redis.stream .dead).lookup letterId).bind letterContent = some o
      rw [hmem, Option.bind_some, letterContent_of_letterOf hletter]
    by_cases hnames : deadId = letterId.render
    · have hreplayed : (custody w').replayed = insert letterId (custody w).replayed := by
        ext l
        show w'.redis.hget .redrives l.render ≠ none ↔ _
        rw [hmarks, hnames]
        simp only [StreamId.render_inj]
        split
        · rename_i hl
          exact ⟨fun _ => .inl hl, fun _ => Option.some_ne_none _⟩
        · rename_i hl
          exact ⟨fun hold => .inr hold, fun hold => hold.resolve_left hl⟩
      rw [show custody w' = { custody w with
          queued := Function.update (custody w).queued newId (some o)
          replayed := insert letterId (custody w).replayed } from
        Custody.ext (custody_accepted haccepted) (custody_done hdb) hqueued hfiled hindex hreplayed]
      refine .replay hcontent (fun hold => ?_) hslot
      rw [hnames] at hprior
      exact hold hprior
    · have hreplayed : (custody w').replayed = (custody w).replayed := by
        ext l
        show w'.redis.hget .redrives l.render ≠ none ↔ w.redis.hget .redrives l.render ≠ none
        rw [hmarks, if_neg]
        intro hl
        rw [← hl] at hselected
        have hid : letterId = l := (EventStream.eq_of_xrange_render hselected).1
        exact hnames (by rw [← hl, hid])
      rw [show custody w' = { custody w with
          queued := Function.update (custody w).queued newId (some o) } from
        Custody.ext (custody_accepted haccepted) (custody_done hdb) hqueued hfiled hindex hreplayed]
      refine .astray hcontent hslot fun hall => hnames ?_
      have hnamed : NamesLetter w (.redrive deadId operator reason) := hact ▸ hall
      exact hnamed hlabels.1 hlabels.2 (letterId, letter) hselected

end steps

/-! ## Runs -/

/-- **What holds along every run with fresh order ids.** -/
structure CustodyInv (c : Config) (w : World) : Prop where
  world : WorldInv c w
  distinct : Distinct w
  filing : Filing w
  covered : (custody w).Covered

section runs

variable {c : Config} {w : World}

/-- It holds of the first world. -/
theorem custodyInv_initial (c : Config) (now clock : ℕ) : CustodyInv c (initial c now clock) where
  world := worldInv_initial c now clock
  distinct := distinct_initial c now clock
  filing := filing_initial c now clock
  covered := by
    refine ⟨fun o l hl => ?_, fun o ho => ?_⟩
    · cases hl.1
    · cases ho

/-- Every step with a fresh order id keeps the custody. -/
theorem CustodyInv.step (h : CustodyInv c w) {a : Act} (hfresh : FreshIds w a) :
    CustodyInv c (OrderFlow.step c w a) := by
  have m := step_move h.world.ready a
  exact ⟨h.world.step a, h.distinct.move m hfresh, h.filing.traffic (m.traffic h.world h.filing),
    h.covered.step (h.world.custody_step h.distinct h.filing m hfresh)⟩

/-- The custody is kept along every run that draws fresh ids. -/
theorem CustodyInv.run (h : CustodyInv c w) {as : List Act}
    (hfresh : Runs.Along FreshIds (OrderFlow.step c) w as) :
    CustodyInv c (Runs.run (OrderFlow.step c) w as) :=
  Runs.run_invariant_of_along _ (fun _ _ hw hok => hw.step hok) as w h hfresh

/-- A dead letter of an order that is recorded under its id. -/
def Archive (w : World) (o : VoucherOrder) (l : StreamId) : Prop :=
  ∃ letter, (w.redis.stream .dead).lookup l = some letter ∧ LetterOf o letter ∧
    w.redis.hget .failures ("order:" ++ o.id.text) = some l.render

/-- A letter that holds an order is recorded under its id. -/
theorem WorldInv.archive_of_index (h : WorldInv c w) {o : VoucherOrder} {l : StreamId}
    (hindex : (custody w).index o l) : Archive w o l := by
  obtain ⟨hfailures, hfiled⟩ := hindex
  obtain ⟨letter, hletter, hcontent⟩ := Option.bind_eq_some_iff.mp hfiled
  obtain ⟨o', -, hof⟩ := h.traced.letter l letter hletter
  rw [letterContent_of_letterOf hof, Option.some.injEq] at hcontent
  subst hcontent
  exact ⟨letter, hletter, hof, hfailures⟩

end runs

/-- **No accepted order is lost.** In every world that a run with fresh order ids reaches, every
accepted order has its row, or an entry that is not delivered yet or pending and is read as the order,
or a dead letter that is recorded under its id and has no redrive recorded. And an entry leaves the
pending list in a step only when it is read as an order that has its row, or whose dead letter the step
leaves recorded. -/
theorem accepted_order_covered (c : Config) (now clock : ℕ) (as : List Act) :
    let w := Runs.run (step c) (initial c now clock) as
    Runs.Along FreshIds (step c) (initial c now clock) as →
    (∀ o, w.Accepted o →
      (∃ row, w.db.orders.rows.lookup o.id = some row ∧ row.userId = o.userId ∧
        row.voucherId = o.voucherId) ∨
      (∃ id fields, (w.redis.stream .orders).Live consumerGroup id ∧
        (w.redis.stream .orders).lookup id = some fields ∧ decode fields = .ok o) ∨
      ∃ l, Archive w o l ∧ w.redis.hget .redrives l.render = none) ∧
    ∀ a id, ((w.redis.stream .orders).pendingOf consumerGroup id).isSome →
      ((step c w a).redis.stream .orders).pendingOf consumerGroup id = none →
      ∃ fields o, (w.redis.stream .orders).lookup id = some fields ∧ decode fields = .ok o ∧
        (Persisted w.db o ∨ ∃ l, Archive (step c w a) o l) := by
  intro w hfresh
  have h : CustodyInv c w := (custodyInv_initial c now clock).run hfresh
  refine ⟨fun o ho => ?_, fun a id hpending hgone => ?_⟩
  · rcases h.covered.covered o ho with hdone | ⟨p, hp⟩
    · exact .inl hdone
    · cases p with
      | entry id =>
        obtain ⟨hlive, fields, hfields, hcarries⟩ := carried_of_queued hp
        exact .inr (.inl ⟨id, fields, hlive, hfields, hcarries⟩)
      | letter l =>
        exact .inr (.inr ⟨l, h.world.archive_of_index hp.1, not_not.mp hp.2⟩)
  · have hkept : ((step c w a).redis.stream .orders).pendingOf consumerGroup id =
        (w.redis.stream .orders).pendingOf consumerGroup id → False := fun heq => by
      rw [← heq, hgone] at hpending
      cases hpending
    cases (step_move h.world.ready a).traffic h.world h.filing with
    | rest _ _ _ hpends _ _ =>
      have hstill := hpends id hpending
      rw [hgone] at hstill
      cases hstill
    | admitVoucher _ _ happend hstream _ _ _ =>
      rw [hstream] at hkept
      exact (hkept (EventStream.pendingOf_append happend id)).elim
    | redrive _ _ _ _ _ _ _ happend hstream _ _ _ _ _ =>
      rw [hstream] at hkept
      exact (hkept (EventStream.pendingOf_append happend id)).elim
    | @acknowledge id' o p hp hcarried hpersisted hstream _ _ _ =>
      rw [hstream, EventStream.pendingOf_ack] at hkept
      have hid : id = id' := by
        by_contra hne
        exact hkept (if_neg hne)
      subst hid
      obtain ⟨fields, hfields, hcarries⟩ := hcarried
      exact ⟨fields, o, hfields, hcarries, .inl hpersisted⟩
    | @archive id' l o p payload letter s hp hpayload hevent hstream happend hletter hdead hfailures
        _ _ _ =>
      rw [hstream, EventStream.pendingOf_ack] at hkept
      have hid : id = id' := by
        by_contra hne
        exact hkept (if_neg hne)
      subst hid
      refine ⟨payload, o, hpayload, carries_of_eventOf hevent, .inr ⟨l, letter, ?_, hletter, ?_⟩⟩
      · rw [hdead, EventStream.lookup_append happend, if_pos rfl]
      · rw [hfailures, if_pos (.inr rfl)]

/-- The first order of the small sale is covered. -/
theorem smallSale_covered :
    let w := Runs.run (step smallSale) (initial smallSale 1000 0) firstSale
    (∃ row, w.db.orders.rows.lookup voucherOne = some row ∧ row.userId = voucherOne ∧
        row.voucherId = voucherOne) ∨
      (∃ id fields, (w.redis.stream .orders).Live consumerGroup id ∧
        (w.redis.stream .orders).lookup id = some fields ∧ decode fields = .ok firstOrder) ∨
      ∃ l, Archive w firstOrder l ∧ w.redis.hget .redrives l.render = none :=
  (accepted_order_covered smallSale 1000 0 firstSale firstSale_fresh).1 firstOrder firstOrder_accepted

end CampusHub.OrderFlow
