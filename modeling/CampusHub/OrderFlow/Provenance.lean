import CampusHub.OrderFlow.Activity

/-!
# Every event is of an accepted order

* `Traced` — the entries of the queue and the dead letters are of accepted orders.
* `Traced.move` — every move keeps it so.

Events are written by three hands: the admission script for the order that it accepts, the archiving of an
entry, which copies its fields into a letter, and the redrive, which copies them back. So every entry of the
queue and every letter is of an order that was accepted, in any run, and a worker that decodes an entry
holds an accepted order.

**Proof route.** One case for each move. An admission appends an event of the order that it accepts; an
archiving and a redrive append what they have read; acknowledgements remove no entry, and what is accepted
stays accepted (`Move.accepted`).

**Left out.** That an accepted order has only one event: see `OrderFlow.Coverage`.
-/

namespace CampusHub.OrderFlow

open CampusHub.Redis CampusHub.Foundations.Maps CampusHub.Domain CampusHub.FlashSale.Initialization
open CampusHub.FlashSale.Admission CampusHub.OrderQueue

/-- **Every event is of an accepted order.** -/
structure Traced (w : World) : Prop where
  entry : ∀ id fields, (w.redis.stream .orders).lookup id = some fields →
    ∃ o, w.Accepted o ∧ EventOf o fields
  letter : ∀ id fields, (w.redis.stream .dead).lookup id = some fields →
    ∃ o, w.Accepted o ∧ LetterOf o fields

section traces

variable {c : Config} {w w' : World} {a : Act}

/-- An accepted order stays accepted. -/
theorem Move.accepted (m : Move c w a w') (hphase : ∀ v, Phase c w v) {o : VoucherOrder}
    (ho : w.Accepted o) : w'.Accepted o :=
  (hphase o.voucherId).accepted_of_turn (m.turn o.voucherId) ho

/-- An entry that carries an order carries an accepted one. -/
theorem Traced.accepted_of_carried (h : Traced w) {id : StreamId} {o : VoucherOrder}
    (ho : Carried w.redis id o) : w.Accepted o := by
  obtain ⟨fields, hfields, hcarries⟩ := ho
  obtain ⟨o', ho', hevent⟩ := h.entry id fields hfields
  rwa [hcarries.unique (carries_of_eventOf hevent)]

/-- A move that leaves the two streams as they are. -/
theorem Traced.congr (h : Traced w) (horders : w'.redis .orders = w.redis .orders)
    (hdead : w'.redis .dead = w.redis .dead)
    (haccepted : ∀ o, w.Accepted o → w'.Accepted o) : Traced w' where
  entry id fields hfields := by
    rw [Keyspace.stream_congr horders] at hfields
    obtain ⟨o, ho, hevent⟩ := h.entry id fields hfields
    exact ⟨o, haccepted o ho, hevent⟩
  letter id fields hfields := by
    rw [Keyspace.stream_congr hdead] at hfields
    obtain ⟨o, ho, hletter⟩ := h.letter id fields hfields
    exact ⟨o, haccepted o ho, hletter⟩

/-- A move that appends an event of an accepted order. -/
theorem Traced.append (h : Traced w) {o : VoucherOrder} {fields : Fields} {newId : StreamId}
    {s : EventStream} {t : Option ℕ} (hevent : EventOf o fields) (ho : w'.Accepted o)
    (happend : (w.redis.stream .orders).append w.now fields = some (newId, s))
    (hslot : w'.redis .orders = some ⟨.stream s, t⟩) (hdead : w'.redis .dead = w.redis .dead)
    (haccepted : ∀ o, w.Accepted o → w'.Accepted o) : Traced w' where
  entry id fields' hfields := by
    rw [stream_of_slot hslot, EventStream.lookup_append happend] at hfields
    split at hfields
    · obtain rfl := Option.some.inj hfields
      exact ⟨o, ho, hevent⟩
    · obtain ⟨o', ho', hevent'⟩ := h.entry id fields' hfields
      exact ⟨o', haccepted o' ho', hevent'⟩
  letter id fields' hfields := by
    rw [Keyspace.stream_congr hdead] at hfields
    obtain ⟨o', ho', hletter⟩ := h.letter id fields' hfields
    exact ⟨o', haccepted o' ho', hletter⟩

/-- **Every move keeps the events traced.** -/
theorem Traced.move (h : Traced w) (hready : Ready c w) (hphase : ∀ v, Phase c w v)
    (m : Move c w a w') : Traced w' := by
  have haccepted : ∀ o, w.Accepted o → w'.Accepted o := fun o ho => m.accepted hphase ho
  cases m with
  | quiet _ _ _ _ => exact h.congr rfl rfl haccepted
  | expire d => exact h.congr (hready.purge _ trivial) (hready.purge _ trivial) haccepted
  | publish _ _ _ hinit =>
    exact h.congr (hinit.frame _ (queueKey_ne_activity (k := .orders) trivial _).1)
      (hinit.frame _ (queueKey_ne_activity (k := .dead) trivial _).1) haccepted
  | @admitVoucher v u o n x ks _ hadmitted _ =>
    obtain ⟨newId, s, happend, hslot⟩ := admitted_source hadmitted
    have ho : (Function.update w.accepted v ((w.accepted v).insert u o) v).lookup u = some o := by
      rw [Function.update_self, Finmap.lookup_insert]
    exact h.append (o := ⟨o, u, v⟩) (.inl rfl) ho happend hslot
      (admitted_frame hadmitted (k := .dead) trivial (by decide)) haccepted
  | deliver hentries _ _ _ _ _ =>
    refine ⟨fun id fields hfields => ?_, fun id fields hfields => ?_⟩
    · rw [stream_put, EventStream.lookup_congr hentries] at hfields
      exact h.entry id fields hfields
    · rw [Keyspace.stream_congr (Keyspace.put_of_ne _ _ (by decide))] at hfields
      exact h.letter id fields hfields
  | count _ _ _ =>
    refine h.congr ?_ ?_ haccepted
    · dsimp only
      rw [Keyspace.put_of_ne _ _ (by decide)]
    · dsimp only
      rw [Keyspace.put_of_ne _ _ (by decide)]
  | @acknowledge id n consumer order ks jobs _ _ _ hack _ =>
    have hdead : ks .dead = w.redis .dead := hack.frame _ (by decide) (by decide)
    refine ⟨fun id fields hfields => ?_, fun id fields hfields => ?_⟩
    · have hstream : ks.stream .orders = _ := hack.stream
      rw [hstream, EventStream.lookup_congr EventStream.ack_entries] at hfields
      exact h.entry id fields hfields
    · rw [Keyspace.stream_congr hdead] at hfields
      exact h.letter id fields hfields
  | @archive id n consumer errorClass letter payload ks₁ ks jobs _ hpayload harchived hack _ =>
    have hdead : ks .dead = ks₁ .dead := hack.frame _ (by decide) (by decide)
    refine ⟨fun id fields hfields => ?_, fun id' fields hfields => ?_⟩
    · have hstream : ks.stream .orders = _ := hack.stream
      rw [hstream, EventStream.lookup_congr EventStream.ack_entries] at hfields
      have hsource : ks₁ orderKeys.source = w.redis .orders := (archived_source harchived).1
      rw [Keyspace.stream, hsource] at hfields
      exact h.entry id fields hfields
    · rw [Keyspace.stream_congr hdead] at hfields
      rcases harchived.lettered with ⟨-, deadId, s, -, happend, hslot⟩ | ⟨-, hsame, -⟩
      · have hslot' : ks₁ .dead = some ⟨.stream s, _⟩ := hslot
        rw [stream_of_slot hslot', EventStream.lookup_append happend] at hfields
        split at hfields
        · obtain rfl := Option.some.inj hfields
          obtain ⟨o, ho, hevent⟩ := h.entry id payload hpayload
          exact ⟨o, haccepted o ho, _, _, _, _, _, _, payload, hevent, rfl⟩
        · exact h.letter id' fields hfields
      · have hsame' : ks₁ .dead = w.redis .dead := hsame
        rw [Keyspace.stream_congr hsame'] at hfields
        exact h.letter id' fields hfields
  | persist _ _ _ _ _ _ _ _ _ => exact h.congr rfl rfl haccepted
  | cancel _ => exact h.congr rfl rfl haccepted
  | release _ _ hdone =>
    obtain ⟨-, hstock, hmarks⟩ := queueKey_ne_activity (k := .orders) trivial _
    obtain ⟨-, hstock', hmarks'⟩ := queueKey_ne_activity (k := .dead) trivial _
    exact h.congr (hdone.frame _ hstock hmarks) (hdone.frame _ hstock' hmarks') haccepted
  | @redrive deadId operator reason letter fields newId ks hredriven _ _ =>
    obtain ⟨o, ho, hletter⟩ := h.letter letter.1 letter.2 hredriven.mem
    obtain rfl := redriven_of_letterOf hletter hredriven.payload
    obtain ⟨s, happend, hslot⟩ := hredriven.source
    exact h.append (.inr rfl) (haccepted o ho) happend hslot
      (hredriven.frame _ (by decide) (by decide)) haccepted

/-- No event is there in the first world. -/
theorem traced_initial (c : Config) (now clock : ℕ) : Traced (initial c now clock) where
  entry id fields hfields := by cases hfields
  letter id fields hfields := by cases hfields

end traces

end CampusHub.OrderFlow
