import CampusHub.OrderFlow.Stock

/-!
# The validators agree

* `seckill_agrees`, `release_agrees` — on a consistent activity none of the checks of the two scripts
  fails that answer `8`, or `3` or `4`.
* `WorldInv.consistent`, `WorldInv.release_code` — a published activity is consistent in every world, and
  the release of a committed cancellation finds it so.
* `corrupt_answers_unreachable` — a publication succeeds, and no call after it answers so.

**Theorem** (`corrupt_answers_unreachable`). In any world of any run, a voucher within the rules whose keys
are absent and whose deadline is ahead is published with the answer `0`; in every world that any run reaches
from there, an admission whose event the stream can take does not answer `8`, and a release of a committed
cancellation before the deadline answers `0` or `1`.

The scripts check again what the services have computed, text by text, and answer with a code of their own
when something does not fit. That this never happens is a statement about two programs: what one writes
passes the checks of the other.

**Proof route.** `seckill_agrees` and `release_agrees` run the checks on a consistent activity, in which
every text is the one that the publication wrote; `WorldInv.consistent` and `WorldInv.release_code` show from
the invariants of the order flow that a published activity, and a committed cancellation, are of that kind.

**Left out.** Releases after the deadline, which answer that nothing is live, and a stream without an id
left.
-/

namespace CampusHub.OrderFlow

open CampusHub.Redis CampusHub.Foundations CampusHub.Foundations.Guards CampusHub.Foundations.Lua
open CampusHub.Foundations.Decimal CampusHub.Foundations.Maps CampusHub.Domain
open CampusHub.FlashSale.Rules CampusHub.FlashSale.Scripts CampusHub.FlashSale.Initialization
open CampusHub.FlashSale.Admission CampusHub.FlashSale.Release CampusHub.OrderQueue
open CampusHub.Cancellation

/-! ## The checks of the scripts -/

/-- **A consistent activity**, as far as an admission can tell at a time: the keys are of their types,
and before the end of the window the metadata are those of the window and the stock is a number in
range. -/
structure Consistent {κ : Type} (K : AdmissionKeys κ) (now b e x : ℕ) (ks : Keyspace κ) : Prop where
  stock : Typed ks K.stock .string
  participants : Typed ks K.participants .set
  activity : Typed ks K.activity .hash
  request : Typed ks K.request .hash
  stream : Typed ks K.stream .stream
  live : now < e → ks.fields K.activity = writeFields ∅ (metadata b e x) ∧
    ∃ n ≤ 2147483647, ks.get K.stock = some (decimal n)

section scripts

variable {κ : Type}

/-- The early answers of an admission to a consistent activity. -/
theorem seckill_agrees {K : AdmissionKeys κ} {now b e : ℕ} {ks : Keyspace κ}
    (h : Consistent K now b e (e + 86400000) ks) (hbe : b < e) (he : e + 86400000 < 2 ^ 53)
    (hnext : (StreamId.next now (ks.stream K.stream).lastId).isSome) (user order voucher : String) :
    Raises (fun o => ∃ r : Reply, o = .answer r ∧ r.code ≠ 8)
      (seckill now true ks K.list [user, order, "1", "1", decimal b, decimal e, voucher]) := by
  have hb : tonumber (decimal b) = some (.ofNat b) := tonumber_decimal (by omega)
  have hend : tonumber (decimal e) = some (.ofNat e) := tonumber_decimal (by omega)
  have hcode : ∀ code text, code ≠ 8 → ∃ r : Reply, Outcome.answer (⟨code, text⟩ : Reply) =
      .answer r ∧ r.code ≠ 8 := fun code text hne => ⟨_, rfl, hne⟩
  unfold seckill AdmissionKeys.list
  dsimp only
  rw [ensure_of h.stock, ensure_of h.participants, ensure_of h.activity, ensure_of h.request,
    ensure_of h.stream, ensure_of rfl, raises_absentOr_bind]
  refine ⟨fun prior _ => hcode _ _ (by decide), fun _ => ?_⟩
  rw [raises_ensure_bind]
  refine ⟨fun _ => hcode _ _ (by decide), fun _ => ?_⟩
  rw [ensure_of (by decide), ensure_of rfl, hb, hend, getOr_some_bind, getOr_some_bind,
    ensure_of (by simpa using hbe), raises_ensure_bind]
  refine ⟨fun _ => hcode _ _ (by decide), fun _ => ?_⟩
  rw [raises_ensure_bind]
  refine ⟨fun _ => hcode _ _ (by decide), fun hnow => ?_⟩
  -- Only now the metadata and the stock are read, and the window has not ended.
  obtain ⟨hfields, n, hn, hstock⟩ := h.live (by simpa using hnow)
  have hmeta : ∀ f, ks.hget K.activity f =
      (writeFields ∅ (metadata b e (e + 86400000))).lookup f := fun f => by
    rw [Keyspace.hget, hfields]
  have hstatus : ks.hget K.activity "status" = some "1" := by rw [hmeta]; rfl
  have hbegin : ks.hget K.activity "beginAt" = some (decimal b) := by rw [hmeta]; rfl
  have hendAt : ks.hget K.activity "endAt" = some (decimal e) := by rw [hmeta]; rfl
  have hexpire : ks.hget K.activity "expireAt" = some (decimal (e + 86400000)) := by
    rw [hmeta]; rfl
  rw [hstatus, hbegin, hendAt, hexpire]
  have hx : tonumber (decimal (e + 86400000)) = some (.ofNat (e + 86400000)) := tonumber_decimal he
  have hnumber : tonumber (decimal n) = some (.ofNat n) := tonumber_decimal (by omega)
  have htext : decimal n = "0" ∨ isPositiveDecimal (decimal n) = true := by
    rcases n.eq_zero_or_pos with rfl | hpos
    · exact .inl rfl
    · exact .inr (isPositiveDecimal_decimal hpos)
  rw [getOr_some_bind, getOr_some_bind, getOr_some_bind, getOr_some_bind, ensure_of (by decide),
    ensure_of rfl, ensure_of rfl, ensure_of rfl, hb, hend, getOr_some_bind, getOr_some_bind,
    ensure_of (by simpa using hbe), hx, getOr_some_bind, ensure_of (by simp),
    ensure_of (by rw [add_ofNat he]; simp), ensure_of (by simp), hstock, getOr_some_bind, hnumber,
    getOr_some_bind, ensure_of (by simp), ensure_of (by simpa using hn), ensure_of (by simp),
    ensure_of htext, raises_ensure_bind]
  refine ⟨fun _ => hcode _ _ (by decide), fun _ => ?_⟩
  rw [ensure_of ⟨rfl, hnext⟩]
  exact raises_ok

/-- The early answers of a release from a consistent activity. -/
theorem release_agrees {K : ReleaseKeys κ} {now x n : ℕ} {ks : Keyspace κ} {user order : String}
    (hx : x < 2 ^ 53) (hnow : now < x) (hstock : ks K.stock = some ⟨.str (decimal n), some x⟩)
    (hactivity : ks.typeOf K.activity = .hash) (hrequest : Typed ks K.request .hash)
    (hreleased : Typed ks K.released .hash)
    (hdeadline : ks.hget K.activity "expireAt" = some (decimal x))
    (haccepted : ks.hget K.request user = some order)
    (hmarker : ∀ prior, ks.hget K.released order = some prior → prior = "DONE:" ++ user)
    (hn : ks.hget K.released order = none → n < 2147483647) :
    Raises (fun o => o = .answer 1) (K.script (decimal x) now ks user order) := by
  have hkind : ks.typeOf K.request = .hash := hrequest.resolve_left fun hnone => by
    rw [Keyspace.hget, Keyspace.fields, typeOf_eq_none.mp hnone] at haccepted
    cases haccepted
  have htext : decimal n = "0" ∨ isPositiveDecimal (decimal n) = true := by
    rcases n.eq_zero_or_pos with rfl | hpos
    · exact .inl rfl
    · exact .inr (isPositiveDecimal_decimal hpos)
  have hget : ks.get K.stock = some (decimal n) := by rw [Keyspace.get, hstock]
  unfold ReleaseKeys.script releaseCancelledOrder
  rw [tonumber_decimal hx, getOr_some_bind, ensure_of (by simp), ensure_of (by simp; omega),
    ensure_of (by simp), ensure_of (by simpa using hnow),
    ensure_of (by rw [Keyspace.typeOf, hstock]; rfl), ensure_of hactivity, ensure_of hkind,
    ensure_of hreleased, raises_absentOr_bind]
  refine ⟨fun prior hprior => ?_, fun hnone => ?_⟩
  · rw [if_pos (hmarker prior hprior)]
  · have hlt := hn hnone
    rw [ensure_of hdeadline, ensure_of haccepted, hget, getOr_some_bind,
      tonumber_decimal (by omega), getOr_some_bind, ensure_of (by simp),
      ensure_of (by simpa using hlt), ensure_of (by simp), ensure_of htext]
    exact raises_ok

end scripts

/-! ## Published activities -/

section published

variable {c : Config} {w : World} {v : LongId} {N : ℕ} {r : FlashSaleRules}

/-- Such a key can be used as a hash. -/
theorem typed_of_hashUntil {ks : Keyspace Key} {k : Key} {t : ℕ} (h : HashUntil ks k t) :
    Typed ks k .hash := by
  rcases h with hnone | ⟨fields, hslot⟩
  · exact .inl (typeOf_eq_none.mpr hnone)
  · exact .inr (Keyspace.typeOf_of_slot hslot)

/-- No more is released than accepted. -/
theorem WorldInv.released_le (h : WorldInv c w) (v : LongId) :
    (w.released v).keys.card ≤ (w.accepted v).keys.card := by
  have haccepted := h.books.card_accepted v
  have hreturned := h.books.card_returned v
  omega

/-- **A published activity is consistent.** -/
theorem WorldInv.consistent (h : WorldInv c w) (hv : Opened c w v) (hpublished : Published c v N r) :
    Consistent (keysOf v) w.now r.beginMillis r.endMillis (r.endMillis + 86400000) w.redis := by
  obtain ⟨g, hg⟩ := h.ready.created
  have hstream : Typed w.redis .orders .stream := .inr (typeOf_of_group hg)
  have hexpires := r.expires_eq
  unfold seckillRetentionMillis at hexpires
  cases hv with
  | live hpublished' _ hactivity =>
    obtain ⟨rfl, rfl⟩ := hpublished.unique hpublished'
    obtain ⟨n, hn, hsum⟩ := hactivity.stock
    have hle := h.released_le v
    have hN := hpublished.le
    refine ⟨.inr (Keyspace.typeOf_of_slot hn), ?_, .inr (Keyspace.typeOf_of_slot hactivity.activity),
      typed_of_hashUntil hactivity.request, hstream, fun _ => ⟨?_, n, by omega, ?_⟩⟩
    · rcases hactivity.participants with hnone | ⟨members, hslot⟩
      · exact .inl (typeOf_eq_none.mpr hnone)
      · exact .inr (Keyspace.typeOf_of_slot hslot)
    · show w.redis.fields (.activity v) = _
      rw [Keyspace.fields, hactivity.activity, hexpires]
    · show w.redis.get (.stock v) = _
      rw [Keyspace.get, hn]
  | gone hpublished' hgone habsent _ =>
    obtain ⟨rfl, rfl⟩ := hpublished.unique hpublished'
    have htyped : ∀ k ∈ voucherKeys v, ∀ kind, Typed w.redis k kind := fun k hk _ =>
      .inl (typeOf_eq_none.mpr (habsent k hk))
    exact ⟨htyped _ (by simp [voucherKeys, keysOf]) _, htyped _ (by simp [voucherKeys, keysOf]) _,
      htyped _ (by simp [voucherKeys, keysOf]) _, htyped _ (by simp [voucherKeys, keysOf]) _,
      hstream, fun hnow => by omega⟩

/-- **An admission to a published activity does not answer `8`.** -/
theorem WorldInv.admission_code (h : WorldInv c w) (hv : Opened c w v) {voucher : Voucher}
    (hvoucher : c.vouchers.lookup v = some voucher) (htype : voucher.type = some 1)
    (userId orderId : LongId)
    (hnext : (StreamId.next w.now (w.redis.stream .orders).lastId).isSome) :
    ∃ reply ks, admitVoucher c w v userId orderId true = .ok (.answer reply, ks) ∧ reply.code ≠ 8 := by
  obtain ⟨N, r, hpublished⟩ : ∃ N r, Published c v N r := by
    rcases hv with ⟨hpublished, -, -⟩ | ⟨hpublished, -, -, -⟩
    · exact ⟨_, _, hpublished⟩
    · exact ⟨_, _, hpublished⟩
  obtain ⟨voucher', hvoucher', hrules, hstatus⟩ := hpublished.voucher
  obtain rfl := Option.some.inj (hvoucher.symm.trans hvoucher')
  have hconsistent := h.consistent hv hpublished
  have hend := r.end_le
  set current : Voucher := { voucher with stock := w.db.stock.lookup v }
  have hvalues : admissionArguments current r userId orderId =
      [userId.text, orderId.text, "1", "1", decimal r.beginMillis, decimal r.endMillis,
        voucher.id.text] := by
    show [_, _, _, valueOf voucher.status, _, _, _] = _
    rw [hstatus]
    rfl
  have hadm : admitVoucher c w v userId orderId true = .ok (Plan.run w.now (seckill w.now true w.redis
      (keysOf v).list (admissionArguments current r userId orderId)) w.redis) := by
    have hfound : c.findFlashSale w.db v = some current := by
      rw [Config.findFlashSale, hvoucher, Option.map_some]
    have hrules' : flashSaleRules current = .ok r := hrules
    rw [admitVoucher, hfound, getOr_some_bind, ensure_of htype, hrules']
    rfl
  cases hs : seckill w.now true w.redis (keysOf v).list
      (admissionArguments current r userId orderId) with
  | error o =>
    rw [hvalues] at hs
    obtain ⟨reply, rfl, hne⟩ := seckill_agrees hconsistent r.begin_lt_end (by omega) hnext userId.text
      orderId.text voucher.id.text o hs
    refine ⟨reply, w.redis, ?_, hne⟩
    rw [hadm, hvalues, hs]
    rfl
  | ok p =>
    obtain ⟨-, order, -, -, -, -, -, ks', -, hreply, hexec, -⟩ :=
      seckill_admits (not_overflows (keysOf v) w.redis current r userId orderId) hs
    refine ⟨p.2, ks', ?_, ?_⟩
    · rw [hadm, hs]
      simp only [Plan.run, hexec]
    · rw [hreply]
      exact (by decide : (0 : ℕ) ≠ 8)

/-- **A release before the deadline answers `0` or `1`.** -/
theorem WorldInv.release_code (h : WorldInv c w) {id : LongId} {e : Outbox.OrderCancellation}
    (he : w.db.cancellations.lookup id = some e) (hnow : w.now < e.expiresAtMs) :
    (release w e).1 = .answer 0 ∨ (release w e).1 = .answer 1 := by
  obtain ⟨horder, ⟨row, hrow, hstatus, huser, hvoucher⟩, -⟩ := h.books.compensates id e he
  have haccepted : (w.accepted e.voucherId).lookup e.userId = some e.orderId := by
    have hrecorded := h.books.recorded id row hrow
    rw [World.Accepted, huser, hvoucher] at hrecorded
    rw [horder]
    exact hrecorded
  have hx := h.ready.deadlines id e he
  rcases h.phase e.voucherId with hun | ⟨hpublished, -, hactivity⟩ | ⟨hpublished, hgone, -, -⟩
  · rw [hun.accepted] at haccepted
    cases haccepted
  · rename_i N r
    have hdeadline := h.books.deadline he rfl hpublished
    obtain ⟨n, hn, hsum⟩ := hactivity.stock
    rw [← hdeadline] at hn
    have hreturned := h.books.card_returned e.voucherId
    have hall := h.books.card_accepted e.voucherId
    have hN := hpublished.le
    have hunreleased : w.redis.hget (.released e.voucherId) e.orderId.text = none →
        0 < (unreleased w e.voucherId).card := fun hnone => by
      rw [hactivity.marked, Option.map_eq_none_iff] at hnone
      refine Finset.card_pos.mpr ⟨id, mem_selected.mpr ⟨row, hrow, hvoucher, hstatus, ?_⟩⟩
      rw [← horder, hnone]
    have hagrees : Raises (fun o => o = .answer 1) (Outbox.release e w.now w.redis) := by
      refine release_agrees (n := n) hx hnow hn (Keyspace.typeOf_of_slot hactivity.activity)
        (typed_of_hashUntil hactivity.request) (typed_of_hashUntil hactivity.marks) ?_ ?_ ?_ ?_
      · show w.redis.hget (.activity e.voucherId) "expireAt" = _
        rw [Keyspace.hget, Keyspace.fields, hactivity.activity, hdeadline]
        rfl
      · show w.redis.hget (.request e.voucherId) _ = _
        rw [hactivity.recorded, haccepted, Option.map_some]
      · intro prior hprior
        have hmarked : w.redis.hget (.released e.voucherId) e.orderId.text = some prior := hprior
        rw [hactivity.marked, Option.map_eq_some_iff] at hmarked
        obtain ⟨u, hu, rfl⟩ := hmarked
        obtain ⟨e', he', huser', -⟩ := h.books.released _ _ _ hu
        rw [horder, he, Option.some.injEq] at he'
        rw [← huser', he']
      · intro hnone
        have hpos := hunreleased hnone
        omega
    cases hs : Outbox.release e w.now w.redis with
    | error o =>
      right
      rw [release, hs]
      exact hagrees o hs
    | ok p =>
      left
      obtain ⟨rfl, m, hr⟩ := releasable_of_ok hs
      obtain ⟨ks', hexec, -⟩ := FlashSale.Release.exec_writes hr
        (string2ll_decimal (by unfold llongMax; omega)) hnow
      rw [release, hs]
      simp only [Plan.run, hexec]
  · rw [h.books.deadline he rfl hpublished] at hnow
    omega

end published

/-- **The corrupt-state answers are unreachable.** In any world that a run reaches, a voucher within
the rules, with status `1` and a stock in range, with its activity keys absent and its deadline ahead,
is published with the answer `0`. In every world that any run reaches from there, an admission of the
stored voucher whose event the stream can take does not answer `8`, and the release script called
before the deadline for a committed cancellation answers `0` or `1`. -/
theorem corrupt_answers_unreachable (c : Config) (now clock : ℕ) (as bs : List Act) (v : LongId)
    (voucher : Voucher) (r : FlashSaleRules) (N : ℕ) :
    let s := Runs.run (step c) (initial c now clock) as
    c.vouchers.lookup v = some voucher → flashSaleRules voucher = .ok r →
    voucher.status = some 1 → voucher.stock = some (N : ℤ) → 1 ≤ N → N ≤ 2147483647 →
    s.now < r.expiresAtMillis → (∀ k ∈ activityKeys v, s.redis k = none) →
    (∃ ks, publish c s v = .ok (.answer 0, ks)) ∧
    let t := Runs.run (step c) (step c s (.publish v)) bs
    (voucher.type = some 1 → ∀ userId orderId,
      (StreamId.next t.now (t.redis.stream .orders).lastId).isSome →
      ∃ reply ks, admitVoucher c t v userId orderId true = .ok (.answer reply, ks) ∧ reply.code ≠ 8) ∧
    ∀ id e, t.db.cancellations.lookup id = some e → e.voucherId = v → t.now < r.expiresAtMillis →
      (release t e).1 = .answer 0 ∨ (release t e).1 = .answer 1 := by
  intro s hvoucher hrules hstatus hstock hpos hle hnow habsent
  have hpublished : Published c v N r :=
    ⟨⟨voucher, hvoucher, hrules, hstatus⟩, (c.stock_eq hvoucher).symm.trans hstock, hpos, hle⟩
  obtain ⟨ks, hpublish⟩ := publish_of_published hpublished habsent hnow
  refine ⟨⟨ks, hpublish⟩, ?_⟩
  intro t
  have hs : WorldInv c s := (worldInv_initial c now clock).run as
  have hopened : Opened c t v :=
    (hs.step (.publish v)).opened_run (hs.opened_of_publish hpublish) bs
  have ht : WorldInv c t := (hs.step (.publish v)).run bs
  refine ⟨fun htype userId orderId hnext =>
    ht.admission_code hopened hvoucher htype userId orderId hnext, fun id e he hv hbefore => ?_⟩
  refine ht.release_code he ?_
  rw [ht.books.deadline he hv hpublished]
  exact hbefore

/-- In the small sale the publication answers `0`, and the first admission does not answer `8`. -/
theorem smallSale_agrees :
    let t := step smallSale (initial smallSale 1000 0) (.publish voucherOne)
    (∃ ks, publish smallSale (initial smallSale 1000 0) voucherOne = .ok (.answer 0, ks)) ∧
      ∃ reply ks, admitVoucher smallSale t voucherOne voucherOne voucherOne true =
        .ok (.answer reply, ks) ∧ reply.code ≠ 8 := by
  obtain ⟨hpublish, hadm, -⟩ := corrupt_answers_unreachable smallSale 1000 0 [] [] voucherOne
    voucherOnSale smallWindow 1 Finmap.lookup_singleton_eq rfl rfl rfl le_rfl (by decide) (by decide)
    (fun k hk => by
      have horders : k ≠ .orders := fun h =>
        (queueKey_ne_activity (k := .orders) trivial voucherOne).1 (h ▸ hk)
      exact if_neg horders)
  exact ⟨hpublish, hadm rfl voucherOne voucherOne (by decide +kernel)⟩

end CampusHub.OrderFlow
