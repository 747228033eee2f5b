import CampusHub.Foundations.Pools
import CampusHub.FlashSale.Initialization

/-!
# The creation of a flash sale

Two rows are inserted in one transaction, and after its commit the activity is initialized in Redis. Creations
interleave with each other, with other vouchers and with whatever uses an activity that is there.

* `stored` — what the database keeps of a time.
* `SaleStore`, `SaleCall`, `SaleCall.move` — a creation, from its checks to the call after its commit.
* `Lawful`, `InOrder`, `Apart` — the invariant: no activity without its rows, and none with another window.
* `open_sale_truthful` — what is committed for an activity that is in Redis.
* `sale_answer_truthful` — what the answer of a creation says about the rows and the activity.

The two theorems are about what the two stores say of one sale. `open_sale_truthful` starts from Redis: an
activity that is there has its rows committed, and the window that an admission computes from the rows, as
the columns store them, is the window in Redis. `sale_answer_truthful` starts from the answer of a request:
an id means that the sale is committed and that its activity was opened with its whole stock.

**Proof route.** The invariant has a part for the store, one for each creation by its stage, and one for any
two creations, which never have the same id because ids are drawn. A step of a creation has one of a few
effects on the store (`Effect`), and each part is kept by each effect. The window is the same in both stores
because the service cuts off the fractions of seconds before it saves (`stored_of_nano`); without that the
column would round them up.

**Left out.** Deletion of sales, which the source has no request for, and writes of Redis by others to keys
of an activity, apart from deleting them.
-/

namespace CampusHub.FlashSale.Creation

open CampusHub.Domain CampusHub.Redis CampusHub.FlashSale.Rules CampusHub.FlashSale.Scripts
open CampusHub.FlashSale.Initialization CampusHub.Foundations CampusHub.Foundations.Guards
open CampusHub.Foundations.Decimal CampusHub.Foundations.Maps CampusHub.Foundations.Pools

/-! ## Sales -/

/-- The terms of a sale. Source: `FlashSaleCreateRequest.java`. -/
structure Sale where
  stock : Option ℤ
  beginTime : Option LocalDateTime
  endTime : Option LocalDateTime
  deriving DecidableEq

/-- The voucher of a sale, once it has an id. Source: `ApiModelMapper.java` 42–52. -/
def Sale.voucher (sale : Sale) (id : LongId) : Voucher := ⟨id, some 1, some 1, sale.stock, sale.beginTime, sale.endTime⟩

/-- The rules of a window; of a voucher they read nothing else. -/
def rulesOf (beginTime endTime : Option LocalDateTime) : Except BusinessException FlashSaleRules :=
  flashSaleRules ⟨⟨1, by decide, by decide⟩, none, none, none, beginTime, endTime⟩

/-- `withNano(0)` -/
def withoutNano (t : LocalDateTime) : LocalDateTime := { t with nano := 0 }

/-- Source: `VoucherServiceImpl.java` 44–45. -/
def Sale.normalized (sale : Sale) : Sale :=
  { sale with beginTime := sale.beginTime.map withoutNano, endTime := sale.endTime.map withoutNano }

/-- A row of `tb_voucher`. -/
structure VoucherRow where
  type : ℤ
  status : ℤ
  deriving DecidableEq

/-- A row of `tb_seckill_voucher`. -/
structure SeckillRow where
  stock : ℤ
  beginTime : LocalDateTime
  endTime : LocalDateTime
  deriving DecidableEq

/-- What a `TIMESTAMP` column keeps of a time: it rounds to seconds. -/
def stored (t : LocalDateTime) : LocalDateTime :=
  ⟨if 500000000 ≤ t.nano then t.epochSecond + 1 else t.epochSecond, 0⟩

/-- The row of a sale; its columns are `NOT NULL`. Source: `VoucherServiceImpl.java` 49–53. -/
def Sale.row (sale : Sale) : Option SeckillRow := do
  let stock ← sale.stock
  let beginTime ← sale.beginTime
  let endTime ← sale.endTime
  some ⟨stock, stored beginTime, stored endTime⟩

/-! ## Creations -/

/-- Redis with its clock, the committed rows, and the ids that were drawn. -/
structure SaleStore where
  redis : Keyspace Key
  now : ℕ
  vouchers : FiniteMap LongId VoucherRow
  seckill : FiniteMap LongId SeckillRow
  drawn : Finset LongId

/-- Source: `VoucherMapper.findFlashSale`. -/
def SaleStore.findFlashSale (s : SaleStore) (v : LongId) : Option Voucher :=
  (s.vouchers.lookup v).map fun row =>
    { id := v
      type := some row.type
      status := some row.status
      stock := (s.seckill.lookup v).map SeckillRow.stock
      beginTime := (s.seckill.lookup v).map SeckillRow.beginTime
      endTime := (s.seckill.lookup v).map SeckillRow.endTime }

/-- The commit of a sale. -/
def SaleStore.commit (s : SaleStore) (id : LongId) (row : SeckillRow) : SaleStore :=
  { s with vouchers := s.vouchers.insert id ⟨1, 1⟩, seckill := s.seckill.insert id row }

/-- What a creation ends with. -/
inductive SaleResult where
  | created (id : LongId)
  | refused (e : BusinessException)
  | thrown
  deriving DecidableEq

/-- Where a creation is: before the insertion of the voucher, of its stock, the commit, and the call after it.
Source: `VoucherServiceImpl.java` 46–57, `FlashSaleRedisPublisher.java` 40–58. -/
inductive SaleStage where
  | inserting
  | stocking (id : LongId)
  | committing (id : LongId) (row : SeckillRow) (arguments : List String)
  | publishing (id : LongId) (arguments : List String)
  | done (r : SaleResult)
  deriving DecidableEq

/-- A creation; `id` is the id of its voucher, once it has one. -/
structure SaleCall where
  sale : Sale
  id : Option LongId
  stage : SaleStage
  deriving DecidableEq

/-- The rows are there, and the activity may not be. Source: `FlashSaleRedisPublisher.java` 53–57. -/
def unconfirmed : BusinessException :=
  ⟨.activityUnavailable, "活动已保存但 Redis 初始化未确认，请检查原活动，勿重复创建"⟩

/-- The start of a creation. Source: `VoucherServiceImpl.java` 41–45. -/
def startSale (sale : Sale) : SaleCall :=
  match rulesOf sale.beginTime sale.endTime with
  | .error e => ⟨sale, none, .done (.refused e)⟩
  | .ok _ => ⟨sale.normalized, none, .inserting⟩

namespace SaleCall

variable (c : SaleCall)

/-- The creation at another place. -/
def reach (stage : SaleStage) : SaleCall := { c with stage := stage }

/-- The call after the commit. -/
def initialization (id : LongId) (arguments : List String) (s : SaleStore) : Outcome ℕ × Keyspace Key :=
  Plan.run s.now (initializeFlashSale s.now s.redis (activityKeys id) arguments) s.redis

/-- The next step of a creation; the id is the one that the database draws. -/
def move (d : Fate × LongId) (s : SaleStore) : SaleStore × SaleCall :=
  match c.stage with
  | .inserting =>
    if d.1 = .failed then (s, c.reach (.done .thrown))
    else if d.2 ∈ s.drawn then (s, c)
    else
      ({ s with drawn := insert d.2 s.drawn },
        { c with id := some d.2, stage := if d.1 = .answered then .stocking d.2 else .done .thrown })
  | .stocking id =>
    (s, c.reach <|
      match c.sale.row with
      | none => .done .thrown
      | some row =>
        if d.1 ≠ .answered then .done .thrown
        else
          match publishAfterCommit (c.sale.voucher id) with
          | .error e => .done (.refused e)
          | .ok arguments => .committing id row arguments)
  | .committing id row arguments =>
    (d.1.perform (fun s => s.commit id row) s,
      c.reach (if d.1 = .answered then .publishing id arguments else .done .thrown))
  | .publishing id arguments =>
    (d.1.perform (fun s => { s with redis := (initialization id arguments s).2 }) s,
      c.reach <| .done <|
        if d.1 = .answered ∧ (initialization id arguments s).1 = .answer 0 then .created id
        else .refused unconfirmed)
  | .done _ => (s, c)

end SaleCall

/-- What others do: the clock goes on; any key of Redis is written, though the metadata of an activity are only
deleted; stock is sold and given back; and other vouchers are created. -/
inductive SaleEvent where
  | tick (d : ℕ)
  | write (k : Key) (e : Option Entry)
  | restock (v : LongId) (stock : ℤ)
  | addVoucher (v : LongId)

/-- The key of the metadata of an activity. -/
def isActivity : Key → Bool
  | .activity _ => true
  | _ => false

/-- What others do to the store. Source: for the last one `VoucherServiceImpl.java` 33–36. -/
def SaleEvent.apply (s : SaleStore) : SaleEvent → SaleStore
  | .tick d => { s with redis := s.redis.purge (s.now + d), now := s.now + d }
  | .write k e => if isActivity k ∧ e.isSome then s else { s with redis := s.redis.replace k e }
  | .restock v stock =>
    match s.seckill.lookup v with
    | some row => { s with seckill := s.seckill.insert v { row with stock := stock } }
    | none => s
  | .addVoucher v =>
    if v ∈ s.drawn then s else { s with vouchers := s.vouchers.insert v ⟨0, 1⟩, drawn := insert v s.drawn }

/-- Creations over the store. -/
def sales : System SaleStore Sale SaleCall (Fate × LongId) SaleEvent where
  enter _ sale := startSale sale
  move d s c := c.move d s
  drift e s := e.apply s

/-- The store and the creations. -/
abbrev SalePool := Pool SaleStore SaleCall

/-- The steps. -/
abbrev SaleAct := PoolAct Sale (Fate × LongId) SaleEvent

/-! ## The window -/

section windows

variable {sale : Sale} {rules : FlashSaleRules}

/-- The times of the sale have no fraction, and its window is in range. -/
structure Sale.Normal (sale : Sale) (rules : FlashSaleRules) : Prop where
  beginTime : ∀ t, sale.beginTime = some t → t.nano = 0
  endTime : ∀ t, sale.endTime = some t → t.nano = 0
  rules : rulesOf sale.beginTime sale.endTime = .ok rules

/-- The rules do not read the fractions. -/
theorem rulesOf_normalized (sale : Sale) :
    rulesOf sale.normalized.beginTime sale.normalized.endTime = rulesOf sale.beginTime sale.endTime := by
  obtain ⟨stock, beginTime, endTime⟩ := sale
  cases beginTime <;> cases endTime <;> rfl

/-- A sale whose fractions are cut off is stored as it is. -/
theorem normal_normalized (h : rulesOf sale.beginTime sale.endTime = .ok rules) : sale.normalized.Normal rules where
  beginTime t ht := by
    obtain ⟨u, -, rfl⟩ := Option.map_eq_some_iff.mp ht
    rfl
  endTime t ht := by
    obtain ⟨u, -, rfl⟩ := Option.map_eq_some_iff.mp ht
    rfl
  rules := (rulesOf_normalized sale).trans h

/-- A time without a fraction is stored as it is. -/
theorem stored_of_nano {t : LocalDateTime} (h : t.nano = 0) : stored t = t := by
  obtain ⟨second, nano⟩ := t
  obtain rfl : nano = 0 := h
  rfl

/-- **The row of a sale has the window of the sale.** -/
theorem Sale.Normal.row (h : sale.Normal rules) {row : SeckillRow} (hrow : sale.row = some row) :
    sale.stock = some row.stock ∧ rulesOf (some row.beginTime) (some row.endTime) = .ok rules := by
  obtain ⟨hbegin, hend, hrules⟩ := h
  obtain ⟨stock, beginTime, endTime⟩ := sale
  simp only [Sale.row, Option.bind_eq_bind, Option.bind_eq_some_iff, Option.some.injEq] at hrow
  obtain ⟨n, hn, b, hb, e, he, rfl⟩ := hrow
  refine ⟨hn, ?_⟩
  rw [stored_of_nano (hbegin b hb), stored_of_nano (hend e he), ← hb, ← he]
  exact hrules

/-- The arguments of the call after the commit. -/
theorem exists_of_publishAfterCommit {voucher : Voucher} {arguments : List String}
    (h : publishAfterCommit voucher = .ok arguments) (hrules : flashSaleRules voucher = .ok rules) :
    ∃ N : ℕ, voucher.stock = some (N : ℤ) ∧
      arguments = Initialization.arguments N rules.beginMillis rules.endMillis rules.expiresAtMillis := by
  unfold publishAfterCommit at h
  rw [hrules] at h
  change (getOr _ _ >>= _) = _ at h
  simp only [getOr_bind_eq_ok, ensure_bind_eq_ok] at h
  obtain ⟨stock, hstock, hpos, -, h⟩ := h
  obtain ⟨N, rfl⟩ := Int.eq_ofNat_of_zero_le hpos.le
  exact ⟨N, hstock, (Except.ok.inj h).symm⟩

/-- No check of the window refuses a sale as unconfirmed. -/
theorem raises_rules (voucher : Voucher) : Raises (fun e => e ≠ unconfirmed) (flashSaleRules voucher) := by
  have hrequired : ∀ time, Raises (fun e => e ≠ unconfirmed) (requiredMillis time) := by
    intro time
    unfold requiredMillis
    rw [raises_getOr_bind]
    refine ⟨fun _ => by decide, fun t _ => ?_⟩
    cases t.toEpochMilli with
    | none => exact raises_error.mpr (by decide)
    | some z => exact raises_ok
  unfold flashSaleRules
  rw [raises_ensure_bind]
  refine ⟨fun _ => by decide, fun _ => ?_⟩
  refine raises_bind (hrequired _) fun b => raises_bind (hrequired _) fun e => ?_
  rw [raises_getOr_bind]
  refine ⟨fun _ => by decide, fun _ _ => ?_⟩
  split
  · exact raises_ok
  · exact raises_error.mpr (by decide)

/-- The checks of a publication never raise that it is unconfirmed. -/
theorem raises_publishAfterCommit (voucher : Voucher) :
    Raises (fun e => e ≠ unconfirmed) (publishAfterCommit voucher) := by
  unfold publishAfterCommit
  refine raises_bind (raises_rules voucher) fun rules => ?_
  rw [raises_getOr_bind]
  refine ⟨fun _ => by decide, fun stock _ => ?_⟩
  rw [raises_ensure_bind]
  refine ⟨fun _ => by decide, fun _ => ?_⟩
  rw [raises_ensure_bind]
  exact ⟨fun _ => by decide, fun _ => raises_ok⟩

end windows

/-! ## The invariant -/

/-- The id was drawn, and no row has it. -/
structure Unused (s : SaleStore) (id : LongId) : Prop where
  drawn : id ∈ s.drawn
  voucher : s.vouchers.lookup id = none
  seckill : s.seckill.lookup id = none

/-- The rows of a sale are committed, with its window. -/
structure Saved (s : SaleStore) (id : LongId) (rules : FlashSaleRules) : Prop where
  drawn : id ∈ s.drawn
  voucher : s.vouchers.lookup id = some ⟨1, 1⟩
  seckill : ∃ row, s.seckill.lookup id = some row ∧ rulesOf (some row.beginTime) (some row.endTime) = .ok rules

/-- The metadata of an activity with the window. -/
def activityEntry (rules : FlashSaleRules) : Entry :=
  ⟨.hash (writeFields ∅ (metadata rules.beginMillis rules.endMillis rules.expiresAtMillis)),
    some rules.expiresAtMillis⟩

/-- **The store**: the two rows of a sale are there together, and an activity has the window of its rows. -/
structure Lawful (s : SaleStore) : Prop where
  drawn : ∀ v row, s.vouchers.lookup v = some row → v ∈ s.drawn
  voucher : ∀ v row, s.seckill.lookup v = some row → s.vouchers.lookup v = some ⟨1, 1⟩
  seckill : ∀ v row, s.vouchers.lookup v = some row → row.type = 1 → ∃ row', s.seckill.lookup v = some row'
  opened : ∀ v e, s.redis (.activity v) = some e → ∃ rules, Saved s v rules ∧ e = activityEntry rules

/-- The arguments of the call after the commit, for a stock and a window. -/
def Arguments (sale : Sale) (rules : FlashSaleRules) (arguments : List String) : Prop :=
  ∃ N : ℕ, sale.stock = some (N : ℤ) ∧
    arguments = Initialization.arguments N rules.beginMillis rules.endMillis rules.expiresAtMillis

/-- **A creation**, from its stage on: what its id is, and which rows are there. -/
def InOrder (s : SaleStore) (c : SaleCall) : Prop :=
  match c.stage with
  | .inserting => c.id = none ∧ ∃ rules, c.sale.Normal rules
  | .stocking id => c.id = some id ∧ Unused s id ∧ ∃ rules, c.sale.Normal rules
  | .committing id row arguments => c.id = some id ∧ Unused s id ∧ ∃ rules,
      rulesOf (some row.beginTime) (some row.endTime) = .ok rules ∧ Arguments c.sale rules arguments
  | .publishing id arguments => c.id = some id ∧ ∃ rules, Saved s id rules ∧ Arguments c.sale rules arguments
  | .done (.created id) => c.id = some id ∧ ∃ rules, Saved s id rules
  | .done (.refused e) => (e = unconfirmed → ∃ id rules, c.id = some id ∧ Saved s id rules) ∧
      (e ≠ unconfirmed → ∀ id, c.id = some id → Unused s id)
  | .done .thrown => ∀ id, c.id = some id → Unused s id ∨ ∃ rules, Saved s id rules

/-- Two creations never have one id. -/
def Apart (c u : SaleCall) : Prop := ∀ id, c.id = some id → u.id ≠ some id

/-- What a step of a creation does to the store. -/
inductive Effect (c : SaleCall) (s s' : SaleStore) : Prop where
  | same (h : s' = s)
  | draw (id : LongId) (hfree : id ∉ s.drawn) (h : s' = { s with drawn := insert id s.drawn })
  | commit (id : LongId) (row : SeckillRow) (arguments : List String)
      (hstage : c.stage = .committing id row arguments) (h : s' = s.commit id row)
  | activate (id : LongId) (arguments : List String) (hstage : c.stage = .publishing id arguments)
      (h : s' = { s with redis := (SaleCall.initialization id arguments s).2 })

section invariant

variable {s s' : SaleStore} {c u : SaleCall} {id id' : LongId} {rules : FlashSaleRules}

/-- A move of a creation has one of these effects. -/
theorem effect_move (d : Fate × LongId) (s : SaleStore) (c : SaleCall) : Effect c s (c.move d s).1 := by
  unfold SaleCall.move
  cases hstage : c.stage with
  | inserting =>
    dsimp only
    split
    · exact .same rfl
    · split
      · exact .same rfl
      · rename_i hfree
        exact .draw d.2 hfree rfl
  | stocking id => exact .same rfl
  | committing id row arguments =>
    rcases d.1.perform_cases (fun s : SaleStore => s.commit id row) s with h | h
    · exact .commit id row arguments hstage h
    · exact .same h
  | publishing id arguments =>
    rcases d.1.perform_cases
      (fun s : SaleStore => { s with redis := (SaleCall.initialization id arguments s).2 }) s with h | h
    · exact .activate id arguments hstage h
    · exact .same h
  | done r => exact .same rfl

/-- A commit adds its voucher. -/
theorem vouchers_commit (s : SaleStore) (id v : LongId) (row : SeckillRow) :
    (s.commit id row).vouchers.lookup v = if v = id then some ⟨1, 1⟩ else s.vouchers.lookup v :=
  lookup_insert_eq ..

/-- A commit adds its stock and its times. -/
theorem seckill_commit (s : SaleStore) (id v : LongId) (row : SeckillRow) :
    (s.commit id row).seckill.lookup v = if v = id then some row else s.seckill.lookup v := lookup_insert_eq ..

/-- A commit leaves the rows of the other ids alone. -/
theorem Unused.commit (h : Unused s id) (hne : id ≠ id') (row : SeckillRow) : Unused (s.commit id' row) id where
  drawn := h.drawn
  voucher := by rw [vouchers_commit, if_neg hne]; exact h.voucher
  seckill := by rw [seckill_commit, if_neg hne]; exact h.seckill

/-- A sale that is saved stays so when another one is committed. -/
theorem Saved.commit (h : Saved s id rules) (hunused : Unused s id') (row : SeckillRow) :
    Saved (s.commit id' row) id rules := by
  have hne : id ≠ id' := by
    rintro rfl
    have hrow := h.voucher
    rw [hunused.voucher] at hrow
    cases hrow
  refine ⟨h.drawn, ?_, ?_⟩
  · rw [vouchers_commit, if_neg hne]
    exact h.voucher
  · rw [seckill_commit, if_neg hne]
    exact h.seckill

/-- The rows of a sale that is committed. -/
theorem saved_commit (h : Unused s id) {row : SeckillRow}
    (hrow : rulesOf (some row.beginTime) (some row.endTime) = .ok rules) : Saved (s.commit id row) id rules where
  drawn := h.drawn
  voucher := by rw [vouchers_commit, if_pos rfl]
  seckill := ⟨row, by rw [seckill_commit, if_pos rfl], hrow⟩

/-- Drawing an id changes no row. -/
theorem Saved.draw (h : Saved s id rules) (drawn : LongId) :
    Saved { s with drawn := insert drawn s.drawn } id rules :=
  ⟨Finset.mem_insert_of_mem h.drawn, h.voucher, h.seckill⟩

/-- Drawing another id does not use this one. -/
theorem Unused.draw (h : Unused s id) (drawn : LongId) : Unused { s with drawn := insert drawn s.drawn } id :=
  ⟨Finset.mem_insert_of_mem h.drawn, h.voucher, h.seckill⟩

/-- The rows of an id that was not drawn. -/
theorem Lawful.unused (h : Lawful s) (hfree : id ∉ s.drawn) :
    s.vouchers.lookup id = none ∧ s.seckill.lookup id = none := by
  have hvoucher : s.vouchers.lookup id = none := by
    cases hrow : s.vouchers.lookup id with
    | none => rfl
    | some row => exact absurd (h.drawn id row hrow) hfree
  refine ⟨hvoucher, ?_⟩
  cases hrow : s.seckill.lookup id with
  | none => rfl
  | some row =>
    have hrow' := h.voucher id row hrow
    rw [hvoucher] at hrow'
    cases hrow'

/-- A creation is as it was when its id is as it was, and saved sales stay saved. -/
theorem InOrder.frame (h : InOrder s c) (hunused : ∀ id, c.id = some id → Unused s id → Unused s' id)
    (hsaved : ∀ id rules, Saved s id rules → Saved s' id rules) : InOrder s' c := by
  unfold InOrder at h ⊢
  cases hstage : c.stage with
  | inserting =>
    rw [hstage] at h
    exact h
  | stocking id =>
    rw [hstage] at h
    exact ⟨h.1, hunused id h.1 h.2.1, h.2.2⟩
  | committing id row arguments =>
    rw [hstage] at h
    exact ⟨h.1, hunused id h.1 h.2.1, h.2.2⟩
  | publishing id arguments =>
    rw [hstage] at h
    obtain ⟨hid, rules, hrows, harguments⟩ := h
    exact ⟨hid, rules, hsaved id rules hrows, harguments⟩
  | done r =>
    rw [hstage] at h
    cases r with
    | created id =>
      obtain ⟨hid, rules, hrows⟩ := h
      exact ⟨hid, rules, hsaved id rules hrows⟩
    | refused e =>
      refine ⟨fun he => ?_, fun he id hid => hunused id hid (h.2 he id hid)⟩
      obtain ⟨id, rules, hid, hrows⟩ := h.1 he
      exact ⟨id, rules, hid, hsaved id rules hrows⟩
    | thrown =>
      intro id hid
      rcases h id hid with hnot | ⟨rules, hrows⟩
      · exact .inl (hunused id hid hnot)
      · exact .inr ⟨rules, hsaved id rules hrows⟩

/-- The id of a creation was drawn. -/
theorem InOrder.drawn (h : InOrder s c) (hid : c.id = some id) : id ∈ s.drawn := by
  unfold InOrder at h
  cases hstage : c.stage with
  | inserting =>
    rw [hstage] at h
    rw [h.1] at hid
    cases hid
  | stocking i =>
    rw [hstage] at h
    obtain rfl := Option.some.inj (h.1.symm.trans hid)
    exact h.2.1.drawn
  | committing i row arguments =>
    rw [hstage] at h
    obtain rfl := Option.some.inj (h.1.symm.trans hid)
    exact h.2.1.drawn
  | publishing i arguments =>
    rw [hstage] at h
    obtain ⟨hi, rules, hrows, -⟩ := h
    obtain rfl := Option.some.inj (hi.symm.trans hid)
    exact hrows.drawn
  | done r =>
    rw [hstage] at h
    cases r with
    | created i =>
      obtain ⟨hi, rules, hrows⟩ := h
      obtain rfl := Option.some.inj (hi.symm.trans hid)
      exact hrows.drawn
    | refused e =>
      by_cases he : e = unconfirmed
      · obtain ⟨i, rules, hi, hrows⟩ := h.1 he
        obtain rfl := Option.some.inj (hi.symm.trans hid)
        exact hrows.drawn
      · exact (h.2 he id hid).drawn
    | thrown =>
      rcases h id hid with hnot | ⟨rules, hrows⟩
      · exact hnot.drawn
      · exact hrows.drawn

/-- The call after the commit of a creation. -/
theorem initialization_cases (s : SaleStore) (id : LongId) {arguments : List String} {sale : Sale}
    (harguments : Arguments sale rules arguments) :
    ((SaleCall.initialization id arguments s).1 = .answer 0 ∧ ∃ N : ℕ, sale.stock = some (N : ℤ) ∧
      Initialized (keysOf id) N rules.beginMillis rules.endMillis rules.expiresAtMillis s.redis
        (SaleCall.initialization id arguments s).2) ∨
    ((SaleCall.initialization id arguments s).1 ≠ .answer 0 ∧
      (SaleCall.initialization id arguments s).2 = s.redis) := by
  obtain ⟨N, hstock, rfl⟩ := harguments
  have hrun : SaleCall.initialization id
      (Initialization.arguments N rules.beginMillis rules.endMillis rules.expiresAtMillis) s =
      Plan.run s.now (initializeFlashSale s.now s.redis (keysOf id).activityKeys
        (Initialization.arguments N rules.beginMillis rules.endMillis rules.expiresAtMillis)) s.redis := rfl
  rw [hrun]
  rcases initialize_cases (keysOf id) s.now N rules.beginMillis rules.endMillis rules.expiresAtMillis s.redis with
    ⟨-, -, hanswer, hinitialized⟩ | ⟨r, hr, hrefused⟩
  · exact .inl ⟨hanswer, N, hstock, hinitialized⟩
  · rw [hrefused]
    exact .inr ⟨fun heq => hr (Outcome.answer.inj heq), rfl⟩

/-- A step of a creation leaves the store in order. -/
theorem Lawful.effect (h : Lawful s) (hc : InOrder s c) (heffect : Effect c s s') : Lawful s' := by
  cases heffect with
  | same hs =>
    rw [hs]
    exact h
  | draw id hfree hs =>
    subst hs
    refine ⟨fun v row hrow => Finset.mem_insert_of_mem (h.drawn v row hrow), h.voucher, h.seckill, fun v e he => ?_⟩
    obtain ⟨rules, hrows, hentry⟩ := h.opened v e he
    exact ⟨rules, hrows.draw id, hentry⟩
  | commit id row arguments hstage hs =>
    subst hs
    unfold InOrder at hc
    rw [hstage] at hc
    obtain ⟨-, hunused, -⟩ := hc
    refine ⟨fun v r hr => ?_, fun v r hr => ?_, fun v r hr htype => ?_, fun v e he => ?_⟩
    · rw [vouchers_commit] at hr
      split at hr
      · rename_i hv
        rw [hv]
        exact hunused.drawn
      · exact h.drawn v r hr
    · rw [seckill_commit] at hr
      rw [vouchers_commit]
      split
      · rfl
      · rename_i hv
        rw [if_neg hv] at hr
        exact h.voucher v r hr
    · rw [vouchers_commit] at hr
      rw [seckill_commit]
      split
      · exact ⟨row, rfl⟩
      · rename_i hv
        rw [if_neg hv] at hr
        exact h.seckill v r hr htype
    · obtain ⟨rules, hrows, hentry⟩ := h.opened v e he
      exact ⟨rules, hrows.commit hunused row, hentry⟩
  | activate id arguments hstage hs =>
    subst hs
    unfold InOrder at hc
    rw [hstage] at hc
    obtain ⟨-, rules, hrows, harguments⟩ := hc
    refine ⟨h.drawn, h.voucher, h.seckill, fun v e he => ?_⟩
    have hback : s.redis (.activity v) = some e → ∃ rules, Saved s v rules ∧ e = activityEntry rules := h.opened v e
    suffices hsaved : ∃ rules, Saved s v rules ∧ e = activityEntry rules by
      obtain ⟨rules', hrows', hentry⟩ := hsaved
      exact ⟨rules', ⟨hrows'.drawn, hrows'.voucher, hrows'.seckill⟩, hentry⟩
    replace he : (SaleCall.initialization id arguments s).2 (.activity v) = some e := he
    rcases initialization_cases s id harguments with ⟨-, N, -, hinitialized⟩ | ⟨-, hsame⟩
    · by_cases hv : v = id
      · subst hv
        obtain rfl := Option.some.inj (hinitialized.activity.symm.trans he)
        exact ⟨rules, hrows, rfl⟩
      · have hkey : Key.activity v ∉ (keysOf id).activityKeys := by
          simp [AdmissionKeys.activityKeys, keysOf, hv]
        rw [hinitialized.frame _ hkey] at he
        exact hback he
    · rw [hsame] at he
      exact hback he

/-- **What a step of a creation leaves to another.** -/
theorem InOrder.other (h : InOrder s u) (hc : InOrder s c) (hapart : Apart c u) (heffect : Effect c s s') :
    InOrder s' u := by
  cases heffect with
  | same hs =>
    rw [hs]
    exact h
  | draw id hfree hs =>
    subst hs
    exact h.frame (fun i _ hi => hi.draw id) fun i rules hi => hi.draw id
  | commit id row arguments hstage hs =>
    subst hs
    unfold InOrder at hc
    rw [hstage] at hc
    obtain ⟨hid, hunused, -⟩ := hc
    apply h.frame
    · intro i hi hnot
      refine hnot.commit ?_ row
      rintro rfl
      exact hapart i hid hi
    · exact fun i rules hi => hi.commit hunused row
  | activate id arguments hstage hs =>
    subst hs
    apply h.frame
    · exact fun i _ hi => ⟨hi.drawn, hi.voucher, hi.seckill⟩
    · exact fun i rules hi => ⟨hi.drawn, hi.voucher, hi.seckill⟩

/-- **What a step of a creation leaves to itself.** -/
theorem inOrder_move (d : Fate × LongId) (hlawful : Lawful s) (h : InOrder s c) :
    InOrder (c.move d s).1 (c.move d s).2 := by
  unfold SaleCall.move
  cases hstage : c.stage with
  | inserting =>
    have horder := h
    unfold InOrder at h
    rw [hstage] at h
    obtain ⟨hid, rules, hnormal⟩ := h
    dsimp only
    split
    · intro i hi
      rw [show (c.reach (.done .thrown)).id = c.id from rfl, hid] at hi
      cases hi
    · split
      · exact horder
      · rename_i hfree
        obtain ⟨hvoucher, hseckill⟩ := hlawful.unused hfree
        have hunused : Unused { s with drawn := insert d.2 s.drawn } d.2 :=
          ⟨Finset.mem_insert_self _ _, hvoucher, hseckill⟩
        by_cases hanswered : d.1 = .answered
        · rw [if_pos hanswered]
          exact ⟨rfl, hunused, rules, hnormal⟩
        · rw [if_neg hanswered]
          intro i hi
          obtain rfl := Option.some.inj hi
          exact .inl hunused
  | stocking id =>
    unfold InOrder at h
    rw [hstage] at h
    obtain ⟨hid, hunused, rules, hnormal⟩ := h
    have hthrown : InOrder s (c.reach (.done .thrown)) := by
      intro i hi
      obtain rfl := Option.some.inj (hid.symm.trans hi)
      exact .inl hunused
    dsimp only
    split
    · exact hthrown
    · rename_i row hrow
      split
      · exact hthrown
      · split
        · rename_i e he
          refine ⟨fun heq => absurd heq (raises_publishAfterCommit _ e he), fun _ i hi => ?_⟩
          obtain rfl := Option.some.inj (hid.symm.trans hi)
          exact hunused
        · rename_i arguments harguments
          obtain ⟨-, hrules⟩ := hnormal.row hrow
          exact ⟨hid, hunused, rules, hrules, exists_of_publishAfterCommit harguments hnormal.rules⟩
  | committing id row arguments =>
    unfold InOrder at h
    rw [hstage] at h
    obtain ⟨hid, hunused, rules, hrules, harguments⟩ := h
    have hrows : Saved (s.commit id row) id rules := saved_commit hunused hrules
    dsimp only
    cases hfate : d.1 with
    | answered =>
      rw [if_pos rfl]
      exact ⟨hid, rules, hrows, harguments⟩
    | lost =>
      rw [if_neg nofun]
      intro i hi
      obtain rfl := Option.some.inj (hid.symm.trans hi)
      exact .inr ⟨rules, hrows⟩
    | failed =>
      rw [if_neg nofun]
      intro i hi
      obtain rfl := Option.some.inj (hid.symm.trans hi)
      exact .inl hunused
  | publishing id arguments =>
    unfold InOrder at h
    rw [hstage] at h
    obtain ⟨hid, rules, hrows, -⟩ := h
    dsimp only
    have hsaved : Saved (d.1.perform
        (fun s => { s with redis := (SaleCall.initialization id arguments s).2 }) s) id rules := by
      rcases d.1.perform_cases
        (fun s : SaleStore => { s with redis := (SaleCall.initialization id arguments s).2 }) s with hs | hs
      · rw [hs]
        exact ⟨hrows.drawn, hrows.voucher, hrows.seckill⟩
      · rw [hs]
        exact hrows
    split
    · exact ⟨hid, rules, hsaved⟩
    · exact ⟨fun _ => ⟨id, rules, hid, hsaved⟩, fun hne => absurd rfl hne⟩
  | done r => exact h

/-- A creation starts without an id. -/
theorem inOrder_start (s : SaleStore) (sale : Sale) : InOrder s (startSale sale) := by
  unfold startSale
  cases hrules : rulesOf sale.beginTime sale.endTime with
  | error e => exact ⟨fun heq => absurd heq (raises_rules _ e hrules), fun _ i hi => by cases hi⟩
  | ok rules => exact ⟨rfl, rules, normal_normalized hrules⟩

/-- Stock that is sold or given back changes no window. -/
theorem lawful_restock {v : LongId} {row : SeckillRow} (h : Lawful s) (hrow : s.seckill.lookup v = some row)
    (stock : ℤ) : let s' := { s with seckill := s.seckill.insert v { row with stock := stock } }
    Lawful s' ∧ ∀ c, InOrder s c → InOrder s' c := by
  intro s'
  have hlookup : ∀ i, s'.seckill.lookup i = if i = v then some { row with stock := stock } else s.seckill.lookup i :=
    fun i => lookup_insert_eq ..
  have hsaved : ∀ i rules, Saved s i rules → Saved s' i rules := by
    intro i rules hi
    obtain ⟨r, hr, hrules⟩ := hi.seckill
    refine ⟨hi.drawn, hi.voucher, ?_⟩
    rw [hlookup]
    split
    · rename_i hiv
      rw [hiv, hrow] at hr
      obtain rfl := Option.some.inj hr
      exact ⟨_, rfl, hrules⟩
    · exact ⟨r, hr, hrules⟩
  refine ⟨⟨h.drawn, fun i r hr => ?_, fun i r hr htype => ?_, fun i e he => ?_⟩, fun c hc => hc.frame ?_ hsaved⟩
  · rw [hlookup] at hr
    split at hr
    · rename_i hiv
      rw [hiv]
      exact h.voucher v row hrow
    · exact h.voucher i r hr
  · rw [hlookup]
    split
    · exact ⟨_, rfl⟩
    · exact h.seckill i r hr htype
  · obtain ⟨rules, hrows, hentry⟩ := h.opened i e he
    exact ⟨rules, hsaved i rules hrows, hentry⟩
  · intro i _ hi
    refine ⟨hi.drawn, hi.voucher, ?_⟩
    have hne : i ≠ v := by
      rintro rfl
      rw [hi.seckill] at hrow
      cases hrow
    rw [hlookup, if_neg hne]
    exact hi.seckill

/-- A voucher that is no sale gets an id of its own. -/
theorem lawful_addVoucher {v : LongId} (h : Lawful s) (hfree : v ∉ s.drawn) :
    let s' := { s with vouchers := s.vouchers.insert v ⟨0, 1⟩, drawn := insert v s.drawn }
    Lawful s' ∧ ∀ c, InOrder s c → InOrder s' c := by
  intro s'
  obtain ⟨-, hnone⟩ := h.unused hfree
  have hlookup : ∀ i, s'.vouchers.lookup i = if i = v then some ⟨0, 1⟩ else s.vouchers.lookup i :=
    fun i => lookup_insert_eq ..
  have hne : ∀ {i}, i ∈ s.drawn → i ≠ v := by
    rintro i hi rfl
    exact hfree hi
  have hsaved : ∀ i rules, Saved s i rules → Saved s' i rules := by
    intro i rules hi
    refine ⟨Finset.mem_insert_of_mem hi.drawn, ?_, hi.seckill⟩
    rw [hlookup, if_neg (hne hi.drawn)]
    exact hi.voucher
  refine ⟨⟨fun i r hr => ?_, fun i r hr => ?_, fun i r hr htype => ?_, fun i e he => ?_⟩,
    fun c hc => hc.frame (fun i _ hi => ⟨Finset.mem_insert_of_mem hi.drawn, ?_, hi.seckill⟩) hsaved⟩
  · rw [hlookup] at hr
    split at hr
    · rename_i hiv
      rw [hiv]
      exact Finset.mem_insert_self _ _
    · exact Finset.mem_insert_of_mem (h.drawn i r hr)
  · rw [hlookup, if_neg]
    · exact h.voucher i r hr
    · rintro rfl
      rw [show s'.seckill.lookup i = s.seckill.lookup i from rfl, hnone] at hr
      cases hr
  · rw [hlookup] at hr
    split at hr
    · obtain rfl := Option.some.inj hr
      exact absurd htype (by decide)
    · exact h.seckill i r hr htype
  · obtain ⟨rules, hrows, hentry⟩ := h.opened i e he
    exact ⟨rules, hsaved i rules hrows, hentry⟩
  · rw [hlookup, if_neg (hne hi.drawn)]
    exact hi.voucher

/-- What others do leaves the store and the creations in order. -/
theorem lawful_event (h : Lawful s) (e : SaleEvent) :
    Lawful (e.apply s) ∧ ∀ c, InOrder s c → InOrder (e.apply s) c := by
  cases e with
  | tick d =>
    refine ⟨⟨h.drawn, h.voucher, h.seckill, fun v e he => ?_⟩, fun c hc => hc.frame
      (fun i _ hi => ⟨hi.drawn, hi.voucher, hi.seckill⟩) fun i rules hi => ⟨hi.drawn, hi.voucher, hi.seckill⟩⟩
    obtain ⟨hslot, -⟩ := Option.filter_eq_some_iff.mp he
    obtain ⟨rules, hrows, hentry⟩ := h.opened v e hslot
    exact ⟨rules, ⟨hrows.drawn, hrows.voucher, hrows.seckill⟩, hentry⟩
  | write k entry =>
    unfold SaleEvent.apply
    dsimp only
    split
    · exact ⟨h, fun _ hc => hc⟩
    · rename_i hnot
      refine ⟨⟨h.drawn, h.voucher, h.seckill, fun v e he => ?_⟩, fun c hc => hc.frame
        (fun i _ hi => ⟨hi.drawn, hi.voucher, hi.seckill⟩) fun i rules hi => ⟨hi.drawn, hi.voucher, hi.seckill⟩⟩
      replace he : s.redis.replace k entry (.activity v) = some e := he
      by_cases hk : Key.activity v = k
      · rw [hk, Keyspace.replace_self] at he
        exact absurd ⟨by rw [← hk]; rfl, by rw [he]; rfl⟩ hnot
      · rw [Keyspace.replace_of_ne _ _ hk] at he
        obtain ⟨rules, hrows, hentry⟩ := h.opened v e he
        exact ⟨rules, ⟨hrows.drawn, hrows.voucher, hrows.seckill⟩, hentry⟩
  | restock v stock =>
    unfold SaleEvent.apply
    dsimp only
    split
    · rename_i row hrow
      exact lawful_restock h hrow stock
    · exact ⟨h, fun _ hc => hc⟩
  | addVoucher v =>
    unfold SaleEvent.apply
    dsimp only
    split
    · exact ⟨h, fun _ hc => hc⟩
    · rename_i hfree
      exact lawful_addVoucher h hfree

end invariant

/-! ## Runs -/

/-- What holds of the store, of every creation and of any two. -/
structure Sound (p : SalePool) : Prop where
  asserts : Asserts Lawful InOrder p
  apart : Pairs Apart p

section runs

variable {s : SaleStore} {c : SaleCall} {p : SalePool}

/-- That two creations have different ids does not depend on their order. -/
theorem apart_symm (c u : SaleCall) (h : Apart c u) : Apart u c := fun id hu hc => h id hc hu

/-- The id of a creation is its own. -/
theorem id_move {d : Fate × LongId} {id : LongId} (h : (c.move d s).2.id = some id) :
    c.id = some id ∨ id ∉ s.drawn := by
  unfold SaleCall.move at h
  cases hstage : c.stage with
  | inserting =>
    rw [hstage] at h
    dsimp only at h
    split at h
    · exact .inl h
    · split at h
      · exact .inl h
      · rename_i hfree
        obtain rfl := Option.some.inj h
        exact .inr hfree
  | _ =>
    rw [hstage] at h
    exact .inl h

/-- A move keeps the terms of the sale. -/
@[simp] theorem sale_move (d : Fate × LongId) (s : SaleStore) (c : SaleCall) : (c.move d s).2.sale = c.sale := by
  unfold SaleCall.move
  repeat' first | split | dsimp only
  all_goals rfl

/-- **Every step keeps the invariant.** -/
theorem Sound.step (h : Sound p) (act : SaleAct) : Sound (sales.step p act) where
  asserts := by
    apply h.asserts.step
    · intro i sale _
      exact inOrder_start p.store sale
    · intro i d t _ ht
      have hown := h.asserts.calls i t ht
      have heffect := effect_move d p.store t
      refine ⟨h.asserts.store.effect hown heffect, inOrder_move d h.asserts.store hown, fun j u hj hu => ?_⟩
      exact (h.asserts.calls j u hu).other hown (h.apart i j t u hj.symm ht hu) heffect
    · intro e _
      obtain ⟨hlawful, hcalls⟩ := lawful_event h.asserts.store e
      exact ⟨hlawful, fun i t ht => hcalls t (h.asserts.calls i t ht)⟩
  apart := by
    apply h.apart.step apart_symm
    · intro i sale _ j u _ _ id hstart
      have hnone : (startSale sale).id = none := by
        unfold startSale
        split <;> rfl
      exact absurd (hnone.symm.trans hstart) nofun
    · intro i d t _ ht j u hj hu id hid hother
      rcases id_move hid with hbefore | hfree
      · exact h.apart i j t u hj.symm ht hu id hbefore hother
      · exact hfree ((h.asserts.calls j u hu).drawn hother)

/-- The store and the creations after the steps. -/
def SaleStore.after (s : SaleStore) (as : List SaleAct) : SalePool := Runs.run sales.step (Pool.idle s) as

/-- A run with one step more takes that step last. -/
theorem after_snoc (s : SaleStore) (as : List SaleAct) (act : SaleAct) :
    s.after (as ++ [act]) = sales.step (s.after as) act := Runs.run_append ..

/-- The invariant holds after every run. -/
theorem sound_after (h : Lawful s) (as : List SaleAct) : Sound (s.after as) :=
  Runs.run_invariant sales.step (fun _ act hp => hp.step act) as ⟨asserts_idle h, pairs_idle⟩

/-- What admissions read of a sale that is saved. -/
theorem Saved.found {id : LongId} {rules : FlashSaleRules} (h : Saved s id rules) :
    ∃ voucher, s.findFlashSale id = some voucher ∧ voucher.type = some 1 ∧ voucher.status = some 1 ∧
      flashSaleRules voucher = .ok rules := by
  obtain ⟨row, hrow, hrules⟩ := h.seckill
  refine ⟨⟨id, some 1, some 1, some row.stock, some row.beginTime, some row.endTime⟩, ?_, rfl, rfl, hrules⟩
  rw [SaleStore.findFlashSale, h.voucher, hrow]
  rfl

/-- The activity of a sale as it was opened, with its whole stock, and nobody has taken part. -/
structure Opened (s : SaleStore) (id : LongId) (sale : Sale) (as : List SaleAct) : Prop where
  opened : ∃ (N : ℕ) (rules : FlashSaleRules), sale.stock = some (N : ℤ) ∧ Saved (s.after as).store id rules ∧
    (s.after as).store.redis (.stock id) = some ⟨.str (decimal N), some rules.expiresAtMillis⟩ ∧
    (s.after as).store.redis (.activity id) = some (activityEntry rules)
  participants : (s.after as).store.redis (.order id) = none
  requests : (s.after as).store.redis (.request id) = none

/-- A creation answers an id once its activity is opened. -/
theorem created_move {d : Fate × LongId} {id : LongId} (hc : InOrder s c)
    (h : (c.move d s).2.stage = .done (.created id)) : c.stage = .done (.created id) ∨
      ∃ (N : ℕ) (rules : FlashSaleRules), c.sale.stock = some (N : ℤ) ∧ Saved (c.move d s).1 id rules ∧
        Initialized (keysOf id) N rules.beginMillis rules.endMillis rules.expiresAtMillis s.redis
          (c.move d s).1.redis := by
  unfold SaleCall.move SaleCall.reach at h
  unfold SaleCall.move
  cases hstage : c.stage with
  | publishing i arguments =>
    right
    unfold InOrder at hc
    rw [hstage] at hc h
    obtain ⟨-, rules, hrows, harguments⟩ := hc
    dsimp only at h ⊢
    split at h
    · rename_i hanswer
      cases h
      rw [hanswer.1]
      rcases initialization_cases s id harguments with ⟨-, N, hstock, hinitialized⟩ | ⟨hne, -⟩
      · exact ⟨N, rules, hstock, ⟨hrows.drawn, hrows.voucher, hrows.seckill⟩, hinitialized⟩
      · exact absurd hanswer.2 hne
    · cases h
  | inserting =>
    rw [hstage] at h
    dsimp only at h
    split at h
    · cases h
    · split at h
      · rw [hstage] at h
        cases h
      · dsimp only at h
        split at h <;> cases h
  | stocking i =>
    rw [hstage] at h
    dsimp only at h
    split at h
    · cases h
    · split at h
      · cases h
      · split at h <;> cases h
  | committing i row arguments =>
    rw [hstage] at h
    dsimp only at h
    split at h <;> cases h
  | done r =>
    rw [hstage] at h
    exact .inl (hstage.symm.trans h)

/-- **Every activity that was answered was opened.** -/
theorem opened_run (h : Lawful s) (as : List SaleAct) : ∀ i c id, (s.after as).calls i = some c →
    c.stage = .done (.created id) → Runs.Once (Opened s id c.sale) as := by
  induction as using List.reverseRecOn with
  | nil =>
    intro i c id hc
    cases hc
  | append_singleton as act ih =>
    intro i c id hc hstage
    have hlast := after_snoc s as act
    rcases sales.step_cases (s.after as) act with hstep | ⟨j, sale, -, -, hstep⟩ |
      ⟨j, d, t, -, ht, hstep⟩ | ⟨e, -, hstep⟩
    · rw [hlast, hstep] at hc
      exact (ih i c id hc hstage).later [act]
    · rw [hlast, hstep] at hc
      rcases entry_of_update hc with ⟨rfl, hnew⟩ | ⟨-, hold⟩
      · rw [hnew] at hstage
        replace hstage : (startSale sale).stage = .done (.created id) := hstage
        unfold startSale at hstage
        split at hstage <;> cases hstage
      · exact (ih i c id hold hstage).later [act]
    · rw [hlast, hstep] at hc
      rcases entry_of_update hc with ⟨rfl, hnew⟩ | ⟨-, hold⟩
      · subst hnew
        replace hstage : (t.move d (s.after as).store).2.stage = .done (.created id) := hstage
        have hsale : (sales.move d (s.after as).store t).2.sale = t.sale := sale_move d _ t
        rw [hsale]
        have hown := (sound_after h as).asserts.calls i t ht
        rcases created_move hown hstage with hbefore | ⟨N, rules, hstock, hrows, hinitialized⟩
        · exact (ih i t id ht hbefore).later [act]
        · refine Runs.once_now ?_
          have hstore : (s.after (as ++ [act])).store = (t.move d (s.after as).store).1 := by
            rw [hlast, hstep]
            rfl
          refine ⟨⟨N, rules, hstock, ?_, ?_, ?_⟩, ?_, ?_⟩
          · rw [hstore]
            exact hrows
          · rw [hstore]
            exact hinitialized.stock
          · rw [hstore]
            exact hinitialized.activity
          · rw [hstore]
            exact hinitialized.participants
          · rw [hstore]
            exact hinitialized.request
      · exact (ih i c id hold hstage).later [act]
    · rw [hlast, hstep] at hc
      exact (ih i c id hc hstage).later [act]

end runs

/-- **An activity that is open.** Whatever creations fail, lose their answers or are cut off, an activity that is in
Redis is one of a sale that is committed, and admissions read of its rows the window that Redis has: the fractions
of its times are gone before both. -/
theorem open_sale_truthful {s : SaleStore} (h : Lawful s) (as : List SaleAct) {v : LongId} {e : Entry}
    (he : (s.after as).store.redis (.activity v) = some e) : ∃ voucher rules,
      (s.after as).store.findFlashSale v = some voucher ∧ voucher.type = some 1 ∧ voucher.status = some 1 ∧
        flashSaleRules voucher = .ok rules ∧ e = activityEntry rules := by
  obtain ⟨rules, hsaved, hentry⟩ := (sound_after h as).asserts.store.opened v e he
  obtain ⟨voucher, hfound, htype, hstatus, hrules⟩ := hsaved.found
  exact ⟨voucher, rules, hfound, htype, hstatus, hrules, hentry⟩

/-- No voucher, and nothing in Redis. -/
def noSales : SaleStore := ⟨fun _ => none, 0, ∅, ∅, ∅⟩

/-- Where there is nothing, everything is in order. -/
theorem noSales_lawful : Lawful noSales where
  drawn v row hrow := by
    rw [show noSales.vouchers = ∅ from rfl, Finmap.lookup_empty] at hrow
    cases hrow
  voucher v row hrow := by
    rw [show noSales.seckill = ∅ from rfl, Finmap.lookup_empty] at hrow
    cases hrow
  seckill v row hrow _ := by
    rw [show noSales.vouchers = ∅ from rfl, Finmap.lookup_empty] at hrow
    cases hrow
  opened v e he := by cases he

/-- The id of a first voucher. -/
def voucherTen : LongId := ⟨10, by decide, by decide⟩

/-- A sale whose times would be rounded up. -/
def fractions : Sale := ⟨some 2, some ⟨1, 999999999⟩, some ⟨2, 700000000⟩⟩

/-- Its creation. -/
def firstSale : List SaleAct :=
  [.enter 0 fractions, .move 0 (.answered, voucherTen), .move 0 (.answered, voucherTen),
    .move 0 (.answered, voucherTen), .move 0 (.answered, voucherTen)]

/-- The activity of the first sale is the one of its rows. -/
theorem firstSale_open : ∃ e voucher rules, (noSales.after firstSale).store.redis (.activity voucherTen) = some e ∧
    (noSales.after firstSale).store.findFlashSale voucherTen = some voucher ∧ voucher.type = some 1 ∧
      voucher.status = some 1 ∧ flashSaleRules voucher = .ok rules ∧ e = activityEntry rules := by
  have hsome : ((noSales.after firstSale).store.redis (.activity voucherTen)).isSome := by decide +kernel
  obtain ⟨e, he⟩ := Option.isSome_iff_exists.mp hsome
  obtain ⟨voucher, rules, h⟩ := open_sale_truthful noSales_lawful firstSale he
  exact ⟨e, voucher, rules, he, h⟩

/-- **What a creation answers.** An id: the sale is committed, and its activity was opened with its whole stock.
That the initialization is unconfirmed: the sale is committed. Any other refusal: no row and no activity has the id of
the creation. An exception: both rows are there, or none. -/
theorem sale_answer_truthful {s : SaleStore} (h : Lawful s) (as : List SaleAct) {i : ℕ} {c : SaleCall} {r : SaleResult}
    (hc : (s.after as).calls i = some c) (hdone : c.stage = .done r) :
    (∀ id, r = .created id → c.id = some id ∧ (∃ rules, Saved (s.after as).store id rules) ∧
      Runs.Once (Opened s id c.sale) as) ∧
    (r = .refused unconfirmed → ∃ id rules, c.id = some id ∧ Saved (s.after as).store id rules) ∧
    (∀ e, r = .refused e → e ≠ unconfirmed → ∀ id, c.id = some id →
      Unused (s.after as).store id ∧ (s.after as).store.redis (.activity id) = none) ∧
    (r = .thrown → ∀ id, c.id = some id →
      Unused (s.after as).store id ∨ ∃ rules, Saved (s.after as).store id rules) := by
  have horder := (sound_after h as).asserts.calls i c hc
  unfold InOrder at horder
  rw [hdone] at horder
  refine ⟨fun id hr => ?_, fun hr => ?_, fun e hr => ?_, fun hr => ?_⟩
  · subst hr
    exact ⟨horder.1, horder.2, opened_run h as i c id hc hdone⟩
  · subst hr
    exact horder.1 rfl
  · subst hr
    intro hne id hid
    have hunused := horder.2 hne id hid
    refine ⟨hunused, ?_⟩
    cases hslot : (s.after as).store.redis (.activity id) with
    | none => rfl
    | some entry =>
      obtain ⟨rules, hsaved, -⟩ := (sound_after h as).asserts.store.opened id entry hslot
      exact absurd (hunused.voucher.symm.trans hsaved.voucher) nofun
  · subst hr
    exact horder

/-- The first creation answers an id, and its activity was opened. -/
theorem firstSale_created :
    (∀ id, SaleResult.created voucherTen = .created id → some voucherTen = some id ∧
      (∃ rules, Saved (noSales.after firstSale).store id rules) ∧
      Runs.Once (Opened noSales id fractions.normalized) firstSale) ∧
    (SaleResult.created voucherTen = .refused unconfirmed → ∃ id rules, some voucherTen = some id ∧
      Saved (noSales.after firstSale).store id rules) ∧
    (∀ e, SaleResult.created voucherTen = .refused e → e ≠ unconfirmed → ∀ id, some voucherTen = some id →
      Unused (noSales.after firstSale).store id ∧
        (noSales.after firstSale).store.redis (.activity id) = none) ∧
    (SaleResult.created voucherTen = .thrown → ∀ id, some voucherTen = some id →
      Unused (noSales.after firstSale).store id ∨ ∃ rules, Saved (noSales.after firstSale).store id rules) :=
  sale_answer_truthful noSales_lawful firstSale (i := 0)
    (c := ⟨fractions.normalized, some voucherTen, .done (.created voucherTen)⟩) (by decide +kernel) rfl

end CampusHub.FlashSale.Creation
