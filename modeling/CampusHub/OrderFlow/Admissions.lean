import CampusHub.FlashSale.OrderIds
import CampusHub.Access.Requests
import CampusHub.OrderFlow.Coverage

/-!
# Admissions

A request to take part is answered after five calls: the account, the voucher, the clock of the instance, the
counter of the order ids, and the script. The calls of the requests interleave with each other and with all
that the order flow does, and any of them may fail or lose its answer.

* `Terms`, `AdmissionCall`, `admissions` — a request between two of its calls, and the system.
* `Reachable` — what the order flow does by itself, its admissions drawing fresh order ids.
* `Settled` — the invariant; `settled_run` — it holds along every run.
* `admissions_refine` — the requests do nothing but what the order flow does by itself.
* `acceptances_kept` — what an acceptance stands for ever after.
* `answers_explained` — what was true when a request was answered.

Everything else in `OrderFlow` speaks of worlds in which admissions draw fresh ids and are made by users who
may take part. Here are the requests themselves, with the checks that the service makes and the id worker
that it asks. `admissions_refine` is the link: in any run of requests, consumers, cancellations and
operators, while the clocks show times in range and no day is counted up, the world is one that the order
flow reaches by itself with fresh ids, so that every result about it holds of the service.

**Proof route.** The id worker's invariant (`OrderIds.Counted`) makes the next id fresh while no day is
counted up (`next_ne`), and a request holds its id alone until the script is called (`Apart`). The terms
that a request has read may be old, but the script does not depend on what can have changed in them
(`Terms.Valid.admission_eq`). For the answers, the early returns of the script are taken one by one, each
with what it says about the world (`refusal_explained`), and a request collects its story call by call.

**Left out.** The HTTP layer in front of the service, and how the account of a request was authenticated.
-/

namespace CampusHub.OrderFlow.Admissions

open CampusHub.Access (AccountRole Principal Guard)
open CampusHub.Domain CampusHub.Redis CampusHub.Foundations CampusHub.Foundations.Guards
open CampusHub.Foundations.Decimal CampusHub.Foundations.Lua CampusHub.Foundations.Maps
open CampusHub.Foundations.Pools
open CampusHub.FlashSale CampusHub.FlashSale.Rules CampusHub.FlashSale.Scripts
open CampusHub.FlashSale.Initialization CampusHub.FlashSale.Admission CampusHub.FlashSale.Release

/-! ## Requests -/

/-- A request, by whoever is authenticated. -/
structure Request where
  who : Option Principal
  voucherId : Option ℤ

/-- A positive `long`. -/
def longOf (z : ℤ) : Option LongId :=
  if h : 0 < z ∧ z ≤ longMax then some ⟨z.toNat, by omega, by omega⟩ else none

/-- What a request reads of the database, for its call of the script. -/
structure Terms where
  userId : LongId
  voucherId : LongId
  voucher : Voucher
  rules : FlashSaleRules

/-- What a request ends with. -/
inductive AdmissionResult where
  /-- Source: `OrderAcceptanceResult.java`. -/
  | accepted (orderId : LongId) (replayed : Bool)
  | refused (e : BusinessException)
  | raised
  deriving DecidableEq

/-- Where a request is. -/
inductive AdmissionStage where
  /-- Before `findAccountStatus`. Source: `FlashSaleAdmissionService.java` 51. -/
  | checking (userId : ℤ) (voucherId : LongId)
  /-- Before `findFlashSale`. Source: `FlashSaleAdmissionService.java` 54. -/
  | finding (userId voucherId : LongId)
  /-- Before the clock of the instance is read. Source: `RedisIdWorker.java` 25. -/
  | reading (t : Terms)
  /-- Before `INCR`. Source: `RedisIdWorker.java` 29. -/
  | drawing (t : Terms) (now : OrderIds.LocalDateTime)
  /-- Before the script. Source: `FlashSaleAdmissionService.java` 64. -/
  | admitting (t : Terms) (orderId : LongId)
  | done (r : AdmissionResult)

structure AdmissionCall where
  request : Request
  stage : AdmissionStage

/-- The order flow, with the counters of the order ids, the increments made so far, and the status of the
accounts. -/
structure AdmissionStore where
  world : World
  counters : FiniteMap String ℕ
  issued : List OrderIds.Issue
  status : LongId → Option String

/-- Source: `FlashSaleAdmissionService.java` 63, 70, 85, 94. -/
def unconfirmed : BusinessException := { errorCode := .activityUnavailable }

/-- Source: `FlashSaleAdmissionService.java` 46–53. -/
def enter (r : Request) : AdmissionStage :=
  match r.voucherId.bind longOf, r.who with
  | none, _ => .done (.refused { errorCode := .validationFailed })
  | some _, none => .done (.refused { errorCode := .authenticationFailed })
  | some v, some who =>
    if Guard.evaluate who .participate = .allow then .checking who.id v
    else .done (.refused { errorCode := .authorizationFailed })

/-- Source: `FlashSaleAdmissionService.java` 54–58. -/
def findTerms (c : Config) (w : World) (userId voucherId : LongId) : Except BusinessException Terms := do
  let voucher ← getOr (c.findFlashSale w.db voucherId) ⟨.notFound, "限量活动不存在"⟩
  ensure (voucher.type = some 1) ⟨.notFound, "限量活动不存在"⟩
  let rules ← flashSaleRules voucher
  .ok ⟨userId, voucherId, voucher, rules⟩

/-- The count of the next increment. -/
def AdmissionStore.count (s : AdmissionStore) (now : OrderIds.LocalDateTime) : ℕ :=
  (s.counters.lookup (OrderIds.counterKey "order" now)).getD 0 + 1

/-- Source: `RedisIdWorker.java` 29. -/
def AdmissionStore.increment (s : AdmissionStore) (now : OrderIds.LocalDateTime) : AdmissionStore :=
  { s with
    counters := s.counters.insert (OrderIds.counterKey "order" now) (s.count now)
    issued := s.issued ++ [⟨now, s.count now⟩] }

/-- The call of the script. Source: `FlashSaleAdmissionService.java` 64–66. -/
def Terms.script (t : Terms) (orderId : LongId) (appended : Bool) (w : World) : Outcome Reply × Keyspace Key :=
  Plan.run w.now (seckill w.now appended w.redis (activityKeys t.voucherId ++ [.orders])
    (admissionArguments t.voucher t.rules t.userId orderId)) w.redis

/-- The world after that call, with what was answered. -/
def Terms.admission (t : Terms) (orderId : LongId) (appended : Bool) (w : World) : World :=
  { w with
    redis := (t.script orderId appended w).2
    candidates := insert orderId w.candidates
    accepted := if accepts (t.script orderId appended w).1 = true then
        Function.update w.accepted t.voucherId ((w.accepted t.voucherId).insert t.userId orderId)
      else w.accepted }

/-- Source: `FlashSaleAdmissionService.java` 74–95. -/
def decode (reply : Reply) : AdmissionResult :=
  if reply.code = 0 ∨ reply.code = 9 then
    match (parseLong reply.text).bind longOf with
    | some id => .accepted id (decide (reply.code = 9))
    | none => .refused unconfirmed
  else if reply.code = 1 then .refused { errorCode := .soldOut }
  else if reply.code = 2 then .refused { errorCode := .alreadyParticipated }
  else if reply.code = 4 then .refused { errorCode := .activityNotStarted }
  else if reply.code = 5 then .refused { errorCode := .activityEnded }
  else if reply.code = 6 then .refused { errorCode := .activityInactive }
  else if reply.code = 7 then .refused { errorCode := .authorizationFailed }
  else .refused unconfirmed

/-- An error of Redis is caught. Source: `FlashSaleAdmissionService.java` 68–71. -/
def answer : Outcome Reply → AdmissionResult
  | .answer reply => decode reply
  | .raised _ => .refused unconfirmed

/-- What a step depends on: what becomes of its call, what the clock of the instance shows, and whether the
server takes the entry. -/
structure Chance where
  fate : Fate
  reading : OrderIds.LocalDateTime
  appended : Bool

namespace AdmissionCall

variable (call : AdmissionCall)

/-- The request at another place. -/
def reach (stage : AdmissionStage) : AdmissionCall := { call with stage := stage }

/-- The next step of a request. -/
def move (c : Config) (d : Chance) (s : AdmissionStore) : AdmissionStore × AdmissionCall :=
  match call.stage with
  | .checking userId v =>
    (s, call.reach <|
      if d.fate ≠ .answered then .done .raised
      else
        match longOf userId with
        | some u =>
          if s.status u = some "ACTIVE" then .finding u v
          else .done (.refused { errorCode := .authorizationFailed })
        | none => .done (.refused { errorCode := .authorizationFailed }))
  | .finding u v =>
    (s, call.reach <|
      if d.fate ≠ .answered then .done .raised
      else
        match findTerms c s.world u v with
        | .ok t => .reading t
        | .error e => .done (.refused e))
  | .reading t => (s, call.reach (.drawing t d.reading))
  | .drawing t now =>
    (d.fate.perform (fun s => s.increment now) s,
      call.reach <|
        if d.fate ≠ .answered then .done (.refused unconfirmed)
        else
          match longOf (OrderIds.nextId now (s.count now)).toInt with
          | some orderId => .admitting t orderId
          | none => .done (.refused unconfirmed))
  | .admitting t orderId =>
    (d.fate.perform (fun s => { s with world := t.admission orderId d.appended s.world }) s,
      call.reach <| .done <|
        if d.fate = .answered then answer (t.script orderId d.appended s.world).1 else .refused unconfirmed)
  | .done _ => (s, call)

end AdmissionCall

/-- What others do: anything of the order flow but an admission, and changes of an account. -/
inductive Surroundings where
  | act (a : Act)
  | setStatus (userId : LongId) (status : Option String)

/-- An admission of the order flow by itself is none of these. -/
def Surroundings.apply (c : Config) (s : AdmissionStore) : Surroundings → AdmissionStore
  | .act (.admitVoucher _ _ _ _) => s
  | .act a => { s with world := step c s.world a }
  | .setStatus userId status => { s with status := Function.update s.status userId status }

/-- Requests over the stores. -/
def admissions (c : Config) : System AdmissionStore Request AdmissionCall Chance Surroundings where
  enter _ r := ⟨r, enter r⟩
  move d s call := call.move c d s
  drift e s := e.apply c s

abbrev AdmissionPool := Pool AdmissionStore AdmissionCall

abbrev AdmissionAct := PoolAct Request Chance Surroundings

/-- Nobody has asked yet. -/
def startStore (c : Config) (now clock : ℕ) (status : LongId → Option String) : AdmissionStore :=
  ⟨initial c now clock, ∅, [], status⟩

/-- The state after a run. -/
def reached (c : Config) (s : AdmissionStore) (as : List AdmissionAct) : AdmissionPool :=
  Runs.run (admissions c).step (Pool.idle s) as

/-! ## Order ids -/

section ids

/-- A positive `long` is its own number. -/
theorem longOf_eq_some {z : ℤ} {i : LongId} : longOf z = some i ↔ z = i.val := by
  unfold longOf
  constructor
  · intro h
    split at h
    · obtain rfl := Option.some.inj h
      dsimp only
      omega
    · cases h
  · rintro rfl
    have hpos := i.pos
    have hle := i.le_max
    rw [dif_pos ⟨by omega, by omega⟩]
    simp

/-- The order id of an increment. -/
def orderOf (i : OrderIds.Issue) : Option LongId := longOf i.id.toInt

/-- An order id is that of one number. -/
theorem id_eq_of_orderOf {i j : OrderIds.Issue} {id : LongId} (hi : orderOf i = some id)
    (hj : orderOf j = some id) : i.id = j.id :=
  BitVec.eq_of_toInt_eq ((longOf_eq_some.mp hi).trans (longOf_eq_some.mp hj).symm)

/-- The counters with the increments, while nobody is between its two steps. -/
def AdmissionStore.ids (s : AdmissionStore) : OrderIds.State := ⟨s.counters, fun _ => none, s.issued⟩

/-- No day sees `2 ^ 32` increments. -/
def Fits (s : AdmissionStore) : Prop :=
  ∀ date, s.issued.countP (fun i => decide (i.now.date = date)) < 2 ^ 32

variable {s : AdmissionStore} {now : OrderIds.LocalDateTime}

/-- An increment keeps the counters right. -/
theorem counted_increment (h : OrderIds.Counted "order" s.ids) (hnow : now.InRange) :
    OrderIds.Counted "order" (s.increment now).ids := by
  have hread : OrderIds.Counted "order" ⟨s.counters, fun _ => some now, s.issued⟩ := by
    refine ⟨h.counters, h.ordered, h.bounded, h.inRange, fun _ now' heq => ?_⟩
    exact Option.some.inj heq ▸ hnow
  have hnext : OrderIds.Counted "order"
      (OrderIds.step "order" ⟨s.counters, fun _ => some now, s.issued⟩ (.increment 0)) := hread.increment rfl
  exact ⟨hnext.counters, hnext.ordered, hnext.bounded, hnext.inRange, fun _ _ heq => by cases heq⟩

/-- **The next number is none of those before.** -/
theorem next_ne (h : OrderIds.Counted "order" s.ids) (hnow : now.InRange) (hfits : Fits (s.increment now))
    {i : OrderIds.Issue} (hi : i ∈ s.issued) : i.id ≠ OrderIds.nextId now (s.count now) := by
  have hnext := counted_increment h hnow
  have hold : i ∈ (s.increment now).ids.issued := List.mem_append_left _ hi
  have hnew : (⟨now, s.count now⟩ : OrderIds.Issue) ∈ (s.increment now).ids.issued :=
    List.mem_append_right _ List.mem_cons_self
  intro heq
  obtain ⟨hsame, hcount⟩ := OrderIds.eq_of_nextId_eq (hnext.inRange i hold) hnow (hnext.count_lt hfits hold)
    (hnext.count_lt hfits hnew) heq
  have hlt := (List.pairwise_append.mp hnext.ordered).2.2 i hi _ List.mem_cons_self (congrArg _ hsame)
  exact absurd hcount hlt.ne

end ids

/-! ## The order flow by itself -/

section flow

variable {c : Config} {now clock : ℕ} {w : World}

/-- The order flow gets here by itself, and its admissions draw fresh order ids. -/
def Reachable (c : Config) (now clock : ℕ) (w : World) : Prop :=
  ∃ as, w = Runs.run (step c) (initial c now clock) as ∧
    Runs.Along FreshIds (step c) (initial c now clock) as

/-- The first world is reached. -/
theorem reachable_initial : Reachable c now clock (initial c now clock) := ⟨[], rfl, trivial⟩

/-- One step more, with a fresh order id. -/
theorem Reachable.step (h : Reachable c now clock w) {a : Act} (hfresh : FreshIds w a) :
    Reachable c now clock (OrderFlow.step c w a) := by
  obtain ⟨as, rfl, has⟩ := h
  refine ⟨as ++ [a], ?_, (Runs.along_append _ as [a] _).mpr ⟨has, hfresh, trivial⟩⟩
  rw [Runs.run_append]
  rfl

/-- What is reached keeps the custody of the orders. -/
theorem Reachable.custody (h : Reachable c now clock w) : CustodyInv c w := by
  obtain ⟨as, rfl, has⟩ := h
  exact (custodyInv_initial c now clock).run has

/-- What was accepted stays accepted. -/
theorem accepted_step (h : WorldInv c w) {o : VoucherOrder} (ho : w.Accepted o) (a : Act) :
    (OrderFlow.step c w a).Accepted o :=
  (step_move h.ready a).accepted h.phase ho

/-- Only admissions draw order ids. -/
theorem candidates_step {a : Act} (ha : ∀ v u o appended, a ≠ .admitVoucher v u o appended) :
    (OrderFlow.step c w a).candidates = w.candidates := by
  cases a with
  | admitVoucher v u o appended => exact absurd rfl (ha v u o appended)
  | persist k lost =>
    simp only [OrderFlow.step, consume, persist]
    split
    · split <;> rfl
    · rfl
  | _ =>
    simp only [OrderFlow.step, consume]
    try split
    all_goals rfl

end flow

/-! ## Terms -/

section terms

variable {c : Config} {w : World} {t : Terms} {userId voucherId orderId : LongId} {appended : Bool}

/-- The terms are those of the voucher; of its stock they depend on nothing. -/
structure Terms.Valid (c : Config) (t : Terms) : Prop where
  voucher : ∃ voucher, c.vouchers.lookup t.voucherId = some voucher ∧ voucher.type = some 1 ∧
    flashSaleRules voucher = .ok t.rules ∧ t.voucher.status = voucher.status
  id : t.voucher.id = t.voucherId

/-- The terms that are read are valid, and of the user and the voucher of the request. -/
theorem findTerms_ok (h : findTerms c w userId voucherId = .ok t) :
    t.Valid c ∧ t.userId = userId ∧ t.voucherId = voucherId := by
  simp only [findTerms, getOr_bind_eq_ok, ensure_bind_eq_ok, Config.findFlashSale, Option.map_eq_some_iff] at h
  obtain ⟨voucher, ⟨stored, hstored, rfl⟩, htype, h⟩ := h
  obtain ⟨rules, hrules, h⟩ := exists_of_bind_eq_ok h
  obtain rfl := Except.ok.inj h
  exact ⟨⟨⟨stored, hstored, htype, hrules, rfl⟩, (c.key hstored : stored.id = voucherId)⟩, rfl, rfl⟩

/-- **An admission of a request is one of the order flow**, however old the terms are. -/
theorem Terms.Valid.admission_eq (h : t.Valid c) :
    t.admission orderId appended w = step c w (.admitVoucher t.voucherId t.userId orderId appended) := by
  obtain ⟨⟨stored, hstored, htype, hrules, hstatus⟩, hid⟩ := h
  have hfound : c.findFlashSale w.db t.voucherId = some { stored with stock := w.db.stock.lookup t.voucherId } := by
    rw [Config.findFlashSale, hstored, Option.map_some]
  have hrules' : flashSaleRules { stored with stock := w.db.stock.lookup t.voucherId } = .ok t.rules := hrules
  have hvalues : admissionArguments { stored with stock := w.db.stock.lookup t.voucherId } t.rules t.userId
      orderId = admissionArguments t.voucher t.rules t.userId orderId := by
    simp only [admissionArguments, hstatus, hid, c.key hstored]
  have hsame : admitVoucher c w t.voucherId t.userId orderId appended = .ok (t.script orderId appended w) := by
    rw [admitVoucher, hfound, getOr_some_bind, ensure_of htype, hrules', Terms.script, ← hvalues]
    rfl
  simp only [step, hsame]
  rfl

end terms

/-! ## Participants -/

section participants

variable {c : Config} {w w' : World} {v : LongId}

/-- Whoever takes part has an order. -/
def Enrolled (ks : Keyspace Key) (v : LongId) : Prop :=
  ∀ user ∈ ks.members (.order v), ks.hget (.request v) user ≠ none

/-- Nobody takes part in an activity that is not there. -/
theorem enrolled_of_absent {ks : Keyspace Key} (h : ks (.order v) = none) : Enrolled ks v := by
  intro user huser
  rw [Keyspace.members, h] at huser
  cases huser

/-- Who takes part is read off two keys. -/
theorem Enrolled.congr {ks ks' : Keyspace Key} (h : Enrolled ks v) (horder : ks' (.order v) = ks (.order v))
    (hrequest : ks' (.request v) = ks (.request v)) : Enrolled ks' v := by
  intro user huser
  rw [Keyspace.members_congr horder] at huser
  rw [Keyspace.hget_congr hrequest]
  exact h user huser

/-- Both keys of an activity expire together. -/
theorem Enrolled.expire (h : Enrolled w.redis v) (hphase : Phase c w v) (now : ℕ) :
    Enrolled (w.redis.purge now) v := by
  rcases hphase with hun | @⟨N, r, -, -, hactivity⟩ | ⟨-, -, habsent, -⟩
  · exact enrolled_of_absent (Keyspace.purge_of_none (hun.absent _ (by simp [voucherKeys])))
  · rcases le_or_gt now r.expiresAtMillis with hle | hlt
    · refine h.congr ?_ ?_
      · rcases hactivity.participants with hk | ⟨members, hk⟩
        · rw [Keyspace.purge_of_none hk, hk]
        · rw [Keyspace.purge_of_le hk hle, hk]
      · rcases hactivity.request with hk | ⟨fields, hk⟩
        · rw [Keyspace.purge_of_none hk, hk]
        · rw [Keyspace.purge_of_le hk hle, hk]
    · exact enrolled_of_absent (hactivity.expire hlt _ (by simp [voucherKeys]))
  · exact enrolled_of_absent (Keyspace.purge_of_none (habsent _ (by simp [voucherKeys])))

/-- Whatever a move does to the voucher, whoever takes part has an order. -/
theorem Enrolled.turn (h : Enrolled w.redis v) (hphase : Phase c w v) (t : Turn c w v w') :
    Enrolled w'.redis v := by
  cases t with
  | same hkeys _ _ _ =>
    exact h.congr (hkeys _ (by simp [voucherKeys])) (hkeys _ (by simp [voucherKeys]))
  | expire hkeys _ _ _ =>
    rw [hkeys]
    exact h.expire hphase w'.now
  | publish _ _ _ hinit _ _ _ => exact enrolled_of_absent hinit.participants
  | @admitVoucher u o n x hadmitted _ _ _ =>
    have horder : w'.redis (.order v) = some ⟨.set (insert u.text (w.redis.members (.order v))), some x⟩ :=
      hadmitted.participants
    have hrequest : w'.redis (.request v) =
        some ⟨.hash ((w.redis.fields (.request v)).insert u.text o.text), some x⟩ := hadmitted.request
    intro user huser
    simp only [Keyspace.members, horder, Finset.mem_insert] at huser
    simp only [Keyspace.hget, Keyspace.fields, hrequest, lookup_insert_eq]
    split
    · exact Option.some_ne_none _
    · exact h user (huser.resolve_left ‹_›)
  | release _ _ _ hdone _ _ _ =>
    exact h.congr (hdone.frame _ (by simp [releaseKeysOf]) (by simp [releaseKeysOf]))
      (hdone.frame _ (by simp [releaseKeysOf]) (by simp [releaseKeysOf]))

/-- In every world that is reached, whoever takes part has an order. -/
theorem Reachable.enrolled {now clock : ℕ} (h : Reachable c now clock w) (v : LongId) : Enrolled w.redis v := by
  obtain ⟨as, rfl, -⟩ := h
  refine (Runs.run_invariant (I := fun w => WorldInv c w ∧ Enrolled w.redis v) _ (fun w a hw => ?_) as
    ⟨worldInv_initial c now clock, enrolled_of_absent rfl⟩).2
  exact ⟨hw.1.step a, hw.2.turn (hw.1.phase v) ((step_move hw.1.ready a).turn v)⟩

end participants

/-! ## Answers of the script -/

/-- The sale of the terms is on, and the user has no order. -/
structure OnSale (c : Config) (w : World) (t : Terms) (N : ℕ) : Prop where
  published : Published c t.voucherId N t.rules
  begin_le : t.rules.beginMillis ≤ w.now
  lt_end : w.now < t.rules.endMillis
  no_order : (w.accepted t.voucherId).lookup t.userId = none

/-- **What an answer says** of the world in which the script was called. -/
def Explains (c : Config) (w : World) (t : Terms) (orderId : LongId) : AdmissionResult → Prop
  | .accepted id false => id = orderId ∧ ∃ N, OnSale c w t N ∧
      (w.accepted t.voucherId).keys.card < N + (w.released t.voucherId).keys.card
  | .accepted id true => w.Accepted ⟨id, t.userId, t.voucherId⟩
  | .refused e =>
    match e.errorCode with
    | .soldOut => ∃ N, OnSale c w t N ∧
        (w.accepted t.voucherId).keys.card = N + (w.released t.voucherId).keys.card
    | .activityNotStarted => w.now < t.rules.beginMillis
    | .activityEnded => t.voucher.status = some 3 ∨ t.rules.endMillis ≤ w.now
    | .activityInactive => t.voucher.status ≠ some 1
    | .activityUnavailable => True
    | _ => False
  | .raised => False

section answers

variable {c : Config} {now clock : ℕ} {w : World} {t : Terms} {orderId : LongId} {appended : Bool}

/-- The text of an id is read back. -/
theorem parseLong_text (i : LongId) : (parseLong i.text).bind longOf = some i := by
  have hmax : (i.val : ℤ) ≤ llongMax := by
    have hle := i.le_max
    unfold llongMax longMax at *
    omega
  rw [LongId.text, parseLong_decimal hmax, Option.bind_some]
  exact longOf_eq_some.mpr rfl

/-- A number whose text is a decimal one is that natural number. -/
theorem valueOf_eq_decimal {z : Option ℤ} {n : ℕ} : valueOf z = decimal n ↔ z = some (n : ℤ) := by
  constructor
  · intro h
    cases z with
    | none =>
      have hmem : 'n' ∈ (decimal n).toList := h ▸ (by decide : 'n' ∈ "null".toList)
      exact absurd hmem (not_mem_decimal (by decide) n)
    | some z =>
      change counterText z = decimal n at h
      unfold counterText at h
      split at h
      · have hmem : '-' ∈ (decimal n).toList := by
          rw [← h, String.toList_append]
          exact List.mem_append_left _ (by decide)
        exact absurd hmem (not_mem_decimal (by decide) n)
      · rw [decimal_inj] at h
        rw [Option.some.injEq]
        omega
  · rintro rfl
    exact counterText_natCast n

/-- The order that the request hash has for a user is accepted. -/
theorem accepted_of_request (h : WorldInv c w) {v u : LongId} {text : String}
    (htext : w.redis.hget (.request v) u.text = some text) : ∃ i : LongId, text = i.text ∧ w.Accepted ⟨i, u, v⟩ := by
  have hnone : w.redis (.request v) = none → False := fun habsent => by
    rw [Keyspace.hget, Keyspace.fields, habsent] at htext
    cases htext
  rcases h.phase v with hun | ⟨-, -, hactivity⟩ | ⟨-, -, habsent, -⟩
  · exact (hnone (hun.absent _ (by simp [voucherKeys]))).elim
  · rw [hactivity.recorded, Option.map_eq_some_iff] at htext
    obtain ⟨i, hi, rfl⟩ := htext
    exact ⟨i, rfl, hi⟩
  · exact (hnone (habsent _ (by simp [voucherKeys]))).elim

/-- A live activity, as the script reads it. -/
theorem metadata_of_live {v : LongId} {N : ℕ} {r : FlashSaleRules}
    (h : Activity v N r w.redis (w.accepted v) (w.released v)) :
    w.redis.hget (.activity v) "status" = some "1" ∧
      w.redis.hget (.activity v) "beginAt" = some (decimal r.beginMillis) ∧
      w.redis.hget (.activity v) "endAt" = some (decimal r.endMillis) ∧
      w.redis.hget (.activity v) "expireAt" = some (decimal r.expiresAtMillis) := by
  simp [Keyspace.hget, Keyspace.fields, h.activity, writeFields, metadata]

/-- A check of what the keys hold. -/
theorem explains_ensure {β : Type} {p : Prop} [Decidable p] {f : Unit → Checked Reply β}
    (h : p → Raises (fun o => Explains c w t orderId (answer o)) (f ())) :
    Raises (fun o => Explains c w t orderId (answer o)) (ensure p (reject 8) >>= f) :=
  raises_ensure_bind.mpr ⟨fun _ => trivial, h⟩

/-- A read whose value may be missing, which the script answers with `8`. -/
theorem explains_getOr {α β : Type} {o : Option α} {f : α → Checked Reply β}
    (h : ∀ a, o = some a → Raises (fun o => Explains c w t orderId (answer o)) (f a)) :
    Raises (fun o => Explains c w t orderId (answer o)) (getOr o (reject 8) >>= f) :=
  raises_getOr_bind.mpr ⟨fun _ => trivial, h⟩

/-- The terms are those of the publication. -/
theorem Terms.Valid.rules_eq (h : t.Valid c) {N : ℕ} {r : FlashSaleRules} (hpublished : Published c t.voucherId N r) :
    r = t.rules := by
  obtain ⟨voucher, hvoucher, hrules, -⟩ := hpublished.voucher
  obtain ⟨⟨voucher', hvoucher', -, hrules', -⟩, -⟩ := h
  obtain rfl := Option.some.inj (hvoucher.symm.trans hvoucher')
  exact Except.ok.inj (hrules.symm.trans hrules')

/-- The window is read as it was written. -/
theorem tonumber_window (r : FlashSaleRules) :
    tonumber (decimal r.beginMillis) = some (.ofNat r.beginMillis) ∧
      tonumber (decimal r.endMillis) = some (.ofNat r.endMillis) := by
  have hend := r.end_le
  have hwindow := r.begin_lt_end
  constructor
  · exact tonumber_decimal (by omega)
  · exact tonumber_decimal (by omega)

/-- **Why the script refuses.** -/
theorem refusal_explained (hw : Reachable c now clock w) (ht : t.Valid c) :
    Raises (fun o => Explains c w t orderId (answer o)) (seckill w.now appended w.redis
      (keysOf t.voucherId).list (admissionArguments t.voucher t.rules t.userId orderId)) := by
  have hworld := hw.custody.world
  have hwindow := t.rules.begin_lt_end
  obtain ⟨hb, he⟩ := tonumber_window t.rules
  unfold seckill AdmissionKeys.list admissionArguments
  dsimp only [keysOf]
  -- The types of the keys.
  apply explains_ensure
  intro _
  apply explains_ensure
  intro _
  apply explains_ensure
  intro _
  apply explains_ensure
  intro _
  apply explains_ensure
  intro _
  rw [ensure_of rfl, raises_absentOr_bind]
  refine ⟨fun previous hprevious => ?_, fun hnone => ?_⟩
  · obtain ⟨i, rfl, hi⟩ := accepted_of_request hworld hprevious
    show Explains c w t orderId (decode ⟨9, i.text⟩)
    simp only [decode, parseLong_text]
    exact hi
  have hnew : t.userId.text ∉ w.redis.members (.order t.voucherId) := fun hmem =>
    hw.enrolled t.voucherId _ hmem hnone
  rw [ensure_of hnew, raises_ensure_bind]
  refine ⟨fun hthree => .inl ?_, fun _ => ?_⟩
  · exact valueOf_eq_decimal.mp (not_not.mp hthree)
  rw [raises_ensure_bind]
  refine ⟨fun hone hstatus => hone ?_, fun _ => ?_⟩
  · rw [hstatus]
    rfl
  rw [hb, he, getOr_some_bind, getOr_some_bind, ensure_of (by simpa using hwindow), raises_ensure_bind]
  refine ⟨fun hearly => ?_, fun hbegin => ?_⟩
  · show w.now < t.rules.beginMillis
    simpa using hearly
  rw [raises_ensure_bind]
  refine ⟨fun hlate => .inr (by simpa using hlate), fun hnow => ?_⟩
  simp only [lt_ofNat, le_ofNat, decide_eq_false_iff_not, not_lt, not_le] at hbegin hnow
  rcases hworld.phase t.voucherId with hun | ⟨hpublished, hlive, hactivity⟩ | ⟨-, -, habsent, -⟩
  · apply explains_getOr
    intro text htext
    rw [Keyspace.hget, Keyspace.fields, hun.absent _ (by simp [voucherKeys])] at htext
    cases htext
  · obtain rfl := ht.rules_eq hpublished
    obtain ⟨hstatus, hbeginAt, hendAt, -⟩ := metadata_of_live hactivity
    rw [hstatus, hbeginAt, hendAt, getOr_some_bind, getOr_some_bind, getOr_some_bind]
    apply explains_getOr
    intro expireText _
    rw [ensure_of (by decide), ensure_of rfl, ensure_of rfl, ensure_of rfl, hb, he, getOr_some_bind,
      getOr_some_bind, ensure_of (by simpa using hwindow)]
    apply explains_getOr
    intro expireAt _
    apply explains_ensure
    intro _
    apply explains_ensure
    intro _
    apply explains_ensure
    intro _
    apply explains_getOr
    intro raw hraw
    apply explains_getOr
    intro x hx
    apply explains_ensure
    intro _
    apply explains_ensure
    intro hmax
    apply explains_ensure
    intro _
    apply explains_ensure
    intro htext
    rw [raises_ensure_bind]
    refine ⟨fun hzero => ?_, fun _ => explains_ensure fun _ => raises_ok⟩
    obtain ⟨n, hn, rfl, rfl⟩ := exists_stock hx (by norm_num) hmax htext
    obtain ⟨m, hm, hsum⟩ := hactivity.stock
    rw [Keyspace.get, hm, Option.some.injEq, decimal_inj] at hraw
    rw [eq_ofNat, decide_eq_false_iff_not, not_not] at hzero
    refine ⟨_, ⟨hpublished, hbegin, hnow, ?_⟩, by omega⟩
    have hrecorded := hactivity.recorded t.userId
    rw [hnone, eq_comm, Option.map_eq_none_iff] at hrecorded
    exact hrecorded
  · apply explains_getOr
    intro text htext
    rw [Keyspace.hget, Keyspace.fields, habsent _ (by simp [voucherKeys])] at htext
    cases htext

/-- A script that comes to its end was called within the window. -/
theorem window_of_ok {cs : List (Command Key)} {reply : Reply}
    (h : seckill w.now appended w.redis (keysOf t.voucherId).list
      (admissionArguments t.voucher t.rules t.userId orderId) = .ok (cs, reply)) :
    t.rules.beginMillis ≤ w.now ∧ w.now < t.rules.endMillis := by
  obtain ⟨hb, he⟩ := tonumber_window t.rules
  unfold seckill AdmissionKeys.list admissionArguments at h
  dsimp only at h
  simp only [ensure_bind_eq_ok, absentOr_bind_eq_ok, hb, he, getOr_some_bind, lt_ofNat, le_ofNat,
    decide_eq_false_iff_not, not_lt, not_le] at h
  obtain ⟨-, -, -, -, -, -, -, -, -, -, -, hbegin, hnow, -⟩ := h
  exact ⟨hbegin, hnow⟩

/-- An admission finds the sale on, and a unit that nobody has. -/
theorem room_of_admitted (hw : Reachable c now clock w) (ht : t.Valid c) {n x : ℕ} {ks : Keyspace Key}
    (hadmitted : Admitted (keysOf t.voucherId) w.now t.userId.text orderId.text t.voucherId.text n x w.redis ks) :
    ∃ N, Published c t.voucherId N t.rules ∧ (w.accepted t.voucherId).lookup t.userId = none ∧
      (w.accepted t.voucherId).keys.card < N + (w.released t.voucherId).keys.card := by
  have hbefore : w.redis.get (.stock t.voucherId) = some (decimal (n + 1)) := hadmitted.stock_before
  rcases hw.custody.world.phase t.voucherId with hun | ⟨hpublished, -, hactivity⟩ | ⟨-, -, habsent, -⟩
  · rw [get_of_absent hun.absent] at hbefore
    cases hbefore
  · obtain rfl := ht.rules_eq hpublished
    obtain ⟨m, hm, hsum⟩ := hactivity.stock
    rw [Keyspace.get, hm, Option.some.injEq, decimal_inj] at hbefore
    exact ⟨_, hpublished, hactivity.not_accepted hadmitted, by omega⟩
  · rw [get_of_absent habsent] at hbefore
    cases hbefore

/-- An acceptance is one that the script made, or made before. -/
theorem decode_accepted {reply : Reply} {id : LongId} {replayed : Bool} (h : decode reply = .accepted id replayed) :
    reply.code = 0 ∨ replayed = true := by
  unfold decode at h
  split at h
  · rename_i hcode
    split at h
    · rcases hcode with hzero | hnine
      · exact .inl hzero
      · obtain ⟨-, rfl⟩ := AdmissionResult.accepted.inj h
        exact .inr (decide_eq_true hnine)
    · cases h
  · split_ifs at h

/-- **The answer of a call of the script** says what was true, and an acceptance is one from then on. -/
theorem script_explained (hw : Reachable c now clock w) (ht : t.Valid c) (orderId : LongId) (appended : Bool) :
    Explains c w t orderId (answer (t.script orderId appended w).1) ∧
      ∀ id replayed, answer (t.script orderId appended w).1 = .accepted id replayed →
        (t.admission orderId appended w).Accepted ⟨id, t.userId, t.voucherId⟩ := by
  have hscript : t.script orderId appended w = Plan.run w.now (seckill w.now appended w.redis
      (keysOf t.voucherId).list (admissionArguments t.voucher t.rules t.userId orderId)) w.redis := rfl
  cases hs : seckill w.now appended w.redis (keysOf t.voucherId).list
      (admissionArguments t.voucher t.rules t.userId orderId) with
  | error o =>
    have hanswer : (t.script orderId appended w).1 = o := by
      rw [hscript, hs]
      rfl
    have hexplained := refusal_explained hw ht o hs
    obtain ⟨reply, rfl, hcode⟩ := seckill_raises _ _ _ _ _ o hs
    rw [hanswer]
    refine ⟨hexplained, fun id replayed hid => ?_⟩
    obtain rfl := (decode_accepted hid).resolve_left hcode
    rw [hid] at hexplained
    rw [ht.admission_eq]
    exact accepted_step hw.custody.world hexplained _
  | ok p =>
    obtain ⟨user, order, voucher, b, e, n, x, ks, hargs, hreply, hexec, hadmitted⟩ :=
      seckill_admits (not_overflows (keysOf t.voucherId) w.redis t.voucher t.rules t.userId orderId) hs
    simp only [admissionArguments, List.cons.injEq, ht.id] at hargs
    obtain ⟨rfl, rfl, -, -, rfl, rfl, rfl, -⟩ := hargs
    have hrun : t.script orderId appended w = (.answer ⟨0, orderId.text⟩, ks) := by
      rw [hscript, hs]
      simp only [Plan.run, hexec, hreply]
    have hanswer : answer (t.script orderId appended w).1 = .accepted orderId false := by
      rw [hrun]
      simp only [answer, decode, parseLong_text]
      rfl
    obtain ⟨hbegin, hnow⟩ := window_of_ok hs
    obtain ⟨N, hpublished, hnone, hroom⟩ := room_of_admitted hw ht hadmitted
    rw [hanswer]
    refine ⟨⟨rfl, N, ⟨hpublished, hbegin, hnow, hnone⟩, hroom⟩, fun id replayed hid => ?_⟩
    obtain ⟨rfl, -⟩ := AdmissionResult.accepted.inj hid
    have haccepts : accepts (t.script orderId appended w).1 = true := by
      rw [hrun]
      rfl
    rw [World.Accepted, Terms.admission, if_pos haccepts]
    dsimp only
    rw [Function.update_self, Finmap.lookup_insert]

end answers

/-! ## The invariant -/

/-- The request is one of this user for this voucher, and may be made. -/
structure Request.Asks (r : Request) (userId voucherId : LongId) : Prop where
  who : ∃ who, r.who = some who ∧ who.id = userId.val ∧ Guard.evaluate who .participate = .allow
  voucherId : r.voucherId = some (voucherId.val : ℤ)

/-- The order id was drawn. -/
def Drawn (s : AdmissionStore) (id : LongId) : Prop := ∃ i ∈ s.issued, orderOf i = some id

/-- The store is in order. -/
structure InOrder (c : Config) (now clock : ℕ) (s : AdmissionStore) : Prop where
  reachable : Reachable c now clock s.world
  counted : OrderIds.Counted "order" s.ids
  drawn : ∀ id ∈ s.world.candidates, Drawn s id

/-- The order id that a request drew for itself. -/
def AdmissionStage.held : AdmissionStage → Option LongId
  | .admitting _ id => some id
  | .done (.accepted id false) => some id
  | _ => none

/-- **What a request knows.** -/
def InPlace (c : Config) (s : AdmissionStore) (call : AdmissionCall) : Prop :=
  match call.stage with
  | .checking z v => ∀ u, longOf z = some u → call.request.Asks u v
  | .finding u v => call.request.Asks u v
  | .reading t => t.Valid c ∧ call.request.Asks t.userId t.voucherId
  | .drawing t now => (t.Valid c ∧ call.request.Asks t.userId t.voucherId) ∧ now.InRange
  | .admitting t id => (t.Valid c ∧ call.request.Asks t.userId t.voucherId) ∧ Drawn s id ∧
      id ∉ s.world.candidates
  | .done (.accepted id replayed) => (replayed = false → Drawn s id) ∧
      ∃ u v, call.request.Asks u v ∧ s.world.Accepted ⟨id, u, v⟩
  | .done _ => True

/-- No two requests draw one order id. -/
def Apart (call other : AdmissionCall) : Prop :=
  ∀ id, call.stage.held = some id → other.stage.held ≠ some id

/-- **The invariant.** -/
structure Settled (c : Config) (now clock : ℕ) (p : AdmissionPool) : Prop where
  asserts : Asserts (InOrder c now clock) (InPlace c) p
  pairs : Pairs Apart p

section invariant

variable {c : Config} {now clock : ℕ} {s s' : AdmissionStore} {call other : AdmissionCall} {d : Chance}

/-- That two requests draw different ids does not depend on their order. -/
theorem Apart.symm (h : Apart call other) : Apart other call := fun id hid hother => h id hother hid

/-- The id that a request holds was drawn. -/
theorem InPlace.drawn_of_held (h : InPlace c s call) {id : LongId} (hid : call.stage.held = some id) : Drawn s id := by
  obtain ⟨request, stage⟩ := call
  cases stage with
  | admitting t id' =>
    obtain rfl := Option.some.inj hid
    exact h.2.1
  | done r =>
    cases r with
    | accepted id' replayed =>
      cases replayed with
      | false =>
        obtain rfl := Option.some.inj hid
        exact h.1 rfl
      | true => cases hid
    | _ => cases hid
  | _ => cases hid

/-- What a request knows stays so while its order id stays with it. -/
theorem InPlace.later (h : InPlace c s call) (hissued : ∀ id, Drawn s id → Drawn s' id)
    (haccepted : ∀ o, s.world.Accepted o → s'.world.Accepted o)
    (hcandidates : ∀ id, call.stage.held = some id → id ∈ s'.world.candidates → id ∈ s.world.candidates) :
    InPlace c s' call := by
  obtain ⟨request, stage⟩ := call
  cases stage with
  | admitting t id => exact ⟨h.1, hissued id h.2.1, fun hmem => h.2.2 (hcandidates id rfl hmem)⟩
  | done r =>
    cases r with
    | accepted id replayed =>
      obtain ⟨hdrawn, u, v, hasks, ho⟩ := h
      exact ⟨fun hfresh => hissued id (hdrawn hfresh), u, v, hasks, haccepted _ ho⟩
    | _ => trivial
  | _ => exact h

/-- What was drawn stays drawn. -/
theorem drawn_increment {t : OrderIds.LocalDateTime} {id : LongId} (h : Drawn s id) : Drawn (s.increment t) id := by
  obtain ⟨i, hi, hid⟩ := h
  exact ⟨i, List.mem_append_left _ hi, hid⟩

/-- What a step of a request does to the stores. -/
theorem move_store (c : Config) (d : Chance) (s : AdmissionStore) (call : AdmissionCall) :
    (call.move c d s).1 = s ∨
      (∃ t now, call.stage = .drawing t now ∧ (call.move c d s).1 = s.increment now) ∨
      ∃ t id, call.stage = .admitting t id ∧
        (call.move c d s).1 = { s with world := t.admission id d.appended s.world } := by
  unfold AdmissionCall.move
  cases hstage : call.stage with
  | drawing t now =>
    rcases d.fate.perform_cases (fun s : AdmissionStore => s.increment now) s with heq | heq
    · exact .inr (.inl ⟨t, now, rfl, heq⟩)
    · exact .inl heq
  | admitting t id =>
    rcases d.fate.perform_cases
      (fun s : AdmissionStore => { s with world := t.admission id d.appended s.world }) s with heq | heq
    · exact .inr (.inr ⟨t, id, rfl, heq⟩)
    · exact .inl heq
  | _ => exact .inl rfl

/-- **What a step can do to a request.** A request that is given up says nothing of the stores. -/
inductive Next (c : Config) (d : Chance) (s : AdmissionStore) :
    AdmissionStage → AdmissionStore → AdmissionStage → Prop
  | givenUp {stage : AdmissionStage} {s' : AdmissionStore} {r : AdmissionResult}
      (h : r = .raised ∨ r = .refused unconfirmed) : Next c d s stage s' (.done r)
  | cleared {z : ℤ} {u v : LongId} (hu : longOf z = some u) (hactive : s.status u = some "ACTIVE") :
      Next c d s (.checking z v) s (.finding u v)
  | barred {z : ℤ} {v : LongId} (h : ∀ u, longOf z = some u → s.status u ≠ some "ACTIVE") :
      Next c d s (.checking z v) s (.done (.refused { errorCode := .authorizationFailed }))
  | found {u v : LongId} {t : Terms} (h : findTerms c s.world u v = .ok t) : Next c d s (.finding u v) s (.reading t)
  | missing {u v : LongId} {e : BusinessException} (h : findTerms c s.world u v = .error e) :
      Next c d s (.finding u v) s (.done (.refused e))
  | read {t : Terms} : Next c d s (.reading t) s (.drawing t d.reading)
  | drawn {t : Terms} {now : OrderIds.LocalDateTime} {id : LongId}
      (h : longOf (OrderIds.nextId now (s.count now)).toInt = some id) :
      Next c d s (.drawing t now) (s.increment now) (.admitting t id)
  | answered {t : Terms} {id : LongId} :
      Next c d s (.admitting t id) { s with world := t.admission id d.appended s.world }
        (.done (answer (t.script id d.appended s.world).1))
  | done {r : AdmissionResult} : Next c d s (.done r) s (.done r)

/-- A step of a request is one of these. -/
theorem move_next (c : Config) (d : Chance) (s : AdmissionStore) (call : AdmissionCall) :
    ∃ s' stage, call.move c d s = (s', call.reach stage) ∧ Next c d s call.stage s' stage := by
  obtain ⟨request, stage⟩ := call
  cases stage with
  | checking z v =>
    refine ⟨_, _, rfl, ?_⟩
    split
    · exact .givenUp (.inl rfl)
    split
    · rename_i u hu
      split
      · exact .cleared hu ‹_›
      · refine .barred fun u' hu' => ?_
        rw [← Option.some.inj (hu.symm.trans hu')]
        assumption
    · refine .barred fun u hu => ?_
      rename_i hnone
      rw [hnone] at hu
      cases hu
  | finding u v =>
    refine ⟨_, _, rfl, ?_⟩
    split
    · exact .givenUp (.inl rfl)
    split
    · exact .found ‹_›
    · exact .missing ‹_›
  | reading t => exact ⟨_, _, rfl, .read⟩
  | drawing t reading =>
    refine ⟨_, _, rfl, ?_⟩
    split
    · exact .givenUp (.inr rfl)
    rename_i hfate
    rw [not_not.mp hfate, Fate.perform_answered]
    split
    · exact .drawn ‹_›
    · exact .givenUp (.inr rfl)
  | admitting t id =>
    refine ⟨_, _, rfl, ?_⟩
    split
    · rename_i hfate
      rw [hfate, Fate.perform_answered]
      exact .answered
    · exact .givenUp (.inr rfl)
  | done r => exact ⟨_, _, rfl, .done⟩

/-- A step of a request keeps the store in order. -/
theorem InOrder.move (h : InOrder c now clock s) (hcall : InPlace c s call) (d : Chance) :
    InOrder c now clock (call.move c d s).1 := by
  rcases move_store c d s call with heq | ⟨t, reading, hstage, heq⟩ | ⟨t, id, hstage, heq⟩
  · rwa [heq]
  · rw [InPlace, hstage] at hcall
    rw [heq]
    exact ⟨h.reachable, counted_increment h.counted hcall.2, fun id hid => drawn_increment (h.drawn id hid)⟩
  · rw [InPlace, hstage] at hcall
    obtain ⟨⟨hvalid, -⟩, hdrawn, hfresh⟩ := hcall
    rw [heq]
    refine ⟨?_, h.counted, fun i hi => ?_⟩
    · rw [hvalid.admission_eq]
      exact h.reachable.step (a := .admitVoucher t.voucherId t.userId id d.appended) hfresh
    · rcases Finset.mem_insert.mp hi with rfl | hi
      · exact hdrawn
      · exact h.drawn i hi

/-- A step of a request takes nothing from another one. -/
theorem InPlace.move_other (hother : InPlace c s other) (h : InOrder c now clock s) (hcall : InPlace c s call)
    (hapart : Apart call other) (d : Chance) : InPlace c (call.move c d s).1 other := by
  rcases move_store c d s call with heq | ⟨t, reading, -, heq⟩ | ⟨t, id, hstage, heq⟩
  · rwa [heq]
  · rw [heq]
    exact hother.later (fun _ => drawn_increment) (fun _ ho => ho) fun _ _ hmem => hmem
  · have hvalid : t.Valid c := by
      rw [InPlace, hstage] at hcall
      exact hcall.1.1
    rw [heq]
    refine hother.later (fun _ hdrawn => hdrawn) (fun o ho => ?_) fun i hi hmem => ?_
    · show (t.admission id d.appended s.world).Accepted o
      rw [hvalid.admission_eq]
      exact accepted_step h.reachable.custody.world ho _
    · refine (Finset.mem_insert.mp hmem).resolve_left ?_
      rintro rfl
      exact hapart i (by rw [hstage]; rfl) hi

/-- The next order id is none that was drawn before. -/
theorem InOrder.fresh (h : InOrder c now clock s) {reading : OrderIds.LocalDateTime} (hreading : reading.InRange)
    (hfits : Fits (s.increment reading)) {id : LongId}
    (hid : longOf (OrderIds.nextId reading (s.count reading)).toInt = some id) : ¬ Drawn s id := by
  rintro ⟨i, hi, hold⟩
  exact next_ne h.counted hreading hfits hi (id_eq_of_orderOf (j := ⟨reading, s.count reading⟩) hold hid)

/-- A request knows what it has to know when it moves on. -/
theorem InPlace.move (hcall : InPlace c s call) (h : InOrder c now clock s) (hreading : d.reading.InRange)
    (hfits : Fits (call.move c d s).1) : InPlace c (call.move c d s).1 (call.move c d s).2 := by
  obtain ⟨s', stage', hmove, hnext⟩ := move_next c d s call
  obtain ⟨request, stage⟩ := call
  rw [hmove] at hfits ⊢
  cases hnext with
  | givenUp hr =>
    rcases hr with rfl | rfl
    · trivial
    · trivial
  | cleared hu _ => exact hcall _ hu
  | found ht =>
    obtain ⟨hvalid, rfl, rfl⟩ := findTerms_ok ht
    exact ⟨hvalid, hcall⟩
  | read => exact ⟨hcall, hreading⟩
  | drawn hid =>
    have hfresh := h.fresh hcall.2 hfits hid
    exact ⟨hcall.1, ⟨_, List.mem_append_right _ List.mem_cons_self, hid⟩, fun hmem => hfresh (h.drawn _ hmem)⟩
  | @answered t id =>
    obtain ⟨⟨hvalid, hasks⟩, hdrawn, -⟩ := hcall
    obtain ⟨hexplained, haccepted⟩ := script_explained h.reachable hvalid id d.appended
    cases hanswer : answer (t.script id d.appended s.world).1 with
    | accepted id' replayed =>
      refine ⟨?_, t.userId, t.voucherId, hasks, haccepted id' replayed hanswer⟩
      rintro rfl
      rw [hanswer] at hexplained
      rw [hexplained.1]
      exact hdrawn
    | _ => trivial
  | done => exact hcall
  | _ => trivial

/-- A request draws a new order id or keeps its own. -/
theorem held_move (h : InOrder c now clock s) (hcall : InPlace c s call) (hfits : Fits (call.move c d s).1)
    {id : LongId} (hid : (call.move c d s).2.stage.held = some id) : call.stage.held = some id ∨ ¬ Drawn s id := by
  obtain ⟨s', stage', hmove, hnext⟩ := move_next c d s call
  obtain ⟨request, stage⟩ := call
  rw [hmove] at hfits hid
  cases hnext with
  | givenUp hr =>
    rcases hr with rfl | rfl
    · cases hid
    · cases hid
  | drawn hdrawn =>
    obtain rfl := Option.some.inj hid
    exact .inr (h.fresh hcall.2 hfits hdrawn)
  | @answered t own =>
    obtain ⟨⟨hvalid, -⟩, -⟩ := hcall
    obtain ⟨hexplained, -⟩ := script_explained h.reachable hvalid own d.appended
    cases hanswer : answer (t.script own d.appended s.world).1 with
    | accepted id' replayed =>
      rw [hanswer] at hid hexplained
      cases replayed with
      | false =>
        obtain rfl := Option.some.inj hid
        exact .inl (congrArg some hexplained.1.symm)
      | true => cases hid
    | _ =>
      rw [hanswer] at hid
      cases hid
  | done => exact .inl hid
  | _ => cases hid

/-- The surroundings keep the store in order, and what the requests know. -/
theorem InOrder.drift (h : InOrder c now clock s) (e : Surroundings) :
    InOrder c now clock (e.apply c s) ∧ ∀ call, InPlace c s call → InPlace c (e.apply c s) call := by
  have hact : ∀ a : Act, (∀ v u o appended, a ≠ .admitVoucher v u o appended) →
      InOrder c now clock { s with world := step c s.world a } ∧
        ∀ call, InPlace c s call → InPlace c { s with world := step c s.world a } call := by
    intro a ha
    have hcandidates : (step c s.world a).candidates = s.world.candidates := candidates_step ha
    have hfresh : FreshIds s.world a := by
      cases a with
      | admitVoucher v u o appended => exact absurd rfl (ha v u o appended)
      | _ => trivial
    refine ⟨⟨h.reachable.step hfresh, h.counted, fun id hid => ?_⟩, fun call hcall => ?_⟩
    · rw [hcandidates] at hid
      exact h.drawn id hid
    · refine hcall.later (fun _ hdrawn => hdrawn) (fun o ho => accepted_step h.reachable.custody.world ho a) ?_
      intro id _ hmem
      exact hcandidates ▸ hmem
  cases e with
  | act a =>
    cases a with
    | admitVoucher v u o appended => exact ⟨h, fun _ hcall => hcall⟩
    | _ => exact hact _ (fun _ _ _ _ heq => by cases heq)
  | setStatus userId status =>
    refine ⟨⟨h.reachable, h.counted, h.drawn⟩, fun call hcall => ?_⟩
    exact hcall.later (fun _ hdrawn => hdrawn) (fun _ ho => ho) fun _ _ hmem => hmem

/-! ## Runs -/

/-- The clock shows a time from 2022 on that the ids have room for. -/
def ReadsInRange : AdmissionAct → Prop
  | .move _ d => d.reading.InRange
  | _ => True

/-- A request that comes in knows nothing yet. -/
theorem inPlace_enter (c : Config) (s : AdmissionStore) (r : Request) : InPlace c s ⟨r, enter r⟩ := by
  unfold enter
  split
  · trivial
  · trivial
  · rename_i v who hv hwho
    obtain ⟨z, hz, hlong⟩ := Option.bind_eq_some_iff.mp hv
    split
    · rename_i hallow
      intro u hu
      exact ⟨⟨who, hwho, longOf_eq_some.mp hu, hallow⟩, by rw [hz, longOf_eq_some.mp hlong]⟩
    · trivial

/-- A request that has just started holds no order id. -/
theorem held_enter (r : Request) : (enter r).held = none := by
  unfold enter
  split
  · rfl
  · rfl
  · split <;> rfl

/-- **Step lemma**: a step whose clock shows a time in range keeps the requests settled. -/
theorem Settled.step {p : AdmissionPool} (h : Settled c now clock p) {a : AdmissionAct} (ha : ReadsInRange a)
    (hfits : Fits ((admissions c).step p a).store) : Settled c now clock ((admissions c).step p a) := by
  have hmoved : ∀ i d call, a = .move i d → p.calls i = some call →
      d.reading.InRange ∧ Fits (call.move c d p.store).1 := by
    rintro i d call rfl hcall
    refine ⟨ha, ?_⟩
    rw [(admissions c).step_move hcall] at hfits
    exact hfits
  constructor
  · refine h.asserts.step (fun i r _ => inPlace_enter c p.store r) (fun i d call hact hcall => ?_) fun e _ => ?_
    · obtain ⟨hreading, hroom⟩ := hmoved i d call hact hcall
      have hplace := h.asserts.calls i call hcall
      refine ⟨h.asserts.store.move hplace d, hplace.move h.asserts.store hreading hroom, fun j other hj hother => ?_⟩
      exact (h.asserts.calls j other hother).move_other h.asserts.store hplace
        (h.pairs i j call other hj.symm hcall hother) d
    · obtain ⟨hstore, hcalls⟩ := h.asserts.store.drift e
      exact ⟨hstore, fun i call hcall => hcalls call (h.asserts.calls i call hcall)⟩
  · refine h.pairs.step (fun _ _ => Apart.symm) (fun i r _ j other _ _ id hid => ?_) ?_
    · rw [show ((admissions c).enter p.store r).stage.held = none from held_enter r] at hid
      cases hid
    · intro i d call hact hcall j other hj hother id hid hsame
      obtain ⟨-, hroom⟩ := hmoved i d call hact hcall
      rcases held_move h.asserts.store (h.asserts.calls i call hcall) hroom hid with hold | hfresh
      · exact h.pairs i j call other hj.symm hcall hother id hold hsame
      · exact hfresh ((h.asserts.calls j other hother).drawn_of_held hsame)

/-- Increments are not taken back. -/
theorem issued_step (c : Config) (p : AdmissionPool) (a : AdmissionAct) :
    p.store.issued <+: ((admissions c).step p a).store.issued := by
  rcases (admissions c).step_cases p a with hstep | ⟨i, r, -, -, hstep⟩ | ⟨i, d, call, -, -, hstep⟩ |
    ⟨e, -, hstep⟩
  · rw [hstep]
  · rw [hstep]
  · rw [hstep]
    show p.store.issued <+: (call.move c d p.store).1.issued
    rcases move_store c d p.store call with heq | ⟨t, reading, -, heq⟩ | ⟨t, id, -, heq⟩
    · rw [heq]
    · rw [heq]
      exact List.prefix_append _ _
    · rw [heq]
  · rw [hstep]
    show p.store.issued <+: (e.apply c p.store).issued
    unfold Surroundings.apply
    split <;> exact List.prefix_rfl

/-- What fits in the end did all along. -/
theorem fits_along {c : Config} {p : AdmissionPool} {as : List AdmissionAct}
    (hfits : Fits (Runs.run (admissions c).step p as).store) :
    Runs.Along (fun p a => Fits ((admissions c).step p a).store) (admissions c).step p as := by
  refine Runs.along_of_splits _ as p fun bs b cs has => ?_
  have hgrows : ((admissions c).step (Runs.run (admissions c).step p bs) b).store.issued <+:
      (Runs.run (admissions c).step p as).store.issued := by
    rw [has, Runs.run_append, Runs.run_cons]
    exact Runs.run_rel (I := fun _ => True) (R := fun q r : AdmissionPool => q.store.issued <+: r.store.issued) _
      (fun _ => List.prefix_rfl) (fun _ _ _ => List.IsPrefix.trans) (fun _ _ _ => trivial)
      (fun q a _ => issued_step c q a) cs trivial
  intro date
  exact lt_of_le_of_lt hgrows.sublist.countP_le (hfits date)

/-- Before the first request. -/
theorem settled_start (c : Config) (now clock : ℕ) (status : LongId → Option String) :
    Settled c now clock (Pool.idle (startStore c now clock status)) := by
  refine ⟨asserts_idle ⟨reachable_initial, ?_, fun id hid => by cases hid⟩, pairs_idle⟩
  exact OrderIds.counted_start

/-- **Run lemma**: every run whose clocks are in range keeps the requests settled. -/
theorem settled_run (c : Config) (now clock : ℕ) (status : LongId → Option String) {as : List AdmissionAct}
    (hrange : ∀ a ∈ as, ReadsInRange a) (hfits : Fits (reached c (startStore c now clock status) as).store) :
    Settled c now clock (reached c (startStore c now clock status) as) := by
  have hok : Runs.Along (fun p a => ReadsInRange a ∧ Fits ((admissions c).step p a).store) (admissions c).step
      (Pool.idle (startStore c now clock status)) as :=
    Runs.along_and _ as _ (Runs.along_of_forall _ as _ hrange) (fits_along hfits)
  exact Runs.run_invariant_of_along _ (fun _ _ hp hstep => hp.step hstep.1 hstep.2) as _
    (settled_start c now clock status) hok

end invariant

/-! ## The requests and the order flow -/

/-- What a step does to the order flow. -/
def performed (p : AdmissionPool) : AdmissionAct → List Act
  | .move i d =>
    match p.calls i with
    | some ⟨_, .admitting t id⟩ =>
      if d.fate.happens then [.admitVoucher t.voucherId t.userId id d.appended] else []
    | _ => []
  | .drift (.act (.admitVoucher _ _ _ _)) => []
  | .drift (.act a) => [a]
  | _ => []

section refinement

variable {c : Config} {now clock : ℕ} {p : AdmissionPool}

/-- A step does that, and what it admits is fresh. -/
theorem Settled.world_step (h : Settled c now clock p) (a : AdmissionAct) :
    ((admissions c).step p a).store.world = Runs.run (OrderFlow.step c) p.store.world (performed p a) ∧
      Runs.Along FreshIds (OrderFlow.step c) p.store.world (performed p a) := by
  cases a with
  | enter i r =>
    refine ⟨?_, trivial⟩
    cases hcall : p.calls i with
    | none =>
      rw [(admissions c).step_enter hcall]
      rfl
    | some call =>
      simp only [System.step, hcall]
      rfl
  | move i d =>
    cases hcall : p.calls i with
    | none =>
      simp only [System.step, performed, hcall]
      exact ⟨rfl, trivial⟩
    | some call =>
      rw [(admissions c).step_move hcall]
      obtain ⟨request, stage⟩ := call
      have hplace := h.asserts.calls i _ hcall
      simp only [performed, hcall]
      cases stage with
      | admitting t id =>
        obtain ⟨⟨hvalid, -⟩, -, hfresh⟩ := hplace
        simp only [admissions, AdmissionCall.move, Fate.perform]
        split
        · exact ⟨hvalid.admission_eq, hfresh, trivial⟩
        · exact ⟨rfl, trivial⟩
      | drawing t reading =>
        simp only [admissions, AdmissionCall.move, Fate.perform]
        split <;> exact ⟨rfl, trivial⟩
      | _ => exact ⟨rfl, trivial⟩
  | drift e =>
    cases e with
    | setStatus userId status => exact ⟨rfl, trivial⟩
    | act a =>
      cases a with
      | admitVoucher v u o appended => exact ⟨rfl, trivial⟩
      | _ => exact ⟨rfl, trivial, trivial⟩

/-- What a run does to the order flow. -/
theorem Settled.world_run {as : List AdmissionAct} (h : Settled c now clock p)
    (has : Runs.Along (fun p a => ReadsInRange a ∧ Fits ((admissions c).step p a).store) (admissions c).step p as) :
    (Runs.run (admissions c).step p as).store.world = Runs.run (OrderFlow.step c) p.store.world
        (Runs.trace (admissions c).step performed p as).flatten ∧
      Runs.Along FreshIds (OrderFlow.step c) p.store.world
        (Runs.trace (admissions c).step performed p as).flatten := by
  induction as generalizing p with
  | nil => exact ⟨rfl, trivial⟩
  | cons a as ih =>
    obtain ⟨hok, has⟩ := has
    obtain ⟨hworld, hfresh⟩ := h.world_step a
    obtain ⟨hrest, hfresh'⟩ := ih (h.step hok.1 hok.2) has
    rw [Runs.trace, List.flatten_cons, Runs.run_cons, Runs.run_append, Runs.along_append, ← hworld]
    exact ⟨hrest, hfresh, hfresh'⟩

end refinement

/-- **The requests do nothing but what the order flow does by itself.** Whatever requests, consumers,
cancellations and operators do in between, whatever the clocks of the instances show and whichever calls fail
or lose their answers: the stores are those of the run in which every call of the script is one admission, and
the order ids of its admissions are fresh. -/
theorem admissions_refine (c : Config) (now clock : ℕ) (status : LongId → Option String) (as : List AdmissionAct)
    (hrange : ∀ a ∈ as, ReadsInRange a) (hfits : Fits (reached c (startStore c now clock status) as).store) :
    let bs := (Runs.trace (admissions c).step performed (Pool.idle (startStore c now clock status)) as).flatten
    (reached c (startStore c now clock status) as).store.world = Runs.run (step c) (initial c now clock) bs ∧
      Runs.Along FreshIds (step c) (initial c now clock) bs := by
  exact (settled_start c now clock status).world_run
    (Runs.along_and _ as _ (Runs.along_of_forall _ as _ hrange) (fits_along hfits))

/-- The answer of a request, once it has one. -/
def AdmissionStage.result : AdmissionStage → Option AdmissionResult
  | .done r => some r
  | _ => none

/-- A request with an answer is done with it. -/
theorem done_of_result {p : AdmissionPool} {i : ℕ} {r : AdmissionResult}
    (h : (p.calls i).bind (fun call => call.stage.result) = some r) :
    ∃ call, p.calls i = some call ∧ call.stage = .done r := by
  obtain ⟨⟨request, stage⟩, hcall, hresult⟩ := Option.bind_eq_some_iff.mp h
  refine ⟨_, hcall, ?_⟩
  cases stage with
  | done r' => rw [Option.some.inj hresult]
  | _ => cases hresult

/-- Every call is answered, at the end of 2022. -/
def answeredAll : Chance := ⟨.answered, ⟨1672531200⟩, true⟩

/-- A user asks for voucher `1`. -/
def asking (i : ℕ) (userId : ℤ) : List AdmissionAct :=
  .enter i ⟨some ⟨userId, [.user]⟩, some 1⟩ :: List.replicate 5 (.move i answeredAll)

/-- The voucher is published, user `1` asks twice, and then user `2`. -/
def threeRequests : List AdmissionAct :=
  .drift (.act (.publish voucherOne)) :: (asking 0 1 ++ asking 1 1 ++ asking 2 2)

/-- The sale with the requests, all accounts being active. -/
def smallStore : AdmissionStore := startStore smallSale 1000 0 fun _ => some "ACTIVE"

/-- The clocks of the three requests show times in range. -/
theorem threeRequests_inRange : ∀ a ∈ threeRequests, ReadsInRange a := by
  simp [threeRequests, asking, ReadsInRange, answeredAll, OrderIds.LocalDateTime.InRange]

/-- No day is counted up. -/
theorem threeRequests_fits : Fits (reached smallSale smallStore threeRequests).store := by
  intro date
  have hissued : (reached smallSale smallStore threeRequests).store.issued.length = 3 := by decide +kernel
  refine lt_of_le_of_lt List.countP_le_length ?_
  rw [hissued]
  decide

/-- The three requests do what the order flow can do by itself, with fresh ids. -/
theorem threeRequests_refine :
    let bs := (Runs.trace (admissions smallSale).step performed (Pool.idle smallStore) threeRequests).flatten
    (reached smallSale smallStore threeRequests).store.world = Runs.run (step smallSale) (initial smallSale 1000 0) bs ∧
      Runs.Along FreshIds (step smallSale) (initial smallSale 1000 0) bs :=
  admissions_refine smallSale 1000 0 _ threeRequests threeRequests_inRange threeRequests_fits

/-! ## Acceptances -/

/-- **The order is not lost**: it has its row, an event that is still to be handled, or a dead letter that is
still to be redriven. -/
def Kept (w : World) (o : VoucherOrder) : Prop :=
  Persisted w.db o ∨ (∃ id, w.Live id ∧ Carried w.redis id o) ∨
    ∃ l, Archive w o l ∧ w.redis.hget .redrives l.render = none

section acceptances

variable {c : Config} {now clock : ℕ} {p : AdmissionPool} {w : World}

/-- An accepted order is not lost. -/
theorem kept_of_accepted (h : CustodyInv c w) {o : VoucherOrder} (ho : w.Accepted o) : Kept w o := by
  rcases h.covered.covered o ho with hdone | ⟨place, hplace⟩
  · exact .inl hdone
  · cases place with
    | entry id => exact .inr (.inl ⟨id, carried_of_queued hplace⟩)
    | letter l => exact .inr (.inr ⟨l, h.world.archive_of_index hplace.1, not_not.mp hplace.2⟩)

/-- A request asks for one voucher and one user. -/
theorem Request.Asks.unique {r : Request} {u v u' v' : LongId} (h : r.Asks u v) (h' : r.Asks u' v') :
    u = u' ∧ v = v' := by
  obtain ⟨who, hwho, hid, -⟩ := h.who
  obtain ⟨who', hwho', hid', -⟩ := h'.who
  obtain rfl := Option.some.inj (hwho.symm.trans hwho')
  have hv := Option.some.inj (h.voucherId.symm.trans h'.voucherId)
  constructor
  · exact Option.some.inj ((longOf_eq_some.mpr hid).symm.trans (longOf_eq_some.mpr hid'))
  · exact Option.some.inj ((longOf_eq_some.mpr rfl).symm.trans (longOf_eq_some.mpr hv))

/-- An answer with an order id is one of an accepted order of the user who asked. -/
theorem Settled.acceptance (h : Settled c now clock p) {i : ℕ} {call : AdmissionCall} {id : LongId}
    {replayed : Bool} (hcall : p.calls i = some call) (hdone : call.stage = .done (.accepted id replayed)) :
    ∃ u v, call.request.Asks u v ∧ p.store.world.Accepted ⟨id, u, v⟩ := by
  have hplace := h.asserts.calls i call hcall
  rw [InPlace, hdone] at hplace
  exact hplace.2

end acceptances

/-- **What an acceptance stands for**, then and ever after. A request that was answered with an order id was made
by a user who may take part; the order is the one that this user has for this voucher, and it is not lost. All
acceptances of the user for the voucher give the same id, all but one as a replay, and no other user or voucher
is given it. -/
theorem acceptances_kept (c : Config) (now clock : ℕ) (status : LongId → Option String) (as : List AdmissionAct)
    (hrange : ∀ a ∈ as, ReadsInRange a) (hfits : Fits (reached c (startStore c now clock status) as).store)
    (i : ℕ) (call : AdmissionCall) (id : LongId) (replayed : Bool)
    (hcall : (reached c (startStore c now clock status) as).calls i = some call)
    (hdone : call.stage = .done (.accepted id replayed)) :
    let p := reached c (startStore c now clock status) as
    ∃ u v, call.request.Asks u v ∧ p.store.world.Accepted ⟨id, u, v⟩ ∧ Kept p.store.world ⟨id, u, v⟩ ∧
      ∀ j other id' replayed', p.calls j = some other → other.stage = .done (.accepted id' replayed') →
        (id' = id ↔ other.request.Asks u v) ∧ (j ≠ i → id' = id → replayed = true ∨ replayed' = true) := by
  intro p
  have h : Settled c now clock p := settled_run c now clock status hrange hfits
  have hcustody := h.asserts.store.reachable.custody
  obtain ⟨u, v, hasks, ho⟩ := h.acceptance hcall hdone
  refine ⟨u, v, hasks, ho, kept_of_accepted hcustody ho, fun j other id' replayed' hother hdone' => ⟨?_, ?_⟩⟩
  · obtain ⟨u', v', hasks', ho'⟩ := h.acceptance hother hdone'
    constructor
    · rintro rfl
      have hsame := hcustody.distinct.unique _ _ ho' ho rfl
      rw [VoucherOrder.mk.injEq] at hsame
      obtain ⟨-, rfl, rfl⟩ := hsame
      exact hasks'
    · intro hask
      obtain ⟨rfl, rfl⟩ := hask.unique hasks'
      exact Option.some.inj (ho'.symm.trans ho)
  · rintro hj rfl
    by_contra hfresh
    rw [not_or, Bool.not_eq_true, Bool.not_eq_true] at hfresh
    obtain ⟨rfl, rfl⟩ := hfresh
    exact h.pairs j i other call hj hother hcall id' (by rw [hdone']; rfl) (by rw [hdone]; rfl)

/-- The order of user `1`. -/
def onlyOrder : LongId := ⟨135446088646656001, by decide, by decide⟩

/-- The acceptance of user `1` is kept, also at the end. -/
theorem threeRequests_kept :
    let p := reached smallSale smallStore threeRequests
    ∃ call, p.calls 0 = some call ∧ ∃ u v, call.request.Asks u v ∧ p.store.world.Accepted ⟨onlyOrder, u, v⟩ ∧
      Kept p.store.world ⟨onlyOrder, u, v⟩ ∧
      ∀ j other id' replayed', p.calls j = some other → other.stage = .done (.accepted id' replayed') →
        (id' = onlyOrder ↔ other.request.Asks u v) ∧ (j ≠ 0 → id' = onlyOrder → false = true ∨ replayed' = true) := by
  intro p
  have hresult : (p.calls 0).bind (fun call => call.stage.result) = some (.accepted onlyOrder false) := by
    decide +kernel
  obtain ⟨call, hcall, hdone⟩ := done_of_result hresult
  exact ⟨call, hcall, acceptances_kept smallSale 1000 0 _ threeRequests threeRequests_inRange threeRequests_fits
    0 call onlyOrder false hcall hdone⟩

/-! ## Answers -/

section answers

variable (c : Config) (s : AdmissionStore) (i : ℕ)

/-- The request checks an account that is active. -/
def Cleared (userId : LongId) (as : List AdmissionAct) : Prop :=
  ∃ call z v, (reached c s as).calls i = some call ∧ call.stage = .checking z v ∧ longOf z = some userId ∧
    (reached c s as).store.status userId = some "ACTIVE"

/-- The request checks an account that is not. -/
def Barred (as : List AdmissionAct) : Prop :=
  ∃ call z v, (reached c s as).calls i = some call ∧ call.stage = .checking z v ∧
    ∀ u, longOf z = some u → (reached c s as).store.status u ≠ some "ACTIVE"

/-- The request finds no voucher that can be sold. -/
def Missing (e : BusinessException) (as : List AdmissionAct) : Prop :=
  ∃ call u v, (reached c s as).calls i = some call ∧ call.stage = .finding u v ∧
    findTerms c (reached c s as).store.world u v = .error e

/-- The request calls the script, and the answer says what is true. -/
def Called (t : Terms) (r : AdmissionResult) (as : List AdmissionAct) : Prop :=
  ∃ call orderId, (reached c s as).calls i = some call ∧ call.stage = .admitting t orderId ∧
    Explains c (reached c s as).store.world t orderId r

/-- Why a request is refused that does not come to the script. -/
inductive TurnedAway (r : Request) (as : List AdmissionAct) : BusinessException → Prop
  | voucher (h : r.voucherId.bind longOf = none) : TurnedAway r as { errorCode := .validationFailed }
  | anonymous (h : r.who = none) : TurnedAway r as { errorCode := .authenticationFailed }
  | denied {who : Principal} (hwho : r.who = some who) (h : Guard.evaluate who .participate ≠ .allow) :
      TurnedAway r as { errorCode := .authorizationFailed }
  | barred (h : Runs.Once (Barred c s i) as) : TurnedAway r as { errorCode := .authorizationFailed }
  | missing {e : BusinessException} (h : Runs.Once (Missing c s i e) as) : TurnedAway r as e
  | unconfirmed : TurnedAway r as unconfirmed

/-- **What became of a request.** -/
inductive Told (r : Request) (as : List AdmissionAct) : AdmissionResult → Prop
  | answered {t : Terms} {result : AdmissionResult} (hvalid : t.Valid c) (hasks : r.Asks t.userId t.voucherId)
      (hcleared : Runs.Once (Cleared c s i t.userId) as) (hcalled : Runs.Once (Called c s i t result) as) :
      Told r as result
  | refused {e : BusinessException} (h : TurnedAway c s i r as e) : Told r as (.refused e)
  | raised : Told r as .raised

/-- **The story of a request.** -/
def Story (as : List AdmissionAct) (call : AdmissionCall) : Prop :=
  match call.stage with
  | .checking _ _ => True
  | .finding u _ => Runs.Once (Cleared c s i u) as
  | .reading t | .drawing t _ | .admitting t _ => Runs.Once (Cleared c s i t.userId) as
  | .done result => Told c s i call.request as result

variable {c s i} {as : List AdmissionAct} {call : AdmissionCall} {now clock : ℕ}

/-- Why a request was turned away does not change. -/
theorem TurnedAway.later {r : Request} {e : BusinessException} (h : TurnedAway c s i r as e)
    (act : AdmissionAct) : TurnedAway c s i r (as ++ [act]) e := by
  cases h with
  | voucher h => exact .voucher h
  | anonymous h => exact .anonymous h
  | denied hwho h => exact .denied hwho h
  | barred h => exact .barred (h.later _)
  | missing h => exact .missing (h.later _)
  | unconfirmed => exact .unconfirmed

/-- The story of a request does not change while it waits. -/
theorem Story.later (h : Story c s i as call) (act : AdmissionAct) : Story c s i (as ++ [act]) call := by
  obtain ⟨request, stage⟩ := call
  cases stage with
  | checking z v => trivial
  | done result =>
    cases h with
    | answered hvalid hasks hcleared hcalled => exact .answered hvalid hasks (hcleared.later _) (hcalled.later _)
    | refused h => exact .refused (h.later act)
    | raised => exact .raised
  | _ => exact Runs.Once.later h [act]

/-- A request that comes in has nothing to tell yet. -/
theorem story_enter (r : Request) : Story c s i as ⟨r, enter r⟩ := by
  unfold enter
  split
  · exact .refused (.voucher ‹_›)
  · exact .refused (.anonymous ‹_›)
  · split
    · trivial
    · exact .refused (.denied ‹_› ‹_›)

/-- A request goes on with its story. -/
theorem story_move (h : Story c s i as call) (hcall : (reached c s as).calls i = some call)
    (hsettled : Settled c now clock (reached c s as)) (d : Chance) :
    Story c s i as (call.move c d (reached c s as).store).2 := by
  have hplace := hsettled.asserts.calls i call hcall
  obtain ⟨s', stage', hmove, hnext⟩ := move_next c d (reached c s as).store call
  obtain ⟨request, stage⟩ := call
  rw [hmove]
  cases hnext with
  | givenUp hr =>
    rcases hr with rfl | rfl
    · exact .raised
    · exact .refused .unconfirmed
  | cleared hu hactive => exact Runs.once_now ⟨_, _, _, hcall, rfl, hu, hactive⟩
  | barred hbarred => exact .refused (.barred (Runs.once_now ⟨_, _, _, hcall, rfl, hbarred⟩))
  | found ht =>
    obtain ⟨-, rfl, -⟩ := findTerms_ok ht
    exact h
  | missing he => exact .refused (.missing (Runs.once_now ⟨_, _, _, hcall, rfl, he⟩))
  | @answered t id =>
    obtain ⟨⟨hvalid, hasks⟩, -⟩ := hplace
    obtain ⟨hexplained, -⟩ := script_explained hsettled.asserts.store.reachable hvalid id d.appended
    exact .answered hvalid hasks h (Runs.once_now ⟨_, id, hcall, rfl, hexplained⟩)
  | _ => exact h

end answers

/-- A run with one step more takes that step last. -/
theorem reached_snoc (c : Config) (s : AdmissionStore) (as : List AdmissionAct) (act : AdmissionAct) :
    reached c s (as ++ [act]) = (admissions c).step (reached c s as) act := by
  unfold reached
  rw [Runs.run_append]
  rfl

/-- A run fits as far as its last step. -/
theorem fits_of_snoc {c : Config} {s : AdmissionStore} {as : List AdmissionAct} {act : AdmissionAct}
    (h : Fits (reached c s (as ++ [act])).store) : Fits (reached c s as).store := by
  intro date
  rw [reached_snoc] at h
  exact lt_of_le_of_lt (issued_step c (reached c s as) act).sublist.countP_le (h date)

/-- **Every request of a run has its story.** -/
theorem story_run (c : Config) (now clock : ℕ) (status : LongId → Option String) (as : List AdmissionAct)
    (hrange : ∀ a ∈ as, ReadsInRange a) (hfits : Fits (reached c (startStore c now clock status) as).store) :
    ∀ i call, (reached c (startStore c now clock status) as).calls i = some call →
      Story c (startStore c now clock status) i as call := by
  induction as using List.reverseRecOn with
  | nil =>
    intro i call hcall
    cases hcall
  | append_singleton as act ih =>
    intro i call hcall
    have hbefore := fits_of_snoc hfits
    have hrange' : ∀ a ∈ as, ReadsInRange a := fun a ha => hrange a (List.mem_append_left _ ha)
    have hsettled := settled_run c now clock status hrange' hbefore
    have hold := ih hrange' hbefore
    rw [reached_snoc] at hcall
    rcases (admissions c).step_cases (reached c (startStore c now clock status) as) act with hstep |
      ⟨j, r, -, -, hstep⟩ | ⟨j, d, moved, -, hmoved, hstep⟩ | ⟨e, -, hstep⟩
    · rw [hstep] at hcall
      exact (hold i call hcall).later act
    · rw [hstep] at hcall
      rcases entry_of_update hcall with ⟨rfl, rfl⟩ | ⟨-, hother⟩
      · exact story_enter r
      · exact (hold i call hother).later act
    · rw [hstep] at hcall
      rcases entry_of_update hcall with ⟨rfl, rfl⟩ | ⟨-, hother⟩
      · exact (story_move (hold i moved hmoved) hmoved hsettled d).later act
      · exact (hold i call hother).later act
    · rw [hstep] at hcall
      exact (hold i call hcall).later act

/-- The refusals before the script. -/
def EarlyCode (code : ErrorCode) : Prop :=
  code ∈ [.validationFailed, .authenticationFailed, .authorizationFailed, .notFound, .activityUnavailable]

/-- What is refused for its terms has one of the early codes. -/
theorem findTerms_early (c : Config) (w : World) (u v : LongId) :
    Raises (fun e : BusinessException => EarlyCode e.errorCode) (findTerms c w u v) := by
  have hmillis : ∀ time, Raises (fun e : BusinessException => EarlyCode e.errorCode) (requiredMillis time) := by
    intro time e he
    unfold requiredMillis at he
    rw [getOr_bind_eq_error] at he
    rcases he with ⟨-, rfl⟩ | ⟨t, -, he⟩
    · simp [EarlyCode]
    · cases hmilli : t.toEpochMilli with
      | none =>
        rw [hmilli] at he
        obtain rfl := Except.error.inj he
        simp [EarlyCode, outOfRange]
      | some z =>
        rw [hmilli] at he
        cases he
  unfold findTerms flashSaleRules
  rw [raises_getOr_bind]
  refine ⟨fun _ => by simp [EarlyCode], fun voucher _ => ?_⟩
  rw [raises_ensure_bind]
  refine ⟨fun _ => by simp [EarlyCode], fun _ => raises_bind ?_ fun _ => raises_ok⟩
  rw [raises_ensure_bind]
  refine ⟨fun _ => by simp [EarlyCode], fun _ => raises_bind (hmillis _) fun _ => raises_bind (hmillis _) fun _ => ?_⟩
  rw [raises_getOr_bind]
  refine ⟨fun _ => by simp [EarlyCode, outOfRange], fun _ _ => ?_⟩
  split
  · exact raises_ok
  · exact raises_error.mpr (by simp [EarlyCode, outOfRange])

/-- A refusal before the script has an early code. -/
theorem TurnedAway.early {c : Config} {s : AdmissionStore} {i : ℕ} {r : Request} {as : List AdmissionAct}
    {e : BusinessException} (h : TurnedAway c s i r as e) : EarlyCode e.errorCode := by
  cases h with
  | missing h =>
    obtain ⟨bs, -, call, u, v, -, -, hterms⟩ := h
    exact findTerms_early c _ u v e hterms
  | _ => simp [EarlyCode, Admissions.unconfirmed]

/-- **What was true when a request was answered.** A request with an answer of the script is one of a user who
may take part, whose account was active when the request checked it; and what the answer says was true when the
script was called: that the window was open and a unit was left, that the order had been accepted before, that
the stock was gone, that the window was not open yet or no more, or that the voucher was not on. Only the script
gives the last four answers, and no request is told that its user takes part already. -/
theorem answers_explained (c : Config) (now clock : ℕ) (status : LongId → Option String) (as : List AdmissionAct)
    (hrange : ∀ a ∈ as, ReadsInRange a) (hfits : Fits (reached c (startStore c now clock status) as).store)
    (i : ℕ) (call : AdmissionCall) (result : AdmissionResult)
    (hcall : (reached c (startStore c now clock status) as).calls i = some call)
    (hdone : call.stage = .done result) :
    Told c (startStore c now clock status) i call.request as result ∧
      ∀ e, result = .refused e → ¬ EarlyCode e.errorCode → e.errorCode ≠ .alreadyParticipated ∧
        ∃ t : Terms, t.Valid c ∧ call.request.Asks t.userId t.voucherId ∧
          Runs.Once (Called c (startStore c now clock status) i t result) as := by
  have hstory := story_run c now clock status as hrange hfits i call hcall
  rw [Story, hdone] at hstory
  refine ⟨hstory, fun e he hcode => ?_⟩
  subst he
  cases hstory with
  | @answered t _ hvalid hasks _ hcalled =>
    refine ⟨fun hcode' => ?_, t, hvalid, hasks, hcalled⟩
    obtain ⟨bs, -, _, _, -, -, hexplained⟩ := hcalled
    rw [Explains, hcode'] at hexplained
    exact hexplained
  | refused h => exact absurd h.early hcode

/-- The third request is refused, and the unit was sold then. -/
theorem threeRequests_explained : ∃ call, (reached smallSale smallStore threeRequests).calls 2 = some call ∧
    Told smallSale smallStore 2 call.request threeRequests (.refused { errorCode := .soldOut }) ∧
      ∃ t : Terms, t.Valid smallSale ∧ call.request.Asks t.userId t.voucherId ∧
        Runs.Once (Called smallSale smallStore 2 t (.refused { errorCode := .soldOut })) threeRequests := by
  have hresult : ((reached smallSale smallStore threeRequests).calls 2).bind (fun call => call.stage.result) =
      some (.refused { errorCode := .soldOut }) := by decide +kernel
  obtain ⟨call, hcall, hdone⟩ := done_of_result hresult
  obtain ⟨htold, hlate⟩ := answers_explained smallSale 1000 0 _ threeRequests threeRequests_inRange
    threeRequests_fits 2 call _ hcall hdone
  exact ⟨call, hcall, htold, (hlate _ rfl (by simp [EarlyCode])).2⟩

end CampusHub.OrderFlow.Admissions
