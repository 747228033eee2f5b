import CampusHub.OrderQueue.Redrive
import CampusHub.OrderFlow.World

/-!
# What a step of the order flow can do

* `Ready` — what the steps rely on: the queue keys are of their types and do not expire, an entry
  that is not acknowledged has a count within the budget, and every worker knows what it read.
* `Move` — the changes that steps make, with what is known when they are made.
* `step_move` — every step from a ready world is such a change.

`Move` is the inversion of `step`: a step works on the workers only, publishes, admits, writes a row,
cancels, releases, changes the outbox, moves on an entry of the queue, or lets time pass, and each case
carries what the step has checked. `step_move` proves it once, from the lemmas about the scripts and the
transactions, and no invariant of the order flow unfolds `step` again; each is a case analysis over `Move`.

The lemmas of the scripts have hypotheses about the keys they find, such as that the queue has its group and
that a pending entry has its count. `Ready` collects these, and `Ready.move` shows that moves keep it.

**Left out.** What moves do to the accounts of stock and orders: see `OrderFlow.Activity` for a voucher in
Redis and `OrderFlow.Books` for the database.
-/

namespace CampusHub.OrderFlow

open CampusHub.Redis CampusHub.Foundations CampusHub.Foundations.Guards CampusHub.Foundations.Lua
open CampusHub.Foundations.Decimal CampusHub.Foundations.Maps CampusHub.Foundations.Tables
open CampusHub.Domain CampusHub.FlashSale.Rules CampusHub.FlashSale.Scripts
open CampusHub.FlashSale.Initialization CampusHub.FlashSale.Admission CampusHub.FlashSale.Release
open CampusHub.OrderQueue CampusHub.Cancellation

/-! ## Workers -/

/-- The entry is there, and it carries the order. -/
def Carried (ks : Keyspace Key) (id : StreamId) (o : VoucherOrder) : Prop :=
  ∃ fields, (ks.stream .orders).lookup id = some fields ∧ Carries o fields

/-- The order has its row. -/
def Persisted (db : Database) (o : VoucherOrder) : Prop :=
  ∃ row, db.orders.rows.lookup o.id = some row ∧ row.userId = o.userId ∧ row.voucherId = o.voucherId

/-- **What a worker knows.** -/
def Job.Sound (ks : Keyspace Key) (db : Database) : Job → Prop
  | .received _ id fields => (ks.stream .orders).lookup id = some fields
  | .begun _ id fields => (ks.stream .orders).lookup id = some fields
  | .selected _ id order existing =>
    Carried ks id order ∧ ∀ i, existing = some i → Persisted db ⟨i, order.userId, order.voucherId⟩
  | .returned _ id => ∃ order, Carried ks id order ∧ Persisted db order
  | .spent _ _ | .threw _ _ _ => True

/-- What every worker has to know is that it is one of `old`, or that it is sound. -/
def JobsFrom (old new : ℕ → Option Job) (ks : Keyspace Key) (db : Database) : Prop :=
  ∀ k job, new k = some job → old k = some job ∨ job.Sound ks db

/-- Jobs that nobody has moved come from themselves. -/
theorem jobsFrom_refl {jobs : ℕ → Option Job} {ks : Keyspace Key} {db : Database} :
    JobsFrom jobs jobs ks db :=
  fun _ _ => .inl

/-- One worker moves on. -/
theorem jobsFrom_update {jobs : ℕ → Option Job} {ks : Keyspace Key} {db : Database} (k : ℕ)
    {job : Option Job} (h : ∀ j, job = some j → j.Sound ks db) :
    JobsFrom jobs (Function.update jobs k job) ks db := by
  intro k' j hj
  by_cases hk : k' = k
  · subst hk
    rw [Function.update_self] at hj
    exact .inr (h j hj)
  · rw [Function.update_of_ne hk] at hj
    exact .inl hj

/-! ## What the steps rely on -/

/-- The keys of the order queue. -/
def QueueKey : Key → Prop
  | .orders | .attempts | .dead | .failures | .redrives => True
  | _ => False

/-- **What the steps rely on.** -/
structure Ready (c : Config) (w : World) : Prop where
  created : ∃ g, (w.redis.stream .orders).groups.lookup consumerGroup = some g
  attempts : Typed w.redis .attempts .hash
  dead : Typed w.redis .dead .stream
  failures : Typed w.redis .failures .hash
  redrives : Typed w.redis .redrives .hash
  persistent : ∀ k, QueueKey k → w.redis.ttl k = none
  counted : ∀ id, (w.redis.stream .orders).Unacked consumerGroup id →
    ∃ n ≤ c.maxAttempts, Counted orderKeys w.redis id n
  deadlines : ∀ id e, w.db.cancellations.lookup id = some e → e.expiresAtMs < 2 ^ 53
  jobs : ∀ k job, w.jobs k = some job → job.Sound w.redis w.db

/-- The voucher can be published, with this stock and this window. -/
structure Published (c : Config) (v : LongId) (N : ℕ) (r : FlashSaleRules) : Prop where
  voucher : ∃ voucher, c.vouchers.lookup v = some voucher ∧ flashSaleRules voucher = .ok r ∧
    voucher.status = some 1
  stock : c.stock.lookup v = some (N : ℤ)
  pos : 0 < N
  le : N ≤ 2147483647

/-- What the release call of a cancellation reads. -/
def releaseData (e : Outbox.OrderCancellation) : LongId × LongId × LongId × ℕ :=
  (e.orderId, e.userId, e.voucherId, e.expiresAtMs)

/-- The same cancellations, as far as their release calls go. -/
def SameCalls (t t' : Outbox.Table) : Prop :=
  ∀ id, (t'.lookup id).map releaseData = (t.lookup id).map releaseData

/-- Every cancellation was there before, as far as its release call goes. -/
theorem SameCalls.exists {t t' : Outbox.Table} (h : SameCalls t t') {id : LongId}
    {e' : Outbox.OrderCancellation} (he : t'.lookup id = some e') :
    ∃ e, t.lookup id = some e ∧ releaseData e' = releaseData e := by
  have hid := h id
  rw [he, Option.map_some] at hid
  obtain ⟨e, he, hdata⟩ := Option.map_eq_some_iff.mp hid.symm
  exact ⟨e, he, hdata.symm⟩

/-! ## Moves -/

/-- **What a step can do.** -/
inductive Move (c : Config) (w : World) (a : Act) : World → Prop
  /-- Nothing that the stores hold changes but the outbox, and that in its progress only. -/
  | quiet (clock : ℕ) {jobs : ℕ → Option Job} {candidates : Finset LongId} {t : Outbox.Table}
      (hjobs : JobsFrom w.jobs jobs w.redis w.db) (hcandidates : w.candidates ⊆ candidates)
      (hcalls : SameCalls w.db.cancellations t) :
      Move c w a { w with
        clock := clock
        jobs := jobs
        candidates := candidates
        db.cancellations := t }
  | expire (d : ℕ) : Move c w a { w with now := w.now + d, redis := w.redis.purge (w.now + d) }
  | publish {v : LongId} {N : ℕ} {r : FlashSaleRules} {ks : Keyspace Key}
      (hpublished : Published c v N r) (habsent : Absent (keysOf v) w.redis)
      (hnow : w.now < r.expiresAtMillis)
      (hinit : Initialized (keysOf v) N r.beginMillis r.endMillis r.expiresAtMillis w.redis ks) :
      Move c w a { w with redis := ks }
  | admitVoucher {v userId orderId : LongId} {n x : ℕ} {ks : Keyspace Key} {appended : Bool}
      (hadmitted : Admitted (keysOf v) w.now userId.text orderId.text v.text n x w.redis ks)
      (hact : a = .admitVoucher v userId orderId appended) :
      Move c w a { w with
        redis := ks
        candidates := insert orderId w.candidates
        accepted := Function.update w.accepted v ((w.accepted v).insert userId orderId) }
  | deliver {s : EventStream} {jobs : ℕ → Option Job}
      (hentries : s.entries = (w.redis.stream .orders).entries)
      (hcreated : ∃ g, s.groups.lookup consumerGroup = some g)
      (hunacked : ∀ id, s.Unacked consumerGroup id →
        (w.redis.stream .orders).Unacked consumerGroup id)
      (hlive : ∀ id, s.Live consumerGroup id ↔ (w.redis.stream .orders).Live consumerGroup id)
      (hjobs : JobsFrom w.jobs jobs w.redis w.db)
      (hpending : ∀ id, ((w.redis.stream .orders).pendingOf consumerGroup id).isSome →
        (s.pendingOf consumerGroup id).isSome) :
      Move c w a { w with redis := w.redis.put .orders (.stream s), jobs := jobs }
  | count {id : StreamId} {n : ℕ} {jobs : ℕ → Option Job}
      (hcounted : Counted orderKeys w.redis id n) (hn : n < c.maxAttempts)
      (hjobs : JobsFrom w.jobs jobs w.redis w.db) :
      Move c w a { w with
        redis := w.redis.put .attempts
          (.hash ((w.redis.fields .attempts).insert id.render (decimal (n + 1))))
        jobs := jobs }
  | acknowledge {id : StreamId} {n : ℕ} {consumer : String} {order : VoucherOrder}
      {ks : Keyspace Key} {jobs : ℕ → Option Job}
      (hheld : Held orderKeys consumerGroup consumer id n w.redis)
      (hcarried : Carried w.redis id order) (hpersisted : Persisted w.db order)
      (hack : Acknowledged orderKeys consumerGroup id w.redis ks)
      (hjobs : JobsFrom w.jobs jobs w.redis w.db) :
      Move c w a { w with redis := ks, jobs := jobs }
  | archive {id : StreamId} {n : ℕ} {consumer errorClass letter : String} {payload : Fields}
      {ks₁ ks : Keyspace Key} {jobs : ℕ → Option Job}
      (hheld : Held orderKeys consumerGroup consumer id n w.redis)
      (hpayload : (w.redis.stream .orders).lookup id = some payload)
      (harchived : Archived orderKeys w.now consumerGroup consumer id n errorClass payload w.redis
        ks₁ letter)
      (hack : Acknowledged orderKeys consumerGroup id ks₁ ks)
      (hjobs : JobsFrom w.jobs jobs w.redis w.db) :
      Move c w a { w with redis := ks, jobs := jobs }
  | persist {id : StreamId} {order : VoucherOrder} {n : ℤ} {orders : Orders}
      {jobs : ℕ → Option Job} {k : ℕ} {lost : Option String} {consumer : String}
      {existing : Option LongId}
      (hcarried : Carried w.redis id order)
      (hstock : w.db.stock.lookup order.voucherId = some n) (hpos : 0 < n)
      (hid : w.db.orders.rows.lookup order.id = none)
      (hkey : w.db.orders.index.lookup (order.userId, order.voucherId) = none)
      (hrows : orders.rows = w.db.orders.rows.insert order.id
        ⟨order.id, order.userId, order.voucherId, 1, w.clock, w.clock⟩)
      (hjobs : JobsFrom w.jobs jobs w.redis
        ⟨w.db.stock.insert order.voucherId (n - 1), orders, w.db.cancellations⟩)
      (hact : a = .persist k lost)
      (hjob : w.jobs k = some (.selected consumer id order existing)) :
      Move c w a { w with
        db := ⟨w.db.stock.insert order.voucherId (n - 1), orders, w.db.cancellations⟩
        jobs := jobs }
  | cancel {userId orderId v : LongId} {db : Database}
      (hcancelled : Cancelled (c.findFlashSale w.db) w.clock userId orderId v w.db db) :
      Move c w a { w with db := db }
  | release {orderId : LongId} {e : Outbox.OrderCancellation} {n : ℕ} {ks : Keyspace Key}
      (hrow : w.db.cancellations.lookup orderId = some e)
      (hreleasable : Releasable (releaseKeysOf e.voucherId) (decimal e.expiresAtMs) w.now w.redis
        e.userId.text e.orderId.text n)
      (hreleased : Released (releaseKeysOf e.voucherId) e.expiresAtMs e.userId.text e.orderId.text n
        w.redis ks) :
      Move c w a { w with
        redis := ks
        released := Function.update w.released e.voucherId
          ((w.released e.voucherId).insert e.orderId e.userId) }
  | redrive {deadId operator reason : String} {letter : StreamId × Fields} {fields : Fields}
      {newId : StreamId} {ks : Keyspace Key}
      (hredriven : Redriven orderKeys w.now deadId letter fields newId w.redis ks)
      (hact : a = .redrive deadId operator reason)
      (hlabels : isAuditLabel operator = true ∧ isAuditLabel reason = true) :
      Move c w a { w with redis := ks }

/-! ## Steps are moves -/

section steps

variable {c : Config} {w : World} {act : Act}

/-- A step that changes the workers only. -/
theorem Move.work {jobs : ℕ → Option Job} (hjobs : JobsFrom w.jobs jobs w.redis w.db) :
    Move c w act { w with jobs := jobs } :=
  .quiet w.clock hjobs subset_rfl fun _ => rfl

/-- A step that changes nothing. -/
theorem Move.refl : Move c w act w := .work jobsFrom_refl

/-- A statement of the outbox keeps what the release calls read. -/
theorem sameCalls_updateWhere (t : Outbox.Table) (id : LongId)
    (p : Outbox.OrderCancellation → Prop) [DecidablePred p]
    {f : Outbox.OrderCancellation → Outbox.OrderCancellation}
    (hf : ∀ row, releaseData (f row) = releaseData row) : SameCalls t (updateWhere t id p f).1 := by
  intro id'
  rcases updateWhere_cases t id p f with ⟨row, hrow, -, hu⟩ | ⟨-, hu⟩
  · rw [hu, lookup_insert_eq]
    split
    · rename_i hid
      rw [hid, hrow, Option.map_some, Option.map_some, hf]
    · rfl
  · rw [hu]

/-- Recording an outcome keeps what the release calls read. -/
theorem sameCalls_record (t : Outbox.Table) (now : ℕ) (id : LongId) (token : String)
    (outcome : Outbox.Outcome) : SameCalls t (Outbox.record t now id token outcome).1 := by
  cases outcome with
  | failed errorClass => exact sameCalls_updateWhere t id _ fun _ => rfl
  | answered result =>
    cases result with
    | none => exact sameCalls_updateWhere t id _ fun _ => rfl
    | some result =>
      unfold Outbox.record
      dsimp only
      split_ifs <;> exact sameCalls_updateWhere t id _ fun _ => rfl

/-- A new instance finds the group there. -/
theorem initialize_eq (h : Ready c w) : orderKeys.initializeQueue consumerGroup w.redis = .ok w.redis := by
  obtain ⟨g, hg⟩ := h.created
  have htyped : Typed w.redis .orders .stream := .inr (typeOf_of_group hg)
  have hcreate : (w.redis.stream .orders).createGroup consumerGroup = none := by
    unfold EventStream.createGroup
    rw [hg]
  simp only [QueueKeys.initializeQueue, orderKeys, expectKind_ok htyped, hcreate, bind, Except.bind]

/-- A publication initializes an activity and answers `0`, or it changes nothing. -/
theorem publish_cases {v : LongId} {o : Outcome ℕ} {ks : Keyspace Key}
    (h : publish c w v = .ok (o, ks)) :
    (o = .answer 0 ∧ ∃ N r, Published c v N r ∧ Absent (keysOf v) w.redis ∧
      w.now < r.expiresAtMillis ∧
      Initialized (keysOf v) N r.beginMillis r.endMillis r.expiresAtMillis w.redis ks) ∨
    (o ≠ .answer 0 ∧ ks = w.redis) := by
  simp only [publish, publishAfterCommit, getOr_bind_eq_ok, bind_assoc] at h
  obtain ⟨voucher, hvoucher, h⟩ := h
  cases hrules : flashSaleRules voucher with
  | error e =>
    rw [hrules] at h
    cases h
  | ok r =>
    rw [hrules] at h
    change (getOr _ _ >>= _) = _ at h
    simp only [getOr_bind_eq_ok, ensure_bind_eq_ok] at h
    obtain ⟨stock, hstock, hpos, hstatus, h⟩ := h
    obtain ⟨N, rfl⟩ := Int.eq_ofNat_of_zero_le hpos.le
    simp only [bind, Except.bind, Except.ok.injEq, counterText_natCast] at h
    change Plan.run w.now (initializeFlashSale w.now w.redis (keysOf v).activityKeys
      (arguments N r.beginMillis r.endMillis r.expiresAtMillis)) w.redis = _ at h
    rcases initialize_cases (keysOf v) w.now N r.beginMillis r.endMillis r.expiresAtMillis w.redis
      with ⟨habsent, hrange, ho, hinit⟩ | ⟨answer, hne, hsame⟩
    · rw [h] at ho hinit
      refine .inl ⟨ho, N, r, ⟨⟨voucher, hvoucher, hrules, hstatus⟩, ?_, hrange.stock_pos,
        hrange.stock_le⟩, habsent, hrange.now_lt, hinit⟩
      rw [← c.stock_eq hvoucher, hstock]
    · rw [h, Prod.mk.injEq] at hsame
      refine .inr ⟨?_, hsame.2⟩
      rw [hsame.1, Ne, Outcome.answer.injEq]
      exact hne

/-- **A voucher that can be published is published**, its keys being absent and its deadline ahead. -/
theorem publish_of_published {v : LongId} {N : ℕ} {r : FlashSaleRules} (h : Published c v N r)
    (habsent : Absent (keysOf v) w.redis) (hnow : w.now < r.expiresAtMillis) :
    ∃ ks, publish c w v = .ok (.answer 0, ks) := by
  obtain ⟨voucher, hvoucher, hrules, hstatus⟩ := h.voucher
  have hstock : voucher.stock = some (N : ℤ) := (c.stock_eq hvoucher).trans h.stock
  have hpos : (0 : ℤ) < N := by exact_mod_cast h.pos
  have hargs : publishAfterCommit voucher =
      .ok (arguments N r.beginMillis r.endMillis r.expiresAtMillis) := by
    simp only [publishAfterCommit, hrules, hstock, hstatus, getOr, ensure, bind, Except.bind,
      counterText_natCast, hpos, if_true]
    rfl
  have hrange : InRange w.now N r.beginMillis r.endMillis r.expiresAtMillis :=
    ⟨h.pos, h.le, r.begin_ge, r.begin_lt_end, r.end_le, r.expires_eq, hnow⟩
  set run := Plan.run w.now (initializeFlashSale w.now w.redis (keysOf v).activityKeys
    (arguments N r.beginMillis r.endMillis r.expiresAtMillis)) w.redis
  have hzero : run.1 = .answer 0 := (initialize_answers_zero habsent hrange).1
  refine ⟨run.2, ?_⟩
  rw [← hzero]
  simp only [publish, hvoucher, hargs, getOr, bind, Except.bind]
  rfl

/-- The arguments of an admission lead to a 64-bit deadline. -/
theorem not_overflows (K : AdmissionKeys Key) (ks : Keyspace Key) (voucher : Voucher)
    (r : FlashSaleRules) (userId orderId : LongId) :
    ¬ DeadlineOverflows K ks (admissionArguments voucher r userId orderId) := by
  rintro ⟨endText, hend, -, hover⟩
  obtain rfl : decimal r.endMillis = endText := Option.some.inj hend
  refine hover (deadlineFits_decimal ?_)
  have := r.end_le
  omega

/-- An admission accepts the order, and leaves exactly that behind, or it changes nothing. -/
theorem admit_cases {v userId orderId : LongId} {appended : Bool} {o : Outcome Reply}
    {ks : Keyspace Key} (h : admitVoucher c w v userId orderId appended = .ok (o, ks)) :
    (accepts o = true ∧ ∃ n x,
      Admitted (keysOf v) w.now userId.text orderId.text v.text n x w.redis ks) ∨
    (accepts o = false ∧ ks = w.redis) := by
  simp only [admitVoucher, getOr_bind_eq_ok, ensure_bind_eq_ok] at h
  obtain ⟨voucher, hvoucher, -, h⟩ := h
  cases hrules : flashSaleRules voucher with
  | error e =>
    rw [hrules] at h
    cases h
  | ok r =>
    rw [hrules] at h
    simp only [bind, Except.bind, Except.ok.injEq] at h
    change Plan.run w.now (seckill w.now appended w.redis (keysOf v).list
      (admissionArguments voucher r userId orderId)) w.redis = _ at h
    have hid : voucher.id = v := by
      simp only [Config.findFlashSale, Option.map_eq_some_iff] at hvoucher
      obtain ⟨voucher₀, hvoucher₀, rfl⟩ := hvoucher
      exact (c.key hvoucher₀ : voucher₀.id = v)
    have hall : AllOrNothing (keysOf v) w.now appended w.redis
        (admissionArguments voucher r userId orderId) :=
      allOrNothing_of_not_overflows (not_overflows (keysOf v) w.redis voucher r userId orderId)
    rcases hall with ⟨user, order, voucherText, b, e, n, x, hargs, ho, hadmitted⟩ | ⟨reply, hreply, hsame⟩
    · left
      simp only [admissionArguments, List.cons.injEq, hid] at hargs
      obtain ⟨rfl, rfl, -, -, -, -, rfl, -⟩ := hargs
      rw [h] at ho hadmitted
      exact ⟨by rw [show o = _ from ho]; rfl, n, x, hadmitted⟩
    · right
      rw [h, Prod.mk.injEq] at hsame
      rw [hsame.1, hsame.2]
      exact ⟨decide_eq_false hreply, rfl⟩

/-- **A call of the transition script** changes nothing, counts an attempt, acknowledges or
archives. -/
theorem transit_move (h : Ready c w) {k : ℕ} {job : Job} (hjob : w.jobs k = some job)
    (a : Transition) (consumer : String) (id : StreamId) {jobs : ℕ → Option Job}
    (hjobs : JobsFrom w.jobs jobs w.redis w.db)
    (hsuccess : a = .success → job = .returned consumer id) :
    Move c w act { w with redis := (transit c w a consumer id).2, jobs := jobs } := by
  obtain ⟨g, hg⟩ := h.created
  have hpending : ∀ p, (w.redis.stream .orders).pendingOf consumerGroup id = some p →
      ∃ n, Counted orderKeys w.redis id n ∧ n ≤ c.maxAttempts := fun p hp => by
    obtain ⟨n, hn, hcounted⟩ := h.counted id (EventStream.unacked_of_pendingOf hp)
    exact ⟨n, hcounted, hn⟩
  obtain ⟨n, hn⟩ : ∃ n, ∀ p, (w.redis.stream .orders).pendingOf consumerGroup id = some p →
      Counted orderKeys w.redis id n ∧ n ≤ 100 := by
    cases hp : (w.redis.stream .orders).pendingOf consumerGroup id with
    | none => exact ⟨0, nofun⟩
    | some p =>
      obtain ⟨n, hcounted, hn⟩ := hpending p hp
      exact ⟨n, fun _ _ => ⟨hcounted, hn.trans c.le_hundred⟩⟩
  rcases transition_cases (K := orderKeys) (M := c.maxAttempts) w.now id c.one_le c.le_hundred hg
      h.attempts hn a consumer with ⟨hsame, -⟩ |
      ⟨hheld, ⟨-, hlt, hrun⟩ | ⟨ha, -, hack⟩ | ⟨errorClass, -, -, -, payload, ks₁, letter, hpayload,
        harchived, hack⟩⟩
  · have hredis : (transit c w a consumer id).2 = w.redis := hsame
    rw [hredis]
    exact .work hjobs
  · have hredis : (transit c w a consumer id).2 = _ := congrArg Prod.snd hrun
    rw [hredis]
    exact .count hheld.counted hlt hjobs
  · have hsound := h.jobs k job hjob
    rw [hsuccess ha] at hsound
    obtain ⟨order, hcarried, hpersisted⟩ := hsound
    exact .acknowledge hheld hcarried hpersisted hack hjobs
  · exact .archive hheld hpayload harchived hack hjobs

/-- **The transaction of a handler** writes the order with its unit of stock or changes nothing. -/
theorem persist_move (h : Ready c w) (k : ℕ) (lost : Option String) :
    Move c w (.persist k lost) (persist w k lost) := by
  unfold persist
  split
  · rename_i consumer id order existing hjob
    obtain ⟨hcarried, hexisting⟩ := h.jobs k _ hjob
    have hnext : ∀ db : Database, Persisted db order →
        ∀ j, some (afterCommit consumer id lost) = some j → j.Sound w.redis db := by
      intro db hpersisted j hj
      obtain rfl := Option.some.inj hj
      cases lost with
      | none => exact ⟨order, hcarried, hpersisted⟩
      | some errorClass => trivial
    cases hp : persistVoucherOrder w.clock existing order w.db with
    | error thrown => exact .work (jobsFrom_update k (by rintro j ⟨⟩; trivial))
    | ok db =>
      rcases persist_cases hp with ⟨hsame, rfl⟩ |
        ⟨-, n, orders, hstock, hpos, hid, hkey, hrows, rfl⟩
      · exact .work (jobsFrom_update k (hnext w.db (hexisting order.id hsame)))
      · refine .persist hcarried hstock hpos hid hkey hrows (jobsFrom_update k (hnext _ ?_)) rfl hjob
        exact ⟨_, by rw [hrows, lookup_insert_eq, if_pos rfl], rfl, rfl⟩
  · exact .refl

/-- The steps of the consumers. -/
theorem consume_move (h : Ready c w) (a : Act) : Move c w a (consume c w a) := by
  unfold consume
  split
  · split
    · rename_i e s hjob hdeliver
      obtain ⟨g, -, hnew, hentries, -, hgroups⟩ := EventStream.deliver_eq_some hdeliver
      refine .deliver hentries ⟨_, by rw [hgroups, Finmap.lookup_insert]⟩
        (fun id hid => EventStream.unacked_of_deliver hdeliver hid)
        (EventStream.live_deliver hdeliver) (jobsFrom_update _ ?_) fun id hid => ?_
      · rintro j ⟨⟩
        exact EventStream.lookup_eq_some.mpr ((w.redis.stream .orders).firstNew_mem hnew).1
      · rw [EventStream.pendingOf_deliver hdeliver]
        split
        · rfl
        · exact hid
    · exact .refl
  · split
    · rename_i fields s hjob hclaim
      obtain ⟨g, p, -, -, hfields, hentries, -, hgroups⟩ := EventStream.claim_eq_some hclaim
      refine .deliver hentries ⟨_, by rw [hgroups, Finmap.lookup_insert]⟩
        (fun id hid => EventStream.unacked_of_claim hclaim hid)
        (EventStream.live_claim hclaim) (jobsFrom_update _ ?_) fun id hid => ?_
      · rintro j ⟨⟩
        exact hfields
      · rw [EventStream.pendingOf_claim hclaim]
        split
        · rfl
        · exact hid
    · exact .refl
  · split
    · rename_i k consumer id fields hjob
      refine transit_move h hjob .begin consumer id (jobsFrom_update _ fun j hj => ?_) nofun
      have hsound : (w.redis.stream .orders).lookup id = some fields := h.jobs _ _ hjob
      unfold afterBegin at hj
      split at hj
      · split_ifs at hj
        · obtain rfl := Option.some.inj hj
          exact hsound
        · obtain rfl := Option.some.inj hj
          trivial
      · cases hj
    · exact .refl
  · split
    · rename_i k consumer id fields hjob
      refine .work (jobsFrom_update _ fun j hj => ?_)
      split at hj
      · rename_i order hdecode
        obtain rfl := Option.some.inj hj
        refine ⟨⟨fields, h.jobs _ _ hjob, hdecode⟩, fun i hi => ?_⟩
        obtain ⟨row, hrow, rfl⟩ := Option.map_eq_some_iff.mp hi
        obtain ⟨hlookup, huser, hvoucher⟩ := Orders.find_eq_some.mp hrow
        exact ⟨row, hlookup, huser, hvoucher⟩
      · obtain rfl := Option.some.inj hj
        trivial
    · exact .refl
  · split
    · exact .work (jobsFrom_update _ (by rintro j ⟨⟩; trivial))
    · exact .work (jobsFrom_update _ (by rintro j ⟨⟩; trivial))
    · exact .refl
  · exact persist_move h _ _
  · split
    · rename_i k a consumer id hlast
      obtain ⟨job, hjob, hcall⟩ := Option.bind_eq_some_iff.mp hlast
      refine transit_move h hjob a consumer id (jobsFrom_update _ nofun) fun ha => ?_
      subst ha
      cases job with
      | returned consumer' id' =>
        simp only [lastCall, Option.some.injEq, Prod.mk.injEq, true_and] at hcall
        rw [hcall.1, hcall.2]
      | _ => simp [lastCall] at hcall
    · exact .refl
  · exact .work (jobsFrom_update _ nofun)
  · exact .refl

/-- **Every step is a move.** -/
theorem step_move (h : Ready c w) (a : Act) : Move c w a (step c w a) := by
  unfold step
  split
  · exact .expire _
  · exact .quiet _ jobsFrom_refl subset_rfl fun _ => rfl
  · rw [initialize_eq h]
    exact .refl
  · split
    · rename_i hpublish
      rcases publish_cases hpublish with ⟨-, N, r, hpublished, habsent, hnow, hinit⟩ | ⟨-, rfl⟩
      · exact .publish hpublished habsent hnow hinit
      · exact .refl
    · exact .refl
  · split
    · rename_i o ks hadm
      rcases admit_cases hadm with ⟨haccepts, n, x, hadmitted⟩ | ⟨haccepts, rfl⟩
      · rw [if_pos haccepts]
        exact .admitVoucher hadmitted rfl
      · rw [if_neg (by rw [haccepts]; exact Bool.false_ne_true)]
        exact .quiet w.clock jobsFrom_refl (Finset.subset_insert _ _) fun _ => rfl
    · exact .refl
  · split
    · rename_i r db hcancel
      rcases cancelMine_cases hcancel with rfl | hcancelled
      · exact .refl
      · exact .cancel hcancelled
    · exact .refl
  · exact .quiet w.clock jobsFrom_refl subset_rfl (sameCalls_updateWhere _ _ _ fun _ => rfl)
  · exact .quiet w.clock jobsFrom_refl subset_rfl (sameCalls_record _ _ _ _ _)
  · exact .quiet w.clock jobsFrom_refl subset_rfl (sameCalls_updateWhere _ _ _ fun _ => rfl)
  · split
    · rename_i orderId e hrow
      rcases FlashSale.Release.release_cases (releaseKeysOf e.voucherId) (h.deadlines _ e hrow) w.now
          w.redis e.userId.text e.orderId.text with ⟨hsame, hne⟩ | ⟨n, hreleasable, -, ho, hreleased⟩
      · have hredis : (release w e).2 = w.redis := hsame
        have hanswer : (release w e).1 ≠ .answer 0 := hne
        dsimp only
        rw [if_neg hanswer, hredis]
        exact .refl
      · have hanswer : (release w e).1 = .answer 0 := ho
        dsimp only
        rw [if_pos hanswer]
        exact .release hrow hreleasable hreleased
    · exact .refl
  · rename_i deadId operator reason
    rcases redrive_cases orderKeys w.now w.redis deadId operator reason with hsame |
      ⟨letter, fields, newId, -, hlabels, hredriven⟩
    · have hredis : (redrive w deadId operator reason).2 = w.redis := hsame
      rw [hredis]
      exact .refl
    · exact .redrive hredriven rfl hlabels
  · exact consume_move h _

end steps

/-! ## What no move takes back -/

section growth

variable {c : Config} {w w' : World} {a : Act}

/-- The keys of the queue are none of an activity. -/
theorem queueKey_ne_activity {k : Key} (hk : QueueKey k) (v : LongId) :
    k ∉ (keysOf v).activityKeys ∧ k ≠ .stock v ∧ k ≠ .released v := by
  cases k with
  | orders | attempts | dead | failures | redrives => simp [keysOf, AdmissionKeys.activityKeys]
  | _ => exact hk.elim

/-- A slot of the queue does not expire. -/
theorem Ready.purge (h : Ready c w) (t : ℕ) {k : Key} (hk : QueueKey k) :
    w.redis.purge t k = w.redis k :=
  Keyspace.purge_of_persistent (h.persistent k hk)

/-- The queue keys besides `stream.orders` that an admission leaves as they are. -/
theorem admitted_frame {v : LongId} {now n x : ℕ} {user order voucher : String} {ks ks' : Keyspace Key}
    (h : Admitted (keysOf v) now user order voucher n x ks ks') {k : Key} (hk : QueueKey k)
    (hne : k ≠ .orders) : ks' k = ks k := by
  refine h.frame k fun hmem => ?_
  cases k with
  | orders => exact hne rfl
  | attempts | dead | failures | redrives => simp [keysOf, AdmissionKeys.list] at hmem
  | _ => exact hk.elim

/-- An admission appends its event. -/
theorem admitted_source {v u o : LongId} {now n x : ℕ} {ks ks' : Keyspace Key}
    (h : Admitted (keysOf v) now u.text o.text v.text n x ks ks') :
    ∃ id s, (ks.stream .orders).append now (admittedFields ⟨o, u, v⟩) = some (id, s) ∧
      ks' .orders = some ⟨.stream s, ks.ttl .orders⟩ :=
  h.stream

/-- The stream of a key that holds one. -/
theorem stream_of_slot {ks : Keyspace Key} {k : Key} {s : EventStream} {t : Option ℕ}
    (h : ks k = some ⟨.stream s, t⟩) : ks.stream k = s := by
  rw [Keyspace.stream, h]

/-- An entry of it. -/
theorem lookup_of_slot {ks : Keyspace Key} {k : Key} {s : EventStream} {t : Option ℕ}
    {id : StreamId} {fields : Fields} (h : ks k = some ⟨.stream s, t⟩)
    (hid : s.lookup id = some fields) : (ks.stream k).lookup id = some fields := by
  rw [stream_of_slot h, hid]

/-- The source stream that an archiving leaves until it acknowledges. -/
theorem archived_source {now n : ℕ} {consumer errorClass letter : String} {id : StreamId}
    {payload : Fields} {ks ks' : Keyspace Key}
    (h : Archived orderKeys now consumerGroup consumer id n errorClass payload ks ks' letter) :
    ks' .orders = ks .orders ∧ ks' .attempts = ks .attempts ∧ ks' .redrives = ks .redrives :=
  ⟨h.frame _ (by decide) (by decide), h.frame _ (by decide) (by decide),
    h.frame _ (by decide) (by decide)⟩

/-- **Entries stay.** -/
theorem Move.entries (h : Ready c w) (m : Move c w a w') {id : StreamId} {fields : Fields}
    (hid : (w.redis.stream .orders).lookup id = some fields) :
    (w'.redis.stream .orders).lookup id = some fields := by
  cases m with
  | quiet _ _ _ _ => exact hid
  | expire d =>
    rw [Keyspace.stream_congr (h.purge _ (k := .orders) trivial)]
    exact hid
  | publish _ _ _ hinit =>
    rw [Keyspace.stream_congr (hinit.frame _ (queueKey_ne_activity (k := .orders) trivial _).1)]
    exact hid
  | admitVoucher hadmitted _ =>
    obtain ⟨newId, s, happend, hslot⟩ := admitted_source hadmitted
    exact lookup_of_slot hslot (EventStream.lookup_append_of_some happend hid)
  | deliver hentries _ _ _ _ _ =>
    rw [stream_put, EventStream.lookup_congr hentries]
    exact hid
  | count _ _ _ =>
    rw [Keyspace.stream_congr (Keyspace.put_of_ne _ _ (by decide))]
    exact hid
  | acknowledge _ _ _ hack _ =>
    exact lookup_of_slot hack.source ((EventStream.lookup_congr EventStream.ack_entries).trans hid)
  | archive _ _ harchived hack _ =>
    refine lookup_of_slot hack.source ((EventStream.lookup_congr EventStream.ack_entries).trans ?_)
    show (Keyspace.stream _ Key.orders).lookup id = _
    rw [Keyspace.stream_congr (archived_source harchived).1]
    exact hid
  | persist _ _ _ _ _ _ _ _ _ => exact hid
  | cancel _ => exact hid
  | release _ _ hreleased =>
    obtain ⟨-, hstock, hmarks⟩ := queueKey_ne_activity (k := .orders) trivial _
    rw [Keyspace.stream_congr (hreleased.frame _ hstock hmarks)]
    exact hid
  | redrive hredriven _ _ =>
    obtain ⟨s, happend, hslot⟩ := hredriven.source
    exact lookup_of_slot hslot (EventStream.lookup_append_of_some happend hid)

/-- Rows keep their user and their voucher. -/
theorem Move.persisted (m : Move c w a w') {o : VoucherOrder} (ho : Persisted w.db o) :
    Persisted w'.db o := by
  obtain ⟨row, hrow, huser, hvoucher⟩ := ho
  cases m with
  | persist _ _ _ hid _ hrows _ _ _ =>
    refine ⟨row, ?_, huser, hvoucher⟩
    rw [hrows, lookup_insert_eq, if_neg, hrow]
    intro heq
    rw [← heq, hrow] at hid
    cases hid
  | @cancel userId orderId v db hcancelled =>
    obtain ⟨row', hrow', -, -, -, hrows⟩ := hcancelled.row
    rw [Persisted, hrows]
    by_cases hid : o.id = orderId
    · obtain rfl : row' = row := Option.some.inj (hrow'.symm.trans (hid ▸ hrow))
      exact ⟨{ row' with status := 4, updateTime := w.clock },
        by rw [lookup_insert_eq, if_pos hid], huser, hvoucher⟩
    · exact ⟨row, by rw [lookup_insert_eq, if_neg hid, hrow], huser, hvoucher⟩
  | _ => exact ⟨row, hrow, huser, hvoucher⟩

/-- What a worker knows stays true. -/
theorem Move.sound (h : Ready c w) (m : Move c w a w') {job : Job} (hjob : job.Sound w.redis w.db) :
    job.Sound w'.redis w'.db := by
  have hcarried : ∀ {id : StreamId} {o : VoucherOrder}, Carried w.redis id o → Carried w'.redis id o :=
    fun ⟨fields, hfields, ho⟩ => ⟨fields, m.entries h hfields, ho⟩
  cases job with
  | received consumer id fields => exact m.entries h hjob
  | begun consumer id fields => exact m.entries h hjob
  | selected consumer id order existing =>
    exact ⟨hcarried hjob.1, fun i hi => m.persisted (hjob.2 i hi)⟩
  | returned consumer id =>
    obtain ⟨order, ho, hpersisted⟩ := hjob
    exact ⟨order, hcarried ho, m.persisted hpersisted⟩
  | spent consumer id => trivial
  | threw consumer id errorClass => trivial

/-- Every worker knows what it read after a move too. -/
theorem Move.jobs (h : Ready c w) (m : Move c w a w') (k : ℕ) (job : Job)
    (hjob : w'.jobs k = some job) : job.Sound w'.redis w'.db := by
  have hkept : w.jobs k = some job → job.Sound w'.redis w'.db := fun hk =>
    m.sound h (h.jobs k job hk)
  have hnew : job.Sound w.redis w.db → job.Sound w'.redis w'.db := m.sound h
  cases m with
  | quiet _ hjobs _ _ => exact (hjobs k job hjob).elim hkept hnew
  | deliver _ _ _ _ hjobs _ => exact (hjobs k job hjob).elim hkept hnew
  | count _ _ hjobs => exact (hjobs k job hjob).elim hkept hnew
  | acknowledge _ _ _ _ hjobs => exact (hjobs k job hjob).elim hkept hnew
  | archive _ _ _ _ hjobs => exact (hjobs k job hjob).elim hkept hnew
  | persist _ _ _ _ _ _ hjobs _ _ => exact (hjobs k job hjob).elim hkept id
  | _ => exact hkept hjob

end growth

/-! ## Ready worlds stay ready -/

section ready

variable {c : Config} {w w' : World} {a : Act}

/-- A move that leaves the queue keys as they are. -/
theorem Ready.frame (h : Ready c w) (hkeys : ∀ k, QueueKey k → w'.redis k = w.redis k)
    (hdeadlines : ∀ id e, w'.db.cancellations.lookup id = some e → e.expiresAtMs < 2 ^ 53)
    (hjobs : ∀ k job, w'.jobs k = some job → job.Sound w'.redis w'.db) : Ready c w' where
  created := by
    rw [Keyspace.stream_congr (hkeys .orders trivial)]
    exact h.created
  attempts := (typed_congr (hkeys .attempts trivial)).mpr h.attempts
  dead := (typed_congr (hkeys .dead trivial)).mpr h.dead
  failures := (typed_congr (hkeys .failures trivial)).mpr h.failures
  redrives := (typed_congr (hkeys .redrives trivial)).mpr h.redrives
  persistent k hk := (Keyspace.ttl_congr (hkeys k hk)).trans (h.persistent k hk)
  counted id hid := by
    rw [Keyspace.stream_congr (hkeys .orders trivial)] at hid
    obtain ⟨n, hn, hcounted⟩ := h.counted id hid
    exact ⟨n, hn, (Keyspace.hget_congr (hkeys .attempts trivial) _).trans hcounted⟩
  deadlines := hdeadlines
  jobs := hjobs

/-- A move that changes the source stream, none of whose entries comes back to be acknowledged, and
leaves the other queue keys as they are. -/
theorem Ready.source (h : Ready c w) {s : EventStream} {t : Option ℕ}
    (hslot : w'.redis .orders = some ⟨.stream s, t⟩) (ht : t = w.redis.ttl .orders)
    (hcreated : ∃ g, s.groups.lookup consumerGroup = some g)
    (hunacked : ∀ id, s.Unacked consumerGroup id →
      (w.redis.stream .orders).Unacked consumerGroup id)
    (hkeys : ∀ k, QueueKey k → k ≠ .orders → k ≠ .redrives → w'.redis k = w.redis k)
    (hredrives : Typed w'.redis .redrives .hash)
    (hpersistent : w'.redis.ttl .redrives = none)
    (hdeadlines : ∀ id e, w'.db.cancellations.lookup id = some e → e.expiresAtMs < 2 ^ 53)
    (hjobs : ∀ k job, w'.jobs k = some job → job.Sound w'.redis w'.db) : Ready c w' where
  created := by
    rw [stream_of_slot hslot]
    exact hcreated
  attempts := (typed_congr (hkeys .attempts trivial (by decide) (by decide))).mpr h.attempts
  dead := (typed_congr (hkeys .dead trivial (by decide) (by decide))).mpr h.dead
  failures := (typed_congr (hkeys .failures trivial (by decide) (by decide))).mpr h.failures
  redrives := hredrives
  persistent k hk := by
    by_cases ho : k = .orders
    · subst ho
      rw [Keyspace.ttl, hslot, Option.bind_some, ht]
      exact h.persistent _ hk
    by_cases hr : k = .redrives
    · subst hr
      exact hpersistent
    · exact (Keyspace.ttl_congr (hkeys k hk ho hr)).trans (h.persistent k hk)
  counted id hid := by
    rw [stream_of_slot hslot] at hid
    obtain ⟨n, hn, hcounted⟩ := h.counted id (hunacked id hid)
    exact ⟨n, hn, (Keyspace.hget_congr (hkeys .attempts trivial (by decide) (by decide)) _).trans
      hcounted⟩
  deadlines := hdeadlines
  jobs := hjobs

/-- A move that acknowledges an entry, after it may have archived it. -/
theorem Ready.acknowledged (h : Ready c w) {id : StreamId} {n : ℕ} {consumer : String}
    {ks : Keyspace Key} (hheld : Held orderKeys consumerGroup consumer id n w.redis)
    (horders : ks .orders = w.redis .orders) (hattempts : ks .attempts = w.redis .attempts)
    (hdead : Typed ks .dead .stream) (hfailures : Typed ks .failures .hash)
    (hredrives : ks .redrives = w.redis .redrives)
    (httl : ∀ k t, ks.ttl k = some t → w.redis.ttl k = some t)
    (hack : Acknowledged orderKeys consumerGroup id ks w'.redis) (hdb : w'.db = w.db)
    (hjobs : ∀ k job, w'.jobs k = some job → job.Sound w'.redis w'.db) : Ready c w' := by
  obtain ⟨p, hp, -⟩ := hheld.owned
  have hp' : (w.redis.stream .orders).pendingOf consumerGroup id = some p := hp
  have hsource : w'.redis.stream .orders = (w.redis.stream .orders).ack consumerGroup id := by
    rw [← Keyspace.stream_congr horders]
    exact hack.stream
  have hother : ∀ k, k ≠ .orders → k ≠ .attempts → w'.redis k = ks k := hack.frame
  obtain ⟨g, hg⟩ := h.created
  refine ⟨⟨⟨g.lastDelivered, g.pending.erase id⟩, ?_⟩, hack.attempts,
    (typed_congr (hother _ (by decide) (by decide))).mpr hdead,
    (typed_congr (hother _ (by decide) (by decide))).mpr hfailures,
    (typed_congr ((hother _ (by decide) (by decide)).trans hredrives)).mpr h.redrives,
    fun k hk => ?_, fun id' hid' => ?_, fun id' e he => ?_, hjobs⟩
  · rw [hsource, EventStream.ack_groups hg, Finmap.lookup_insert]
  · by_contra hne
    obtain ⟨t, ht⟩ := Option.ne_none_iff_exists'.mp hne
    have hold := httl k t (hack.ttl k t ht)
    rw [h.persistent k hk] at hold
    cases hold
  · rw [hsource] at hid'
    obtain ⟨hunacked, hne⟩ := EventStream.unacked_of_ack hp' hid'
    obtain ⟨n', hn', hcounted⟩ := h.counted id' hunacked
    refine ⟨n', hn', ?_⟩
    have hcounts : w'.redis.hget .attempts id'.render = ks.hget .attempts id'.render := by
      have := hack.counts id'.render
      rwa [if_neg (by rw [StreamId.render_inj]; exact hne)] at this
    exact hcounts.trans ((Keyspace.hget_congr hattempts _).trans hcounted)
  · rw [hdb] at he
    exact h.deadlines id' e he

/-- The deadlines of the cancellations stay numbers that a script can hold. -/
theorem Move.deadlines (h : Ready c w) (m : Move c w a w') :
    ∀ id e, w'.db.cancellations.lookup id = some e → e.expiresAtMs < 2 ^ 53 := by
  intro id e he
  cases m with
  | quiet _ _ _ hcalls =>
    obtain ⟨e₀, he₀, hdata⟩ := hcalls.exists he
    simp only [releaseData, Prod.mk.injEq] at hdata
    rw [hdata.2.2.2]
    exact h.deadlines id e₀ he₀
  | cancel hcancelled =>
    obtain ⟨voucher, r, -, -, -, hinsert⟩ := hcancelled.cancellation
    rw [hinsert, lookup_insert_eq] at he
    split at he
    · rw [← Option.some.inj he]
      show r.expiresAtMillis < 2 ^ 53
      have hend := r.end_le
      have hexpires := r.expires_eq
      unfold seckillRetentionMillis at hexpires
      omega
    · exact h.deadlines id e he
  | _ => exact h.deadlines id e he

/-- **A move keeps the world ready.** -/
theorem Ready.move (h : Ready c w) (m : Move c w a w') : Ready c w' := by
  have hdeadlines := m.deadlines h
  have hjobs := m.jobs h
  cases m with
  | quiet _ _ _ _ => exact h.frame (fun _ _ => rfl) hdeadlines hjobs
  | expire d => exact h.frame (fun k hk => h.purge _ hk) hdeadlines hjobs
  | publish _ _ _ hinit =>
    exact h.frame (fun k hk => hinit.frame k (queueKey_ne_activity hk _).1) hdeadlines hjobs
  | admitVoucher hadmitted _ =>
    obtain ⟨g, hg⟩ := h.created
    obtain ⟨newId, s, happend, hslot⟩ := admitted_source hadmitted
    have hgroups := (EventStream.append_eq_some happend).2.2.2
    have hkeys := fun k hk ho => admitted_frame hadmitted (k := k) hk ho
    refine h.source hslot rfl ⟨g, by rw [hgroups, hg]⟩
      (fun id hid => (EventStream.unacked_congr hgroups).mp hid)
      (fun k hk ho _ => hkeys k hk ho) ?_ ?_ hdeadlines hjobs
    · exact (typed_congr (hkeys .redrives trivial (by decide))).mpr h.redrives
    · exact (Keyspace.ttl_congr (hkeys .redrives trivial (by decide))).trans
        (h.persistent _ trivial)
  | @deliver s jobs hentries hcreated hunacked hlive hnew _ =>
    have hput : ∀ k, k ≠ .orders → w.redis.put .orders (.stream s) k = w.redis k :=
      fun k hk => Keyspace.put_of_ne _ _ hk
    refine h.source (w.redis.put_self .orders (.stream s)) rfl hcreated hunacked (fun k _ ho _ => hput k ho) ?_ ?_
      hdeadlines hjobs
    · exact (typed_congr (hput _ (by decide))).mpr h.redrives
    · exact (Keyspace.ttl_congr (hput _ (by decide))).trans (h.persistent .redrives trivial)
  | @count id n jobs hcounted hn hnew =>
    have hput : ∀ k, k ≠ .attempts → w.redis.put .attempts
        (.hash ((w.redis.fields .attempts).insert id.render (decimal (n + 1)))) k = w.redis k :=
      fun k hk => Keyspace.put_of_ne _ _ hk
    have hsource := Keyspace.stream_congr (hput .orders (by decide))
    refine ⟨?_, typed_put rfl, (typed_congr (hput _ (by decide))).mpr h.dead,
      (typed_congr (hput _ (by decide))).mpr h.failures,
      (typed_congr (hput _ (by decide))).mpr h.redrives,
      fun k hk => (Keyspace.ttl_put ..).trans (h.persistent k hk), fun id' hid' => ?_, hdeadlines,
      hjobs⟩
    · obtain ⟨g, hg⟩ := h.created
      exact ⟨g, by rw [hsource, hg]⟩
    · rw [hsource] at hid'
      obtain ⟨n', hn', hcounted'⟩ := h.counted id' hid'
      by_cases hid : id' = id
      · subst hid
        refine ⟨n + 1, hn, ?_⟩
        show Keyspace.hget _ Key.attempts _ = _
        rw [hget_put, Finmap.lookup_insert, if_neg n.succ_ne_zero]
      · refine ⟨n', hn', ?_⟩
        show Keyspace.hget _ Key.attempts _ = _
        rw [hget_put, Finmap.lookup_insert_of_ne _ (by rwa [Ne, StreamId.render_inj])]
        exact hcounted'
  | acknowledge hheld _ _ hack _ =>
    exact h.acknowledged hheld rfl rfl h.dead h.failures rfl (fun _ _ => id) hack rfl hjobs
  | archive hheld _ harchived hack _ =>
    obtain ⟨horders, hattempts, hredrives⟩ := archived_source harchived
    refine h.acknowledged hheld horders hattempts ?_ harchived.failures hredrives harchived.ttl hack
      rfl hjobs
    rcases harchived.lettered with ⟨-, deadId, s, -, -, hput⟩ | ⟨-, hsame, -⟩
    · exact .inr (Keyspace.typeOf_of_slot hput)
    · exact (typed_congr hsame).mpr h.dead
  | persist _ _ _ _ _ _ _ _ _ => exact h.frame (fun _ _ => rfl) hdeadlines hjobs
  | cancel _ => exact h.frame (fun _ _ => rfl) hdeadlines hjobs
  | release _ _ hreleased =>
    refine h.frame (fun k hk => ?_) hdeadlines hjobs
    obtain ⟨-, hstock, hmarks⟩ := queueKey_ne_activity hk _
    exact hreleased.frame k hstock hmarks
  | redrive hredriven _ _ =>
    obtain ⟨g, hg⟩ := h.created
    obtain ⟨s, happend, hslot⟩ := hredriven.source
    have hgroups : s.groups = (w.redis.stream .orders).groups :=
      (EventStream.append_eq_some happend).2.2.2
    exact h.source hslot rfl ⟨g, by rw [hgroups, hg]⟩
      (fun id hid => (EventStream.unacked_congr hgroups).mp hid)
      (fun k _ ho hr => hredriven.frame k ho hr) hredriven.redrives
      ((hredriven.ttl _).trans (h.persistent .redrives trivial)) hdeadlines hjobs

/-- The first world is ready. -/
theorem ready_initial (c : Config) (now clock : ℕ) : Ready c (initial c now clock) where
  created := ⟨⟨.zero, ∅⟩, rfl⟩
  attempts := .inl rfl
  dead := .inl rfl
  failures := .inl rfl
  redrives := .inl rfl
  persistent k _ := by cases k <;> rfl
  counted id _ := ⟨0, Nat.zero_le _, rfl⟩
  deadlines id e he := by cases he
  jobs k job hjob := by cases hjob

/-- **Every step keeps the world ready.** -/
theorem Ready.step (h : Ready c w) (a : Act) : Ready c (OrderFlow.step c w a) :=
  h.move (step_move h a)

end ready

/-! ## The small sale -/

/-- The window of the small sale. -/
def smallWindow : FlashSaleRules where
  beginMillis := 1000
  endMillis := 2000
  expiresAtMillis := 86402000
  begin_ge := le_rfl
  end_le := by decide
  begin_lt_end := by decide
  expires_eq := rfl

/-- The voucher of the small sale may be published. -/
theorem published_smallSale : Published smallSale voucherOne 1 smallWindow where
  voucher := ⟨voucherOnSale, Finmap.lookup_singleton_eq, rfl, rfl⟩
  stock := Finmap.lookup_singleton_eq
  pos := one_pos
  le := by decide

/-- The small sale can be published. -/
theorem publish_smallSale :
    ∃ ks, publish smallSale (initial smallSale 1000 0) voucherOne = .ok (.answer 0, ks) :=
  publish_of_published published_smallSale (fun k hk => by
    have horders : k ≠ .orders := fun h => (queueKey_ne_activity (k := .orders) trivial voucherOne).1 (h ▸ hk)
    exact if_neg horders) (by decide)

/-- The order of user `1`. -/
def firstOrder : VoucherOrder := ⟨voucherOne, voucherOne, voucherOne⟩

/-- The voucher is published, and user `1` is admitted. -/
def firstSale : List Act := [.publish voucherOne, .admitVoucher voucherOne voucherOne voucherOne true]

/-- The order is accepted. -/
theorem firstOrder_accepted :
    (Runs.run (step smallSale) (initial smallSale 1000 0) firstSale).Accepted firstOrder := by
  show ((Runs.run (step smallSale) (initial smallSale 1000 0) firstSale).accepted voucherOne).lookup
    voucherOne = some voucherOne
  decide +kernel

end CampusHub.OrderFlow
