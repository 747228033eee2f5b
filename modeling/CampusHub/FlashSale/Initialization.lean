import CampusHub.FlashSale.Rules
import CampusHub.FlashSale.Scripts

/-!
# The activity of a new voucher

* `AdmissionKeys` — the five keys of an activity and its stream, all different.
* `Initialized` — what `initialize-flash-sale.lua` leaves behind.
* `initialize_eq_ok_iff` — on decimal texts the checks of the script are exactly the numeric bounds.
* `initialize_answers_zero`, `initialize_cases` — the run of the script in both directions.

The script is called after the commit of a voucher, and it must not touch an activity that is there.
`initialize_cases` is the whole specification of a call: the keys were absent and the numbers in range, and
the activity is initialized, or nothing changes.

**Proof route.** The checks compare texts of numbers, and on decimal texts they are the numeric bounds
(`initialize_eq_ok_iff`), because a decimal text below `2^53` is read exactly. The four writes go to keys
that are absent, so none of them can fail (`exec_writes`).

**Left out.** A server that dies between the writes of the script.
-/

namespace CampusHub.FlashSale.Initialization

open CampusHub.Redis CampusHub.Foundations.Guards CampusHub.Foundations.Lua
open CampusHub.Foundations.Decimal CampusHub.Foundations.Maps CampusHub.FlashSale.Scripts
open CampusHub.Domain

variable {κ : Type}

/-- The five keys of `seckill.lua`, all different. -/
structure AdmissionKeys (κ : Type) where
  stock : κ
  participants : κ
  activity : κ
  request : κ
  stream : κ
  nodup : [stock, participants, activity, request, stream].Nodup

namespace AdmissionKeys

/-- `KEYS` of the admission script. -/
def list (K : AdmissionKeys κ) : List κ :=
  [K.stock, K.participants, K.activity, K.request, K.stream]

/-- `KEYS` of the initialization script. -/
def activityKeys (K : AdmissionKeys κ) : List κ :=
  [K.stock, K.participants, K.activity, K.request]

end AdmissionKeys

/-- The keys of the activity of a voucher, and the order stream. -/
def keysOf (v : LongId) : AdmissionKeys Key where
  stock := .stock v
  participants := .order v
  activity := .activity v
  request := .request v
  stream := .orders
  nodup := by simp

/-- The metadata of an activity. -/
def metadata (beginMillis endMillis expireAt : ℕ) : List (String × String) :=
  [("status", "1"), ("beginAt", decimal beginMillis), ("endAt", decimal endMillis),
    ("expireAt", decimal expireAt)]

/-- The bounds that the initialization script checks. -/
structure InRange (now stock beginMillis endMillis expireAt : ℕ) : Prop where
  stock_pos : 0 < stock
  stock_le : stock ≤ 2147483647
  begin_ge : 1000 ≤ beginMillis
  begin_lt_end : beginMillis < endMillis
  end_le : endMillis ≤ 2147483647000
  expire_eq : expireAt = endMillis + 86400000
  now_lt : now < expireAt

/-- The deadline is a number that Lua holds exactly. -/
theorem InRange.expire_lt {now stock b e x : ℕ} (h : InRange now stock b e x) : x < 2 ^ 53 := by
  have := h.end_le
  have := h.expire_eq
  omega

/-- The four activity keys are absent. -/
def Absent (K : AdmissionKeys κ) (ks : Keyspace κ) : Prop := ∀ k ∈ K.activityKeys, ks k = none

/-- `TYPE` answers `none` exactly for a key that is absent. -/
theorem typeOf_eq_none {ks : Keyspace κ} {k : κ} : ks.typeOf k = .none ↔ ks k = none := by
  unfold Keyspace.typeOf
  split
  · simp_all
  · rename_i e he
    rw [he]
    constructor
    · rcases e with ⟨v, t⟩
      cases v <;> simp [Value.kind]
    · simp

/-- The arguments of the script for these numbers. -/
def arguments (stock beginMillis endMillis expireAt : ℕ) : List String :=
  [decimal stock, decimal beginMillis, decimal endMillis, decimal expireAt]

/-- The writes of the script for these numbers. -/
def writes (K : AdmissionKeys κ) (stock beginMillis endMillis expireAt : ℕ) : List (Command κ) :=
  [.set K.stock (decimal stock), .pexpireat K.stock (decimal expireAt),
    .hset K.activity (metadata beginMillis endMillis expireAt),
    .pexpireat K.activity (decimal expireAt)]

/-- **The checks on decimal texts are the numeric bounds.** -/
theorem initialize_eq_ok_iff {K : AdmissionKeys κ} {now n b e x : ℕ} {ks : Keyspace κ}
    {p : List (Command κ) × ℕ} :
    initializeFlashSale now ks K.activityKeys (arguments n b e x) = .ok p ↔
      Absent K ks ∧ InRange now n b e x ∧ p = (writes K n b e x, 0) := by
  unfold initializeFlashSale AdmissionKeys.activityKeys arguments
  simp only [ensure_bind_eq_ok, getOr_bind_eq_ok, typeOf_eq_none]
  constructor
  · rintro ⟨h1, h2, h3, h4, xn, hxn, -, hnmax, -, hnpos, xb, hxb, xe, hxe, hb, hemax, hlt, xx, hxx,
      hsum, hnow, -, -, -, hp⟩
    obtain ⟨n', hn', hn⟩ := isPositiveDecimal_iff.mp hnpos
    obtain rfl := decimal_inj.mp hn
    have hnle := tonumber_decimal_le (b := 2147483647) (by norm_num) hxn hnmax
    have hele := tonumber_decimal_le (b := 2147483647000) (by norm_num) hxe hemax
    obtain rfl := Option.some.inj ((tonumber_decimal (by omega)).symm.trans hxe)
    have hble := tonumber_decimal_le (b := e) (by omega) hxb (lt_of_le_eq_false hlt)
    obtain rfl := Option.some.inj ((tonumber_decimal (by omega)).symm.trans hxb)
    rw [add_ofNat (by omega), eq_ofNat_iff] at hsum
    have hxle := tonumber_decimal_le (b := e + 86400000) (by omega) hxx (by rw [hsum]; simp)
    obtain rfl := Option.some.inj ((tonumber_decimal (by omega)).symm.trans hxx)
    simp only [lt_ofNat, le_ofNat, decide_eq_false_iff_not, not_lt, not_le] at hb hlt hnow
    have hx : x = e + 86400000 := by
      rw [← eq_ofNat_iff, eq_ofNat, decide_eq_true_eq] at hsum
      exact hsum
    refine ⟨?_, ⟨hn', hnle, hb, hlt, hele, hx, hnow⟩, (Except.ok.inj hp).symm⟩
    simp [Absent, AdmissionKeys.activityKeys, h1, h2, h3, h4]
  · rintro ⟨habs, hr, rfl⟩
    have hx := hr.expire_lt
    obtain ⟨hn, hnle, hb, hlt, hele, rfl, hnow⟩ := hr
    simp only [Absent, AdmissionKeys.activityKeys, List.forall_mem_cons, List.not_mem_nil,
      false_imp_iff, implies_true, and_true] at habs
    obtain ⟨h1, h2, h3, h4⟩ := habs
    refine ⟨h1, h2, h3, h4, .ofNat n, tonumber_decimal (by omega), by simpa using hn.ne',
      by simpa using hnle, by simp, isPositiveDecimal_decimal hn, .ofNat b,
      tonumber_decimal (by omega), .ofNat e, tonumber_decimal (by omega), by simpa using hb,
      by simpa using hele, by simpa using hlt, .ofNat (e + 86400000), tonumber_decimal hx, ?_,
      by simpa using hnow, by simp, by simp, by simp, rfl⟩
    rw [add_ofNat hx]
    simp

/-- The script answers `1` or `2` when a check fails. -/
theorem initialize_raises (now : ℕ) (ks : Keyspace κ) (keys : List κ) (args : List String) :
    Raises (fun o => o = .answer 1 ∨ o = .answer 2) (initializeFlashSale now ks keys args) := by
  unfold initializeFlashSale
  split
  · simp
  · simp

variable [DecidableEq κ]

/-- **An initialized activity.** The stock and the metadata are there until the deadline; nobody has
taken part. -/
structure Initialized (K : AdmissionKeys κ) (stock beginMillis endMillis expireAt : ℕ)
    (ks ks' : Keyspace κ) : Prop where
  stock : ks' K.stock = some ⟨.str (decimal stock), some expireAt⟩
  participants : ks' K.participants = none
  activity : ks' K.activity =
    some ⟨.hash (writeFields ∅ (metadata beginMillis endMillis expireAt)), some expireAt⟩
  request : ks' K.request = none
  frame : ∀ k, k ∉ K.activityKeys → ks' k = ks k

/-- The writes of the script succeed and initialize the activity. -/
theorem exec_writes {K : AdmissionKeys κ} {now n b e x : ℕ} {ks : Keyspace κ} (habs : Absent K ks)
    (hr : InRange now n b e x) :
    ∃ ks', exec now (writes K n b e x) ks = (ks', none) ∧ Initialized K n b e x ks ks' := by
  have hne := K.nodup
  simp only [List.nodup_cons, List.mem_cons, List.not_mem_nil, or_false, not_or] at hne
  obtain ⟨⟨h12, h13, h14, -⟩, ⟨h23, h24, -⟩, ⟨h34, -⟩, -⟩ := hne
  simp only [Absent, AdmissionKeys.activityKeys, List.forall_mem_cons, List.not_mem_nil,
    false_imp_iff, implies_true, and_true] at habs
  obtain ⟨-, h2, h3, h4⟩ := habs
  have ht : string2ll (decimal x) = some (x : ℤ) :=
    string2ll_decimal (by have := hr.expire_lt; unfold llongMax; omega)
  set ks1 := ks.store K.stock (.str (decimal n)) with hks1
  set ks2 := ks1.expire K.stock x with hks2
  have hstore : apply now ks (.set K.stock (decimal n)) = .ok ks1 := rfl
  have hact : ks2 K.activity = none := by
    simp [hks2, hks1, Keyspace.expire_apply, Keyspace.store_apply, Ne.symm h13, h3]
  have hset : apply now ks2 (.hset K.activity (metadata b e x)) =
      .ok (ks2.put K.activity (.hash (writeFields ∅ (metadata b e x)))) := by
    rw [apply_hset (.inl (typeOf_eq_none.mpr hact))]
    simp [Keyspace.fields, hact]
  refine ⟨_, by
    rw [writes, exec_cons hstore, exec_cons (apply_pexpireat ht hr.now_lt), exec_cons hset,
      exec_cons (apply_pexpireat ht hr.now_lt)]
    rfl, ?_⟩
  constructor
  · simp [Keyspace.expire_apply, Keyspace.put_apply, Keyspace.store_apply, hks2, hks1, h13]
  · simp [Keyspace.expire_apply, Keyspace.put_apply, Keyspace.store_apply, hks2, hks1, h23, Ne.symm h12, h2]
  · simp
  · simp [Keyspace.expire_apply, Keyspace.put_apply, Keyspace.store_apply, hks2, hks1, Ne.symm h34, Ne.symm h14, h4]
  · intro k hk
    simp only [AdmissionKeys.activityKeys, List.mem_cons, List.not_mem_nil, or_false, not_or] at hk
    obtain ⟨hk1, -, hk3, -⟩ := hk
    simp [Keyspace.expire_apply, Keyspace.put_apply, Keyspace.store_apply, hks2, hks1, hk1, hk3]

/-- **In range, with the keys absent, the script answers `0`.** -/
theorem initialize_answers_zero {K : AdmissionKeys κ} {now n b e x : ℕ} {ks : Keyspace κ}
    (habs : Absent K ks) (hr : InRange now n b e x) :
    (Plan.run now (initializeFlashSale now ks K.activityKeys (arguments n b e x)) ks).1 =
        .answer 0 ∧
      Initialized K n b e x ks
        (Plan.run now (initializeFlashSale now ks K.activityKeys (arguments n b e x)) ks).2 := by
  obtain ⟨ks', hexec, hinit⟩ := exec_writes habs hr
  rw [initialize_eq_ok_iff.mpr ⟨habs, hr, rfl⟩]
  simpa only [Plan.run, hexec, true_and] using hinit

/-- What a call of the script does: it initializes the activity, or it changes nothing. -/
theorem initialize_cases (K : AdmissionKeys κ) (now n b e x : ℕ) (ks : Keyspace κ) :
    (Absent K ks ∧ InRange now n b e x ∧
      (Plan.run now (initializeFlashSale now ks K.activityKeys (arguments n b e x)) ks).1 =
        .answer 0 ∧
      Initialized K n b e x ks
        (Plan.run now (initializeFlashSale now ks K.activityKeys (arguments n b e x)) ks).2) ∨
    (∃ r ≠ 0, Plan.run now (initializeFlashSale now ks K.activityKeys (arguments n b e x)) ks =
      (.answer r, ks)) := by
  cases h : initializeFlashSale now ks K.activityKeys (arguments n b e x) with
  | error o =>
    right
    rcases initialize_raises now ks _ _ o h with rfl | rfl
    · exact ⟨1, by decide, rfl⟩
    · exact ⟨2, by decide, rfl⟩
  | ok p =>
    left
    obtain ⟨habs, hr, -⟩ := initialize_eq_ok_iff.mp h
    rw [← h]
    exact ⟨habs, hr, initialize_answers_zero habs hr⟩

end CampusHub.FlashSale.Initialization
