import CampusHub.Foundations.Runs
import CampusHub.ShopCache.Scripts

/-!
# Shops, their cache and their outbox

* `Shop` — the row of a shop, its cache keys, its row in the outbox and the tasks at work on it.
* `Task` — callbacks, recovery workers and readers, each between two of its calls.
* `ShopAct`, `Shop.step` — the calls, each of which may be cut off, come late or not at all.
* `World`, `Act`, `step` — all shops. A call names one shop and touches its keys and rows only.

A write commits the row together with an entry of the outbox under a new generation, and its callback
invalidates the cache after the commit. If the callback does not come, a worker finds the entry and
invalidates; the entry goes away only for the generation that its invalidation has seen. A reader looks into
the cache, takes the lock, looks again, loads the row and publishes it under the epoch that it saw.

Calls of Redis may be answered or not; an invalidation may be cut off between its writes, and one that was
given up may still arrive later (`strays`). A task that stops for ever is one whose next act never comes.

**Left out.** The fields of a shop: a row is any type. Other writers of the table, which do not go through
the program, are not known to the outbox and so not to the cache.
-/

namespace CampusHub.ShopCache

open CampusHub.Redis CampusHub.Domain CampusHub.Foundations.Decimal

/-- A row of `tb_shop_cache_invalidation`. Source: `V004__add_shop_cache_invalidation_outbox.sql`. -/
structure Invalidation where
  generation : String
  attempts : ℕ
  lastError : Option String
  deriving DecidableEq

/-- How a call of a script goes. -/
inductive Fate where
  | answered
  /-- It is applied, and its answer does not come back. -/
  | unheard
  /-- The server stops after its first `n` writes. -/
  | cut (n : ℕ)
  | lost
  /-- It is applied after its caller gave up. -/
  | late

/-- How the part of `queryShop` under the lock ends. -/
inductive Verdict (ρ : Type) where
  | value (v : Option ρ)
  /-- The publication answered `0`. -/
  | rejected
  | thrown
  deriving DecidableEq

/-- A task between two of its calls. `ρ` are the rows of a shop. -/
inductive Task (ρ : Type) where
  /-- A writer has committed and comes to its callback. Source: `ShopCacheInvalidationService.java` 48–61. -/
  | committed
  /-- A worker has an entry of `pending()`. Source: `ShopCacheInvalidationService.java` 69. -/
  | recovering (generation : String)
  /-- Its invalidation returned. Source: `ShopCacheInvalidationService.java` 88. -/
  | invalidated (generation : String)
  /-- Its invalidation threw. Source: `ShopCacheInvalidationService.java` 82–86. -/
  | failing (generation errorClass : String)
  /-- A reader is before the lock. Source: `CacheClient.java` 49–51. -/
  | waiting
  /-- It took the lock. Source: `CacheClient.java` 53. -/
  | holding (token : String)
  /-- It missed again. Source: `CacheClient.java` 55–56. -/
  | loading (token epoch : String)
  /-- It has the row. Source: `CacheClient.java` 57–63. -/
  | loaded (token epoch : String) (value : Option ρ)
  /-- It is in its `finally`. Source: `CacheClient.java` 67–70. -/
  | unlocking (token : String) (verdict : Verdict ρ)
  /-- It sleeps before its next read. Source: `CacheClient.java` 72–73. -/
  | pausing
  | returned (value : Option ρ)
  | failed
  deriving DecidableEq

/-- A shop: the keys of its cache with the clock of their server, its row, its row in the outbox and
the tasks; the epochs of the invalidations that are still under way after their callers gave up, the
UUIDs drawn so far, and the rows committed so far. -/
structure Shop (ρ : Type) where
  redis : Keyspace CacheKey
  now : ℕ
  row : Option ρ
  outbox : Option Invalidation
  tasks : ℕ → Option (Task ρ)
  strays : Finset String
  drawn : Finset String
  history : List (Option ρ)

/-- What happens to a shop. -/
inductive ShopAct (ρ : Type) where
  /-- The clock moves on, and what has expired is gone. -/
  | tick (d : ℕ)
  /-- The server drops a key that is not the epoch. -/
  | evict (k : CacheKey)
  /-- `createShop` commits, with its row in the outbox. -/
  | create (k : ℕ) (row : ρ) (generation : String)
  /-- `updateShop` commits, with its row in the outbox. -/
  | update (k : ℕ) (change : ρ → ρ) (generation : String)
  | callback (k : ℕ) (epoch : String) (fate : Fate)
  /-- A worker reads `pending()`. -/
  | poll (k : ℕ)
  /-- The worker invalidates; `errorClass` is the exception if that throws. -/
  | recover (k : ℕ) (epoch : String) (fate : Fate) (errorClass : String)
  | complete (k : ℕ)
  | fail (k : ℕ)
  /-- An invalidation whose caller gave up arrives, and the server stops after `n` writes of it. -/
  | arrive (epoch : String) (n : ℕ)
  | query (k : ℕ) (inTransaction : Bool)
  | tryLock (k : ℕ) (token : String)
  | check (k : ℕ)
  | load (k : ℕ)
  | publish (k : ℕ) (random : ℕ) (fate : Fate)
  | unlock (k : ℕ) (reached : Bool)
  /-- The read after the pause; `again` says that the deadline has not passed. -/
  | refill (k : ℕ) (again : Bool)
  /-- A call of a reader throws. -/
  | abort (k : ℕ)
  /-- The task dies. -/
  | crash (k : ℕ)

namespace Shop

variable {ρ : Type}

/-- The shop with another task under `k`. -/
def setTask (s : Shop ρ) (k : ℕ) (t : Option (Task ρ)) : Shop ρ :=
  { s with tasks := Function.update s.tasks k t }

/-- `read`. Source: `CacheClient.java` 88–101. -/
def read (C : EnvelopeCodec ρ) (s : Shop ρ) : Option (Snapshot ρ) :=
  match (Plan.run s.now (shopCacheRead s.redis .data .epoch) s.redis).1 with
  | .answer (epoch, raw) => snapshot C epoch raw
  | .raised _ => none

/-- The row and its outbox entry are committed; an entry that is there gets the new generation.
Source: `ShopServiceImpl.java` 51–77, `ShopCacheInvalidationMapper.java` 8–10. -/
def commit (s : Shop ρ) (k : ℕ) (row : ρ) (generation : String) : Shop ρ :=
  { s with
    row := some row
    outbox := some ⟨generation, 0, none⟩
    tasks := Function.update s.tasks k (some .committed)
    drawn := insert generation s.drawn
    history := s.history ++ [some row] }

/-- An invalidation, and whether it returned. Source: `CacheClient.java` 81–86. -/
def invalidateShop (s : Shop ρ) (epoch : String) (fate : Fate) : Bool × Shop ρ :=
  let plan := shopCacheInvalidate s.redis .data .epoch .legacy epoch
  let s := { s with drawn := insert epoch s.drawn }
  match fate with
  | .answered =>
    let r := Plan.run s.now plan s.redis
    (decide (r.1 = .answer 1), { s with redis := r.2 })
  | .unheard => (false, { s with redis := (Plan.run s.now plan s.redis).2 })
  | .cut n => (false, { s with redis := Plan.cut n s.now plan s.redis })
  | .lost => (false, s)
  | .late => (false, { s with strays := insert epoch s.strays })

/-- The lifetime of an entry. Source: `CacheClient.java` 59 and 103–104. -/
def ttlMillis (loaded : Option ρ) (random : ℕ) : ℕ :=
  if loaded.isNone then 10000 + random % 5001 else 60000 + random % 15001

/-- The publication of what a reader loaded. Source: `CacheClient.java` 60–62. -/
def publishPlan (C : EnvelopeCodec ρ) (s : Shop ρ) (token epoch : String) (value : Option ρ)
    (random : ℕ) : Checked ℕ (List (Command CacheKey) × ℕ) :=
  shopCachePublish s.redis .data .epoch .lock token epoch (C.render (envelope epoch value))
    (decimal (ttlMillis value random))

/-- What the answer of a publication makes of the loaded value. Source: `CacheClient.java` 63–65. -/
def verdict (value : Option ρ) : Outcome ℕ → Verdict ρ
  | .answer 1 => .value value
  | .answer 0 => .rejected
  | _ => .thrown

/-- The task after its invalidation. Source: `ShopCacheInvalidationService.java` 80–88. -/
def afterInvalidation (generation errorClass : String) (returned : Bool) : Task ρ :=
  if returned then .invalidated generation else .failing generation errorClass

/-- The writers, their callbacks and the recovery workers. -/
def maintain (s : Shop ρ) : ShopAct ρ → Shop ρ
  | .create k row generation =>
    match s.row, s.tasks k with
    | none, none => s.commit k row generation
    | _, _ => s
  | .update k change generation =>
    match s.row, s.tasks k with
    | some row, none => s.commit k (change row) generation
    | _, _ => s
  | .callback k epoch fate =>
    match s.tasks k with
    | some .committed => (s.invalidateShop epoch fate).2.setTask k none
    | _ => s
  | .poll k =>
    match s.tasks k, s.outbox with
    | none, some entry => s.setTask k (some (.recovering entry.generation))
    | _, _ => s
  | .recover k epoch fate errorClass =>
    match s.tasks k with
    | some (.recovering generation) =>
      let r := s.invalidateShop epoch fate
      r.2.setTask k (some (afterInvalidation generation errorClass r.1))
    | _ => s
  | .complete k =>
    match s.tasks k with
    | some (.invalidated generation) =>
      -- `DELETE … WHERE shop_id=? AND generation=?`
      { s.setTask k none with outbox := s.outbox.filter fun e => e.generation ≠ generation }
    | _ => s
  | .fail k =>
    match s.tasks k with
    | some (.failing generation errorClass) =>
      { s.setTask k none with
        outbox := s.outbox.map fun e =>
          if e.generation = generation then
            { e with attempts := min (e.attempts + 1) 1000000, lastError := some errorClass }
          else e }
    | _ => s
  | .arrive epoch n =>
    if epoch ∈ s.strays then
      { s with
        redis := Plan.cut n s.now (shopCacheInvalidate s.redis .data .epoch .legacy epoch) s.redis
        strays := s.strays.erase epoch }
    else s
  | _ => s

/-- The readers. Source: `CacheClient.java` 37–78. -/
def query (C : EnvelopeCodec ρ) (s : Shop ρ) : ShopAct ρ → Shop ρ
  | .query k inTransaction =>
    match s.tasks k with
    | none =>
      s.setTask k <| some <|
        if inTransaction then .failed
        else
          match s.read C with
          | some sn => if sn.present then .returned sn.value else .waiting
          | none => .failed
    | _ => s
  | .tryLock k token =>
    match s.tasks k with
    | some .waiting =>
      let r := Plan.run s.now (setIfAbsent s.redis .lock token) s.redis
      { s with
        redis := r.2
        tasks := Function.update s.tasks k <| some <|
          match r.1 with
          | .answer true => .holding token
          | .answer false => .pausing
          | .raised _ => .failed }
    | _ => s
  | .check k =>
    match s.tasks k with
    | some (.holding token) =>
      s.setTask k <| some <|
        match s.read C with
        | some sn =>
          if sn.present then .unlocking token (.value sn.value) else .loading token sn.epoch
        | none => .unlocking token .thrown
    | _ => s
  | .load k =>
    match s.tasks k with
    | some (.loading token epoch) => s.setTask k (some (.loaded token epoch s.row))
    | _ => s
  | .publish k random fate =>
    match s.tasks k with
    | some (.loaded token epoch value) =>
      let r := Plan.run s.now (s.publishPlan C token epoch value random) s.redis
      match fate with
      | .answered => { s with redis := r.2 }.setTask k (some (.unlocking token (verdict value r.1)))
      | .unheard => { s with redis := r.2 }.setTask k (some (.unlocking token .thrown))
      | _ => s.setTask k (some (.unlocking token .thrown))
    | _ => s
  | .unlock k reached =>
    match s.tasks k with
    | some (.unlocking token verdict) =>
      { s with
        redis := if reached then (Plan.run s.now (shopCacheUnlock s.redis .lock token) s.redis).2
          else s.redis }.setTask k <| some <|
        match verdict with
        | .value v => .returned v
        | .rejected => .pausing
        | .thrown => .failed
    | _ => s
  | .refill k again =>
    match s.tasks k with
    | some .pausing =>
      s.setTask k <| some <|
        match s.read C with
        | some sn => if sn.present then .returned sn.value else if again then .waiting else .failed
        | none => .failed
    | _ => s
  | .abort k =>
    match s.tasks k with
    | some (.holding token) | some (.loading token _) | some (.loaded token _ _) =>
      s.setTask k (some (.unlocking token .thrown))
    | some .waiting | some .pausing => s.setTask k (some .failed)
    | _ => s
  | _ => s

/-- The next state; an act whose task is not where the act wants it changes nothing, as a transaction
that rolls back does. -/
def step (C : EnvelopeCodec ρ) (s : Shop ρ) (a : ShopAct ρ) : Shop ρ :=
  match a with
  | .tick d => { s with now := s.now + d, redis := s.redis.purge (s.now + d) }
  | .evict k => if k = .epoch then s else { s with redis := s.redis.remove k }
  | .crash k => s.setTask k none
  | .create .. | .update .. | .callback .. | .poll _ | .recover .. | .complete _ | .fail _
  | .arrive .. => s.maintain a
  | _ => s.query C a

/-- A shop before its first write through the program: no key of its cache is there. -/
def initial (row : Option ρ) (now : ℕ) : Shop ρ where
  redis := fun _ => none
  now := now
  row := row
  outbox := none
  tasks := fun _ => none
  strays := ∅
  drawn := {""}
  history := [row]

/-- The generation or the epoch of a call was not drawn before. -/
def Fresh (s : Shop ρ) : ShopAct ρ → Prop
  | .create _ _ uuid | .update _ _ uuid | .callback _ uuid _ | .recover _ uuid _ _ => uuid ∉ s.drawn
  | _ => True

end Shop

/-! ## All shops -/

/-- The shops by their ids. -/
def World (ρ : Type) : Type := LongId → Shop ρ

/-- An act on a shop. -/
structure Act (ρ : Type) where
  shop : LongId
  act : ShopAct ρ

variable {ρ : Type}

/-- The next state. -/
def step (C : EnvelopeCodec ρ) (w : World ρ) (a : Act ρ) : World ρ :=
  Function.update w a.shop ((w a.shop).step C a.act)

/-- Before the first call. -/
def initial (rows : LongId → Option ρ) (now : ℕ) : World ρ := fun s => Shop.initial (rows s) now

/-- A call draws a UUID that was not drawn before. -/
def FreshUuids (w : World ρ) (a : Act ρ) : Prop := (w a.shop).Fresh a.act

end CampusHub.ShopCache
