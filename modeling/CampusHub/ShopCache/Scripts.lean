import CampusHub.Domain
import CampusHub.Foundations.Json
import CampusHub.Foundations.Lua
import CampusHub.Redis.Keyspace

/-!
# The scripts of the shop cache

* `CacheKey` — the four keys of a shop.
* `shopCacheRead`, `shopCachePublish`, `shopCacheUnlock`, `shopCacheInvalidate` — the four scripts.
* `Envelope`, `EnvelopeCodec`, `snapshot` — what a data key holds, and how a reader takes it.

The scripts are translated as `Redis` has them: checks first, then writes, and a server that stops after any
of the writes. Each of them has one lemma that says all it can do, with the failures, and nothing later
unfolds a script.

The JSON library is `EnvelopeCodec`, about which nothing is known but that an envelope that was written is
read back and that the text is not empty. `codec` is one such library, for shops that are a name; it makes
sure that the assumption can be met.

**Left out.** How long a reader pauses before it looks again: that is a step of `ShopCache.World`, which may come at any
time.
-/

namespace CampusHub.ShopCache

open CampusHub.Redis CampusHub.Foundations.Guards CampusHub.Foundations.Lua
open CampusHub.Foundations.Decimal

/-- The keys of one shop. Source: `CacheClient.java` 23–25 and 82–83. -/
inductive CacheKey where
  /-- `cache:shop:v2:<shop>` -/
  | data
  /-- `cache:shop:epoch:<shop>` -/
  | epoch
  /-- `lock:shop:v2:<shop>` -/
  | lock
  /-- `cache:shop:<shop>`, of an earlier format. -/
  | legacy
  deriving DecidableEq

variable {κ : Type}

/-- `redis.error_reply('SHOP_CACHE_WRONGTYPE')` -/
def wrongType {ρ : Type} : Outcome ρ := .raised (.reply "SHOP_CACHE_WRONGTYPE")

/-- The epoch and the data; an absent key reads as the empty string. Source: `shop-cache-read.lua`. -/
def shopCacheRead (ks : Keyspace κ) (data epoch : κ) :
    Checked (String × String) (List (Command κ) × String × String) := do
  ensure (Typed ks data .string) wrongType
  ensure (Typed ks epoch .string) wrongType
  .ok ([], ((ks.get epoch).getD "", (ks.get data).getD ""))

/-- Source: `shop-cache-publish.lua`. -/
def shopCachePublish (ks : Keyspace κ) (data epoch lock : κ)
    (token observed envelope ttl : String) : Checked ℕ (List (Command κ) × ℕ) := do
  ensure (Typed ks data .string) wrongType
  ensure (Typed ks epoch .string) wrongType
  ensure (Typed ks lock .string) wrongType
  let n ← getOr (tonumber ttl) (.raised (.reply "SHOP_CACHE_INVALID_TTL"))
  ensure (n.lt (.ofNat 1) = false) (.raised (.reply "SHOP_CACHE_INVALID_TTL"))
  ensure ((Number.ofNat 75000).lt n = false) (.raised (.reply "SHOP_CACHE_INVALID_TTL"))
  ensure (n.eq n.floor = true) (.raised (.reply "SHOP_CACHE_INVALID_TTL"))
  ensure (ks.get lock = some token ∧ (ks.get epoch).getD "" = observed) (.answer 0)
  .ok ([.setPx data envelope ttl], 1)

/-- Source: `shop-cache-unlock.lua`. -/
def shopCacheUnlock (ks : Keyspace κ) (lock : κ) (token : String) :
    Checked ℕ (List (Command κ) × ℕ) := do
  ensure (Typed ks lock .string) (.raised .wrongType)
  ensure (ks.get lock = some token) (.answer 0)
  .ok ([.del lock], 1)

/-- The epoch comes first. Source: `shop-cache-invalidate.lua`. -/
def shopCacheInvalidate (ks : Keyspace κ) (data epoch legacy : κ) (new : String) :
    Checked ℕ (List (Command κ) × ℕ) := do
  ensure (Typed ks epoch .string) wrongType
  .ok ([.set epoch new, .del data, .del legacy], 1)

/-- `setIfAbsent(lock, token, 10 s)`. Source: `CacheClient.java` 51. -/
def setIfAbsent (ks : Keyspace κ) (lock : κ) (token : String) :
    Checked Bool (List (Command κ) × Bool) := do
  ensure ((ks lock).isNone = true) (.answer false)
  .ok ([.setPx lock token "10000"], true)

/-! ## Envelopes -/

/-- The value of a data key. `empty` is none when the field is no Boolean.
Source: `CacheClient.java` 57–58. -/
structure Envelope (ρ : Type) where
  epoch : String
  empty : Option Bool
  data : Option ρ

/-- Source: `CacheClient.java` 57–58. -/
def envelope {ρ : Type} (epoch : String) (loaded : Option ρ) : Envelope ρ :=
  ⟨epoch, some loaded.isNone, loaded⟩

/-- The JSON library: an envelope that was written is read back, and its text is not empty. -/
structure EnvelopeCodec (ρ : Type) where
  render : Envelope ρ → String
  parse : String → Option (Envelope ρ)
  parse_render : ∀ e, parse (render e) = some e
  render_ne : ∀ e, render e ≠ ""

namespace ShopName

open CampusHub.Foundations.Json

def epochField : List Char := ['\x7b', '\x22', 'e', 'p', 'o', 'c', 'h', '\x22', ':']

def emptyField : List Char := [',', '\x22', 'e', 'm', 'p', 't', 'y', '\x22', ':']

def dataField : List Char := [',', '\x22', 'd', 'a', 't', 'a', '\x22', ':']

def nameField : List Char := ['\x22', 'n', 'a', 'm', 'e', '\x22', ':']

def renderEmpty : Option Bool → List Char
  | some true => ['t', 'r', 'u', 'e']
  | some false => ['f', 'a', 'l', 's', 'e']
  | none => ['n', 'u', 'l', 'l']

def renderData : Option String → List Char
  | some name => '\x7b' :: (nameField ++ (encodeString name ++ ['\x7d']))
  | none => ['n', 'u', 'l', 'l']

/-- The characters of an envelope: an object with the fields `epoch`, `empty` and `data`. -/
def renderChars (e : Envelope String) : List Char :=
  epochField ++ (encodeString e.epoch ++
    (emptyField ++ (renderEmpty e.empty ++
      (dataField ++ (renderData e.data ++ ['\x7d'])))))

def render (e : Envelope String) : String := String.ofList (renderChars e)

def parseEmpty : List Char → Option (Option Bool × List Char)
  | 't' :: 'r' :: 'u' :: 'e' :: cs => some (some true, cs)
  | 'f' :: 'a' :: 'l' :: 's' :: 'e' :: cs => some (some false, cs)
  | 'n' :: 'u' :: 'l' :: 'l' :: cs => some (none, cs)
  | _ => none

def parseData : List Char → Option (Option String × List Char)
  | '\x7b' :: cs => do
    let cs ← expect nameField cs
    let (name, cs) ← readString cs
    let cs ← expect ['\x7d'] cs
    some (some name, cs)
  | 'n' :: 'u' :: 'l' :: 'l' :: cs => some (none, cs)
  | _ => none

def parse (t : String) : Option (Envelope String) := do
  let cs ← expect epochField t.toList
  let (epoch, cs) ← readString cs
  let cs ← expect emptyField cs
  let (empty, cs) ← parseEmpty cs
  let cs ← expect dataField cs
  let (data, cs) ← parseData cs
  if cs = ['\x7d'] then some ⟨epoch, empty, data⟩ else none

/-- The field `empty` is read back. -/
theorem parseEmpty_render (empty : Option Bool) (cs : List Char) :
    parseEmpty (renderEmpty empty ++ cs) = some (empty, cs) := by
  rcases empty with _ | _ | _ <;> rfl

/-- The field `data` is read back. -/
theorem parseData_render (data : Option String) (cs : List Char) :
    parseData (renderData data ++ cs) = some (data, cs) := by
  cases data with
  | none => rfl
  | some name =>
    simp only [renderData, parseData, List.cons_append, List.append_assoc, expect_append,
      readString_encode, Option.bind_eq_bind, Option.bind_some]
    rfl

/-- An envelope is read back. -/
theorem parse_render (e : Envelope String) : parse (render e) = some e := by
  have htext : (render e).toList = renderChars e := String.toList_ofList
  rw [parse, htext, renderChars]
  simp only [expect_append, readString_encode, parseEmpty_render, parseData_render,
    Option.bind_eq_bind, Option.bind_some, if_true]

/-- The codec of shops that are a name. -/
def codec : EnvelopeCodec String where
  render := render
  parse := parse
  parse_render := parse_render
  render_ne e h := by
    have := congrArg parse h
    rw [parse_render] at this
    cases this

end ShopName

/-- Source: `CacheClient.java` 124–129. -/
structure Snapshot (ρ : Type) where
  epoch : String
  present : Bool
  empty : Bool
  data : Option ρ

/-- What a reader makes of the epoch and the data; `none` is an exception.
Source: `CacheClient.java` 92–101. -/
def snapshot {ρ : Type} (C : EnvelopeCodec ρ) (epoch raw : String) : Option (Snapshot ρ) :=
  if raw = "" then some ⟨epoch, false, false, none⟩
  else do
    let entry ← C.parse raw
    if epoch ≠ entry.epoch then some ⟨epoch, false, false, none⟩
    else do
      let empty ← entry.empty
      if empty then some ⟨epoch, true, true, none⟩
      else do
        let data ← entry.data
        some ⟨epoch, true, false, some data⟩

/-- What a present snapshot answers. Source: `CacheClient.java` 45 and 55. -/
def Snapshot.value {ρ : Type} (s : Snapshot ρ) : Option ρ := if s.empty then none else s.data

/-! ## What the scripts do -/

section reads

variable {ρ : Type} {C : EnvelopeCodec ρ}

/-- Envelopes are equal when epoch and value are. -/
theorem envelope_injective {e e' : String} {v v' : Option ρ}
    (h : C.render (envelope e v) = C.render (envelope e' v')) : e = e' ∧ v = v' := by
  have hsame := congrArg C.parse h
  rw [C.parse_render, C.parse_render, Option.some.injEq] at hsame
  exact ⟨congrArg Envelope.epoch hsame, congrArg Envelope.data hsame⟩

/-- **A reader takes an envelope of the current epoch, and no other.** -/
theorem snapshot_render (epoch e : String) (v : Option ρ) :
    ∃ s, snapshot C epoch (C.render (envelope e v)) = some s ∧ s.epoch = epoch ∧
      (s.present = true ↔ epoch = e) ∧ (s.present = true → s.value = v) := by
  simp only [snapshot, C.render_ne, if_false, C.parse_render, Option.bind_eq_bind,
    Option.bind_some, envelope]
  by_cases he : epoch = e
  · rw [if_neg (not_not.mpr he)]
    cases v with
    | none => exact ⟨_, rfl, rfl, by simp [he], fun _ => rfl⟩
    | some r => exact ⟨_, rfl, rfl, by simp [he], fun _ => rfl⟩
  · rw [if_pos he]
    exact ⟨_, rfl, rfl, by simp [he], nofun⟩

end reads

section writes

variable {ks : Keyspace κ} [DecidableEq κ] {now : ℕ}

/-- **A publication** writes the envelope while the lock and the epoch are what its maker saw, or it
writes nothing and does not answer `1`. -/
theorem publish_cases (now : ℕ) (ks : Keyspace κ) (data epoch lock : κ)
    (token observed envelope ttl : String) :
    let r := Plan.run now (shopCachePublish ks data epoch lock token observed envelope ttl) ks
    (r.2 = ks ∧ r.1 ≠ .answer 1) ∨
    (r.1 = .answer 1 ∧ (ks.get epoch).getD "" = observed ∧
      r.2.get data = some envelope ∧ ∀ k, k ≠ data → r.2 k = ks k) := by
  intro r
  cases hplan : shopCachePublish ks data epoch lock token observed envelope ttl with
  | error o =>
    left
    have hr : r = (o, ks) := Plan.run_error now hplan ks
    rw [hr]
    refine ⟨rfl, ?_⟩
    rintro rfl
    simp [shopCachePublish, wrongType] at hplan
  | ok p =>
    have hok := hplan
    unfold shopCachePublish at hok
    simp only [ensure_bind_eq_ok, getOr_bind_eq_ok] at hok
    obtain ⟨-, -, -, -, -, -, -, -, ⟨-, hepoch⟩, hp⟩ := hok
    obtain rfl := Except.ok.inj hp
    have hr : r = _ := Plan.run_single now hplan ks
    cases happly : apply now ks (.setPx data envelope ttl) with
    | error e =>
      rw [happly] at hr
      left
      rw [hr]
      exact ⟨rfl, fun hone => by cases hone⟩
    | ok ks' =>
      rw [happly] at hr
      right
      rw [hr]
      obtain ⟨t, rfl⟩ := apply_setPx happly
      exact ⟨rfl, hepoch, ks.get_replace data envelope _, fun k hk => ks.replace_of_ne _ hk⟩

/-- Taking the lock changes no other key. -/
theorem setIfAbsent_frame (now : ℕ) (ks : Keyspace κ) {lock k : κ} (token : String) (h : k ≠ lock) :
    (Plan.run now (setIfAbsent ks lock token) ks).2 k = ks k := by
  cases hplan : setIfAbsent ks lock token with
  | error o => rw [Plan.run_error now rfl]
  | ok p =>
    simp only [setIfAbsent, ensure_bind_eq_ok] at hplan
    obtain ⟨-, hp⟩ := hplan
    obtain rfl := Except.ok.inj hp
    rw [Plan.run_single now rfl]
    cases happly : apply now ks (.setPx lock token "10000") with
    | error e => rfl
    | ok ks' =>
      obtain ⟨t, rfl⟩ := apply_setPx happly
      exact ks.replace_of_ne _ h

/-- Giving it back changes no other key. -/
theorem unlock_frame (now : ℕ) (ks : Keyspace κ) {lock k : κ} (token : String) (h : k ≠ lock) :
    (Plan.run now (shopCacheUnlock ks lock token) ks).2 k = ks k := by
  cases hplan : shopCacheUnlock ks lock token with
  | error o => rw [Plan.run_error now rfl]
  | ok p =>
    simp only [shopCacheUnlock, ensure_bind_eq_ok] at hplan
    obtain ⟨-, -, hp⟩ := hplan
    obtain rfl := Except.ok.inj hp
    rw [Plan.run_single now rfl]
    show ks.remove lock k = ks k
    rw [Keyspace.remove_apply, if_neg h]

end writes

section invalidation

variable (now : ℕ) (ks : Keyspace CacheKey) (new : String)

/-- The epoch is the new one and does not expire, and the data key is as before or gone. -/
def Turned (ks' : Keyspace CacheKey) : Prop :=
  ks' .epoch = some ⟨.str new, none⟩ ∧ (ks'.get .data = ks.get .data ∨ ks'.get .data = none)

/-- **An invalidation**, wherever the server stops, turns the epoch or does nothing. -/
theorem invalidate_cut (n : ℕ) :
    Plan.cut n now (shopCacheInvalidate ks .data .epoch .legacy new) ks = ks ∨
      Turned ks new (Plan.cut n now (shopCacheInvalidate ks .data .epoch .legacy new) ks) := by
  cases hplan : shopCacheInvalidate ks CacheKey.data .epoch .legacy new with
  | error o => exact .inl rfl
  | ok p =>
    simp only [shopCacheInvalidate, ensure_bind_eq_ok] at hplan
    obtain ⟨-, hp⟩ := hplan
    obtain rfl := Except.ok.inj hp
    rcases n with _ | _ | _ | n
    · exact .inl rfl
    · exact .inr ⟨rfl, .inl rfl⟩
    · exact .inr ⟨rfl, .inr rfl⟩
    · right
      show Turned ks new (exec now (_ :: _ :: _ :: List.take n []) ks).1
      rw [List.take_nil]
      exact ⟨rfl, .inr rfl⟩

/-- An invalidation that answers has turned the epoch, and one that raises has done nothing. -/
theorem invalidate_run :
    let r := Plan.run now (shopCacheInvalidate ks .data .epoch .legacy new) ks
    (r.1 = .answer 1 ∧ Turned ks new r.2) ∨ (r.1 ≠ .answer 1 ∧ r.2 = ks) := by
  intro r
  cases hplan : shopCacheInvalidate ks CacheKey.data .epoch .legacy new with
  | error o =>
    have hr : r = (o, ks) := Plan.run_error now hplan ks
    right
    rw [hr]
    refine ⟨?_, rfl⟩
    rintro rfl
    simp [shopCacheInvalidate, wrongType] at hplan
  | ok p =>
    have hok := hplan
    simp only [shopCacheInvalidate, ensure_bind_eq_ok] at hok
    obtain ⟨-, hp⟩ := hok
    obtain rfl := Except.ok.inj hp
    left
    have hr : r = (.answer 1, ((ks.store .epoch (.str new)).remove .data).remove .legacy) := by
      show Plan.run now _ ks = _
      rw [hplan]
      rfl
    rw [hr]
    exact ⟨rfl, rfl, .inr rfl⟩

end invalidation

end CampusHub.ShopCache
