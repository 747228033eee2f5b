import Mathlib.Logic.Function.Basic
import CampusHub.Foundations.Guards
import CampusHub.Redis.Stream

/-!
# A Redis keyspace and scripts over it

* `Keyspace κ` — what each key holds, and when it expires; `purge` takes out what has expired.
* `Command`, `apply` — the write commands, each with the checks the server makes; `exec` runs a list
  of them and stops at the first that fails. What was written before stays written: there is no
  rollback.
* `Plan` — a script that reads and checks first and writes last: an early answer, or the write
  commands with the answer after them. `Plan.run` runs it in one piece, `Plan.cut` stops after the
  first `n` writes.

The server runs a script in one piece but does not undo it: when a write command is refused, the writes
before it stay. This is why a script is modelled by its list of writes, and why `Plan.cut` is a step of its
own: the server may die, or run out of memory, after any of them. What is claimed of a script is claimed of
all of its cuts where the source promises nothing better.

**How it is used.** A script is translated as a `Plan`; one lemma says what its checks found and which
writes it makes, and the `apply_…` lemmas here say of each write when it succeeds and what it leaves. Frame
facts are `…_of_ne`, and `…_congr` carries a fact about a key over to another keyspace with the same entry.

**Not modelled.** Memory limits as such, replication, `EVALSHA` and its cache of scripts, and keys of a
cluster in different slots.
-/

namespace CampusHub.Redis

open CampusHub.Foundations.Decimal CampusHub.Foundations.Guards CampusHub.Foundations.Maps

/-- What a key holds. -/
inductive Value where
  | str (s : String)
  | list (xs : List String)
  | set (members : Finset String)
  | zset (members : List (String × String))
  | hash (fields : FiniteMap String String)
  | stream (s : EventStream)

/-- The answer of `TYPE`. -/
inductive Kind where
  | none | string | list | set | zset | hash | stream
  deriving DecidableEq

/-- A value with the time in milliseconds from which it is gone. -/
structure Entry where
  value : Value
  expireAt : Option ℕ

/-- The entry has not expired at clock time `now`. -/
def Entry.alive (now : ℕ) (e : Entry) : Bool :=
  match e.expireAt with
  | none => true
  | some t => now ≤ t

/-- The type of a value. -/
def Value.kind : Value → Kind
  | .str _ => .string
  | .list _ => .list
  | .set _ => .set
  | .zset _ => .zset
  | .hash _ => .hash
  | .stream _ => .stream

/-- The errors a command answers with. -/
inductive Failure where
  | wrongType | notInteger | overflow | exhausted | invalidId | noGroup
  | reply (message : String)
  deriving DecidableEq

/-- What each key holds. -/
def Keyspace (κ : Type) : Type := κ → Option Entry

variable {κ : Type}

namespace Keyspace

/-! ## Reading -/

/-- `TYPE key`. -/
def typeOf (ks : Keyspace κ) (k : κ) : Kind :=
  match ks k with
  | none => .none
  | some e => e.value.kind

end Keyspace

/-- A key is absent or of the expected type. -/
def Typed (ks : Keyspace κ) (k : κ) (kind : Kind) : Prop :=
  ks.typeOf k = .none ∨ ks.typeOf k = kind

instance (ks : Keyspace κ) (k : κ) (kind : Kind) : Decidable (Typed ks k kind) :=
  inferInstanceAs (Decidable (_ ∨ _))

namespace Keyspace

/-- The expiry of a key, if it has one. -/
def ttl (ks : Keyspace κ) (k : κ) : Option ℕ := (ks k).bind Entry.expireAt

/-- `GET key`, of a string key. -/
def get (ks : Keyspace κ) (k : κ) : Option String :=
  match ks k with
  | some ⟨.str s, _⟩ => some s
  | _ => none

/-- The fields of a hash key. -/
def fields (ks : Keyspace κ) (k : κ) : FiniteMap String String :=
  match ks k with
  | some ⟨.hash h, _⟩ => h
  | _ => ∅

/-- `HGET key field`, of a hash key. -/
def hget (ks : Keyspace κ) (k : κ) (field : String) : Option String := (ks.fields k).lookup field

/-- The members of a set key. -/
def members (ks : Keyspace κ) (k : κ) : Finset String :=
  match ks k with
  | some ⟨.set xs, _⟩ => xs
  | _ => ∅

/-- The stream of a stream key; an absent key reads as the empty stream. -/
def stream (ks : Keyspace κ) (k : κ) : EventStream :=
  match ks k with
  | some ⟨.stream s, _⟩ => s
  | _ => .empty

section congr

variable {ks ks' : Keyspace κ} {k : κ}

/-- The type of a key is read off its entry. -/
theorem typeOf_congr (h : ks k = ks' k) : ks.typeOf k = ks'.typeOf k := by simp [typeOf, h]

/-- The expiry of a key is read off its entry. -/
theorem ttl_congr (h : ks k = ks' k) : ks.ttl k = ks'.ttl k := by simp [ttl, h]

/-- The string of a key is read off its entry. -/
theorem get_congr (h : ks k = ks' k) : ks.get k = ks'.get k := by simp [get, h]

/-- The fields of a key are read off its entry. -/
theorem fields_congr (h : ks k = ks' k) : ks.fields k = ks'.fields k := by simp [fields, h]

/-- The members of a key are read off its entry. -/
theorem members_congr (h : ks k = ks' k) : ks.members k = ks'.members k := by simp [members, h]

/-- The stream of a key is read off its entry. -/
theorem stream_congr (h : ks k = ks' k) : ks.stream k = ks'.stream k := by simp [stream, h]

/-- A field is read off the entry of its key. -/
theorem hget_congr (h : ks k = ks' k) (f : String) : ks.hget k f = ks'.hget k f := by
  simp [hget, fields_congr h]

end congr

section slot

variable {ks : Keyspace κ} {k : κ}

/-- The type of a key that holds a value. -/
theorem typeOf_of_slot {v : Value} {t : Option ℕ} (h : ks k = some ⟨v, t⟩) :
    ks.typeOf k = v.kind := by
  rw [typeOf, h]

/-- A string that is read is what the key holds. -/
theorem exists_of_get {s : String} (h : ks.get k = some s) : ∃ t, ks k = some ⟨.str s, t⟩ := by
  unfold get at h
  split at h
  · rename_i s' t heq; exact ⟨t, by rw [heq, ← Option.some.inj h]⟩
  · cases h

/-- A key with a field is a hash. -/
theorem exists_of_hget {f v : String} (h : ks.hget k f = some v) :
    ∃ t, ks k = some ⟨.hash (ks.fields k), t⟩ := by
  unfold hget fields at *
  split at h
  · rename_i fs t heq; exact ⟨t, by simp [heq]⟩
  · simp at h

end slot

/-! ## Expiry -/

/-- The keyspace without what has expired at clock time `now`. -/
def purge (now : ℕ) (ks : Keyspace κ) : Keyspace κ := fun k => (ks k).filter (Entry.alive now)

section purge

variable {now t : ℕ} {ks : Keyspace κ} {k : κ} {v : Value}

/-- What expires later, or now, stays. -/
theorem purge_of_le (h : ks k = some ⟨v, some t⟩) (ht : now ≤ t) :
    ks.purge now k = some ⟨v, some t⟩ := by
  simp [purge, h, Option.filter, Entry.alive, ht]

/-- What has expired is gone. -/
theorem purge_of_lt (h : ks k = some ⟨v, some t⟩) (ht : t < now) : ks.purge now k = none := by
  simp [purge, h, Option.filter, Entry.alive, ht]

/-- Time brings no key back. -/
theorem purge_of_none (h : ks k = none) : ks.purge now k = none := by
  simp [purge, h, Option.filter]

/-- A key without an expiry stays. -/
theorem purge_of_persistent (h : ks.ttl k = none) : ks.purge now k = ks k := by
  unfold purge ttl at *
  cases hk : ks k with
  | none => rfl
  | some e =>
    rw [hk] at h
    simp [Option.filter, Entry.alive, show e.expireAt = none from h]

/-- Expiry takes a key away or leaves it. -/
theorem purge_eq_or_none (ks : Keyspace κ) (now : ℕ) (k : κ) :
    ks.purge now k = ks k ∨ ks.purge now k = none := by
  unfold purge
  cases ks k with
  | none => exact .inl rfl
  | some e =>
    rw [Option.filter_some]
    split
    · exact .inl rfl
    · exact .inr rfl

/-- Time gives no expiry. -/
theorem ttl_of_purge (h : (ks.purge now).ttl k = some t) : ks.ttl k = some t := by
  simp only [ttl, purge, Option.bind_eq_some_iff, Option.filter_eq_some_iff] at *
  obtain ⟨e, ⟨he, -⟩, hte⟩ := h
  exact ⟨e, he, hte⟩

end purge

variable [DecidableEq κ]

/-- The keyspace with a value under `k` and no expiry on it. -/
def store (ks : Keyspace κ) (k : κ) (v : Value) : Keyspace κ :=
  Function.update ks k (some ⟨v, none⟩)

/-- The keyspace with another value under `k`; an expiry stays. -/
def put (ks : Keyspace κ) (k : κ) (v : Value) : Keyspace κ :=
  Function.update ks k (some ⟨v, ks.ttl k⟩)

/-- The keyspace with an expiry on `k`, when `k` is there. -/
def expire (ks : Keyspace κ) (k : κ) (t : ℕ) : Keyspace κ :=
  Function.update ks k ((ks k).map fun e => ⟨e.value, some t⟩)

/-- The keyspace with any other content under `k`. -/
def replace (ks : Keyspace κ) (k : κ) (e : Option Entry) : Keyspace κ := Function.update ks k e

/-- A replacement changes its key only. -/
theorem replace_apply (ks : Keyspace κ) (k k' : κ) (e : Option Entry) :
    ks.replace k e k' = if k' = k then e else ks k' :=
  Function.update_apply ..

/-- The key holds what replaced it. -/
@[simp] theorem replace_self (ks : Keyspace κ) (k : κ) (e : Option Entry) : ks.replace k e k = e :=
  Function.update_self ..

/-- The second replacement of a key counts. -/
@[simp] theorem replace_replace (ks : Keyspace κ) (k : κ) (e e' : Option Entry) :
    (ks.replace k e).replace k e' = ks.replace k e' :=
  Function.update_idem ..

/-- The other keys are as before. -/
theorem replace_of_ne (ks : Keyspace κ) {k k' : κ} (e : Option Entry) (h : k' ≠ k) :
    ks.replace k e k' = ks k' :=
  Function.update_of_ne h ..

/-- A string that replaced something is read. -/
theorem get_replace (ks : Keyspace κ) (k : κ) (s : String) (t : Option ℕ) :
    (ks.replace k (some ⟨.str s, t⟩)).get k = some s := by
  simp [get]

/-- The keyspace without `k`. -/
def remove (ks : Keyspace κ) (k : κ) : Keyspace κ := Function.update ks k none

/-- A value that is stored has no expiry; the other keys are as before. -/
theorem store_apply (ks : Keyspace κ) (k k' : κ) (v : Value) :
    ks.store k v k' = if k' = k then some ⟨v, none⟩ else ks k' :=
  Function.update_apply ..

/-- A value that is put keeps the expiry of its key; the other keys are as before. -/
theorem put_apply (ks : Keyspace κ) (k k' : κ) (v : Value) :
    ks.put k v k' = if k' = k then some ⟨v, ks.ttl k⟩ else ks k' :=
  Function.update_apply ..

/-- The key holds the value. -/
@[simp] theorem put_self (ks : Keyspace κ) (k : κ) (v : Value) :
    ks.put k v k = some ⟨v, ks.ttl k⟩ := Function.update_self ..

/-- The other keys are as before. -/
theorem put_of_ne (ks : Keyspace κ) {k k' : κ} (v : Value) (h : k' ≠ k) : ks.put k v k' = ks k' :=
  Function.update_of_ne h ..

/-- An expiry changes the entry of its key, if there is one. -/
theorem expire_apply (ks : Keyspace κ) (k k' : κ) (t : ℕ) :
    ks.expire k t k' = if k' = k then (ks k).map fun e => ⟨e.value, some t⟩ else ks k' :=
  Function.update_apply ..

/-- The key has the expiry. -/
@[simp] theorem expire_self (ks : Keyspace κ) (k : κ) (t : ℕ) :
    ks.expire k t k = (ks k).map fun e => ⟨e.value, some t⟩ := Function.update_self ..

/-- The other keys are as before. -/
theorem expire_of_ne (ks : Keyspace κ) {k k' : κ} (t : ℕ) (h : k' ≠ k) :
    ks.expire k t k' = ks k' :=
  Function.update_of_ne h ..

/-- An expiry changes no value. -/
theorem fields_expire (ks : Keyspace κ) (k k' : κ) (t : ℕ) :
    (ks.expire k t).fields k' = ks.fields k' := by
  by_cases h : k' = k
  · subst h
    unfold fields
    rw [expire_self]
    rcases ks k' with _ | ⟨v, t'⟩
    · rfl
    · cases v <;> rfl
  · exact fields_congr (expire_of_ne ks t h)

/-- An expiry changes no field. -/
theorem hget_expire (ks : Keyspace κ) (k k' : κ) (t : ℕ) (f : String) :
    (ks.expire k t).hget k' f = ks.hget k' f := by
  rw [hget, fields_expire, hget]

/-- A key that is removed is gone; the other keys are as before. -/
theorem remove_apply (ks : Keyspace κ) (k k' : κ) :
    ks.remove k k' = if k' = k then none else ks k' :=
  Function.update_apply ..

end Keyspace

/-! ## Write commands -/

/-- The write commands. `xadd` is `XADD key *`. -/
inductive Command (κ : Type) where
  | set (k : κ) (v : String)
  /-- `SET k v PX ttl` -/
  | setPx (k : κ) (v ttl : String)
  | del (k : κ)
  | incrby (k : κ) (d : ℤ)
  | sadd (k : κ) (member : String)
  | hset (k : κ) (fields : List (String × String))
  | hincrby (k : κ) (field : String) (d : ℤ)
  | hdel (k : κ) (field : String)
  | pexpireat (k : κ) (t : String)
  /-- `EXPIRE k ttl` and `PEXPIRE k ttl`, in units of so many milliseconds. -/
  | expireIn (k : κ) (ttl : String) (unit : ℕ)
  | xadd (k : κ) (fields : Fields)
  | xack (k : κ) (group id : String)
  deriving DecidableEq

/-- The text of a signed counter. -/
def counterText (z : ℤ) : String := if z < 0 then "-" ++ decimal z.natAbs else decimal z.natAbs

/-- The text of a counter that is not negative. -/
@[simp] theorem counterText_natCast (n : ℕ) : counterText (n : ℤ) = decimal n := by
  simp [counterText]

/-- A counter read from its text. -/
def readCounter (s : String) : Except Failure ℤ := getOr (string2ll s) .notInteger

/-- A sum of two 64-bit integers, inside their range. -/
def addCounter (n d : ℤ) : Except Failure ℤ :=
  if -llongMax - 1 ≤ n + d ∧ n + d ≤ llongMax then .ok (n + d) else .error .overflow

/-- All the pairs written into a hash, the last one for a field winning. -/
def writeFields (h : FiniteMap String String) (fs : List (String × String)) :
    FiniteMap String String :=
  fs.foldl (fun h f => h.insert f.1 f.2) h

/-- The fields that are there after a write. -/
theorem keys_writeFields (fs : List (String × String)) (h : FiniteMap String String) :
    (writeFields h fs).keys = h.keys ∪ (fs.map Prod.fst).toFinset := by
  induction fs generalizing h with
  | nil => simp [writeFields]
  | cons f fs ih =>
    show (writeFields (h.insert f.1 f.2) fs).keys = _
    rw [ih, keys_insert, List.map_cons, List.toFinset_cons, Finset.insert_union,
      Finset.union_insert]

/-- Fields with different names are read back. -/
theorem lookup_writeFields {fs : List (String × String)} (hnames : (fs.map Prod.fst).Nodup)
    (h : FiniteMap String String) (f : String) :
    (writeFields h fs).lookup f = (fs.lookup f).or (h.lookup f) := by
  induction fs generalizing h with
  | nil => rfl
  | cons p fs ih =>
    rw [List.map_cons, List.nodup_cons] at hnames
    show (writeFields (h.insert p.1 p.2) fs).lookup f = _
    rw [ih hnames.2, lookup_insert_eq, List.lookup_cons]
    by_cases hf : f = p.1
    · have hnone : fs.lookup f = none := by
        rw [List.lookup_eq_none_iff]
        intro q hq
        rw [bne_iff_ne]
        rintro rfl
        exact hnames.1 (hf ▸ List.mem_map_of_mem hq)
      rw [hnone, if_pos hf, hf, beq_self_eq_true]
      rfl
    · rw [if_neg hf, beq_false_of_ne hf]

/-- The key may be used as `kind`: it is absent or holds that kind. -/
def expectKind (ks : Keyspace κ) (k : κ) (kind : Kind) : Except Failure Unit :=
  ensure (ks.typeOf k = .none ∨ ks.typeOf k = kind) .wrongType

/-- A key that is absent or of the kind passes the check. -/
theorem expectKind_ok {ks : Keyspace κ} {k : κ} {kind : Kind}
    (h : ks.typeOf k = .none ∨ ks.typeOf k = kind) : expectKind ks k kind = .ok () :=
  ensure_eq_ok.mpr h

variable [DecidableEq κ]

/-- One write command at clock time `now`. -/
def apply (now : ℕ) (ks : Keyspace κ) : Command κ → Except Failure (Keyspace κ)
  | .set k v => .ok (ks.store k (.str v))
  | .setPx k v ttl => do
    let d ← readCounter ttl
    ensure (0 < d) (.reply "ERR invalid expire time in 'set' command")
    .ok ((ks.store k (.str v)).expire k (now + d.toNat))
  | .del k => .ok (ks.remove k)
  | .incrby k d => do
    expectKind ks k .string
    let n ← readCounter ((ks.get k).getD "0")
    let m ← addCounter n d
    .ok (ks.put k (.str (counterText m)))
  | .sadd k member => do
    expectKind ks k .set
    .ok (ks.put k (.set (insert member (ks.members k))))
  | .hset k fs => do
    expectKind ks k .hash
    .ok (ks.put k (.hash (writeFields (ks.fields k) fs)))
  | .hincrby k field d => do
    expectKind ks k .hash
    let n ← readCounter ((ks.hget k field).getD "0")
    let m ← addCounter n d
    .ok (ks.put k (.hash ((ks.fields k).insert field (counterText m))))
  | .hdel k field => do
    expectKind ks k .hash
    let rest := (ks.fields k).erase field
    -- A hash goes away with its last field.
    .ok (if rest.keys = ∅ then ks.remove k else ks.put k (.hash rest))
  | .pexpireat k t => do
    let deadline ← readCounter t
    .ok (if deadline ≤ now then ks.remove k else ks.expire k deadline.toNat)
  | .expireIn k ttl unit => do
    let d ← readCounter ttl
    ensure (-llongMax ≤ d * unit ∧ d * unit + now ≤ llongMax)
      (.reply "ERR invalid expire time in 'expire' command")
    .ok (if d ≤ 0 then ks.remove k else ks.expire k (now + d.toNat * unit))
  | .xadd k fs => do
    expectKind ks k .stream
    let (_, s) ← getOr ((ks.stream k).append now fs) .exhausted
    .ok (ks.put k (.stream s))
  | .xack k group id => do
    expectKind ks k .stream
    match (ks.stream k).groups.lookup group with
    | none => .ok ks
    | some _ =>
      let i ← getOr (StreamId.parseStrict 0 id) .invalidId
      .ok (ks.put k (.stream ((ks.stream k).ack group i)))

section apply

variable {now : ℕ} {ks : Keyspace κ} {k : κ}

/-- `INCRBY` adds to a counter that is read, when the sum is one. -/
theorem apply_incrby {s : String} {n d : ℤ} (h : ks.typeOf k = .none ∨ ks.typeOf k = .string)
    (hs : (ks.get k).getD "0" = s) (hn : string2ll s = some n) (hlo : -llongMax - 1 ≤ n + d)
    (hhi : n + d ≤ llongMax) :
    apply now ks (.incrby k d) = .ok (ks.put k (.str (counterText (n + d)))) := by
  simp [apply, expectKind_ok h, hs, readCounter, hn, getOr, addCounter, hlo, hhi, bind,
    Except.bind]

/-- `SET PX` leaves its string, which expires. -/
theorem apply_setPx {v ttl : String} {ks' : Keyspace κ} (h : apply now ks (.setPx k v ttl) = .ok ks') :
    ∃ t, ks' = ks.replace k (some ⟨.str v, some t⟩) := by
  simp only [apply] at h
  obtain ⟨d, -, h⟩ := exists_of_bind_eq_ok h
  rw [ensure_bind_eq_ok, Except.ok.injEq] at h
  obtain ⟨-, rfl⟩ := h
  refine ⟨now + d.toNat, ?_⟩
  funext k'
  rw [Keyspace.expire_apply, Keyspace.store_apply, Keyspace.store_apply, if_pos rfl,
    Keyspace.replace_apply]
  split
  · rfl
  · rfl

/-- `SADD` puts a member in. -/
theorem apply_sadd {m : String} (h : ks.typeOf k = .none ∨ ks.typeOf k = .set) :
    apply now ks (.sadd k m) = .ok (ks.put k (.set (insert m (ks.members k)))) := by
  simp [apply, expectKind_ok h, bind, Except.bind]

/-- `HSET` writes its fields. -/
theorem apply_hset {fs : List (String × String)}
    (h : ks.typeOf k = .none ∨ ks.typeOf k = .hash) :
    apply now ks (.hset k fs) = .ok (ks.put k (.hash (writeFields (ks.fields k) fs))) := by
  simp [apply, expectKind_ok h, bind, Except.bind]

/-- `HDEL` takes a field out, and the key with the last one. -/
theorem apply_hdel {f : String} (h : ks.typeOf k = .none ∨ ks.typeOf k = .hash) :
    apply now ks (.hdel k f) = .ok (if ((ks.fields k).erase f).keys = ∅ then ks.remove k
      else ks.put k (.hash ((ks.fields k).erase f))) := by
  simp [apply, expectKind_ok h, bind, Except.bind]

/-- `PEXPIREAT` with a time ahead sets it. -/
theorem apply_pexpireat {t : String} {d : ℕ} (ht : string2ll t = some (d : ℤ)) (hd : now < d) :
    apply now ks (.pexpireat k t) = .ok (ks.expire k d) := by
  simp [apply, readCounter, ht, getOr, hd, bind, Except.bind]

/-- `EXPIRE` with a positive duration counts from now. -/
theorem apply_expireIn {d unit : ℕ} (hd : 0 < d) {ks' : Keyspace κ}
    (h : apply now ks (.expireIn k (decimal d) unit) = .ok ks') :
    ks' = ks.expire k (now + d * unit) := by
  simp only [apply] at h
  obtain ⟨z, hz, h⟩ := exists_of_bind_eq_ok h
  rw [ensure_bind_eq_ok, Except.ok.injEq] at h
  obtain ⟨-, rfl⟩ := h
  have hz : z = d := by
    simp only [readCounter, getOr] at hz
    split at hz
    · rename_i hread
      obtain rfl := Except.ok.inj hz
      rw [string2ll_decimal_pos hd] at hread
      split at hread <;> simp_all
    · cases hz
  rw [hz, if_neg (by omega), Int.toNat_natCast]

/-- `XADD` appends its entry. -/
theorem apply_xadd {fs : Fields} {id : StreamId} {s : EventStream}
    (h : ks.typeOf k = .none ∨ ks.typeOf k = .stream)
    (hs : (ks.stream k).append now fs = some (id, s)) :
    apply now ks (.xadd k fs) = .ok (ks.put k (.stream s)) := by
  simp [apply, expectKind_ok h, hs, getOr, bind, Except.bind]

/-- `XACK` acknowledges an entry of a group that is there. -/
theorem apply_xack {group : String} {g : Group} {id : StreamId}
    (h : ks.typeOf k = .none ∨ ks.typeOf k = .stream)
    (hg : (ks.stream k).groups.lookup group = some g) :
    apply now ks (.xack k group id.render) =
      .ok (ks.put k (.stream ((ks.stream k).ack group id))) := by
  simp [apply, expectKind_ok h, hg, getOr, bind, Except.bind]

/-- `HINCRBY` adds to a counter that is read, when the sum is one. -/
theorem apply_hincrby {f s : String} {n d : ℤ} (h : ks.typeOf k = .none ∨ ks.typeOf k = .hash)
    (hs : (ks.hget k f).getD "0" = s) (hn : string2ll s = some n) (hlo : -llongMax - 1 ≤ n + d)
    (hhi : n + d ≤ llongMax) :
    apply now ks (.hincrby k f d) =
      .ok (ks.put k (.hash ((ks.fields k).insert f (counterText (n + d))))) := by
  simp [apply, expectKind_ok h, hs, readCounter, hn, getOr, addCounter, hlo, hhi, bind,
    Except.bind]

end apply

section values

variable {ks : Keyspace κ} {k k' : κ} {v : Value} {kind : Kind}

omit [DecidableEq κ] in
/-- Whether a key is of a type is read off its entry. -/
theorem typed_congr {ks' : Keyspace κ} (h : ks k = ks' k) : Typed ks k kind ↔ Typed ks' k kind := by
  rw [Typed, Typed, Keyspace.typeOf_congr h]

/-- A key that holds a value is of its type. -/
theorem typed_put (h : v.kind = kind) : Typed (ks.put k v) k kind :=
  .inr (by rw [Keyspace.typeOf, Keyspace.put_self]; exact h)

/-- The fields of a hash that was put. -/
@[simp] theorem fields_put (h : FiniteMap String String) : (ks.put k (.hash h)).fields k = h := by
  simp [Keyspace.fields]

/-- A field of a hash that was put. -/
theorem hget_put (h : FiniteMap String String) (f : String) :
    (ks.put k (.hash h)).hget k f = h.lookup f := by
  rw [Keyspace.hget, fields_put]

/-- A stream that was put is read. -/
@[simp] theorem stream_put (s : EventStream) : (ks.put k (.stream s)).stream k = s := by
  simp [Keyspace.stream]

/-- Removing a field leaves a hash, or no key at all. -/
theorem exists_hdel (now : ℕ) (h : Typed ks k .hash) (f : String) :
    ∃ ks', apply now ks (.hdel k f) = .ok ks' ∧ Typed ks' k .hash ∧
      (∀ f', ks'.hget k f' = if f' = f then none else ks.hget k f') ∧
      ∀ k' ≠ k, ks' k' = ks k' := by
  refine ⟨_, apply_hdel h, ?_⟩
  split
  · rename_i hempty
    have hself : ks.remove k k = none := by rw [Keyspace.remove_apply, if_pos rfl]
    refine ⟨.inl (by rw [Keyspace.typeOf, hself]), fun f' => ?_, fun k' hk' => ?_⟩
    · have hfields : (ks.remove k).hget k f' = none := by
        rw [Keyspace.hget, Keyspace.fields, hself]
        rfl
      have herase : ((ks.fields k).erase f).lookup f' = none := by
        rw [Finmap.lookup_eq_none, ← Finmap.mem_keys, hempty]
        exact Finset.notMem_empty f'
      rw [hfields, Keyspace.hget, ← lookup_erase_eq, herase]
    · rw [Keyspace.remove_apply, if_neg hk']
  · refine ⟨typed_put rfl, fun f' => ?_, fun k' hk' => Keyspace.put_of_ne _ _ hk'⟩
    rw [hget_put, lookup_erase_eq, Keyspace.hget]

end values

/-- The commands in order, up to the first that fails. -/
def exec (now : ℕ) : List (Command κ) → Keyspace κ → Keyspace κ × Option Failure
  | [], ks => (ks, none)
  | c :: cs, ks =>
    match apply now ks c with
    | .ok ks' => exec now cs ks'
    | .error e => (ks, some e)

/-- No command, no change. -/
@[simp] theorem exec_nil (now : ℕ) (ks : Keyspace κ) : exec now [] ks = (ks, none) := rfl

/-- A command that succeeds is followed by the others. -/
theorem exec_cons {now : ℕ} {ks ks' : Keyspace κ} {c : Command κ} (h : apply now ks c = .ok ks')
    (cs : List (Command κ)) : exec now (c :: cs) ks = exec now cs ks' := by
  simp [exec, h]

/-- A command that fails stops the list. -/
theorem exec_cons_error {now : ℕ} {ks : Keyspace κ} {c : Command κ} {e : Failure}
    (h : apply now ks c = .error e) (cs : List (Command κ)) : exec now (c :: cs) ks = (ks, some e) := by
  simp [exec, h]

/-- Two lists in a row: the second runs if the first came to its end. -/
theorem exec_append (now : ℕ) (cs ds : List (Command κ)) (ks : Keyspace κ) :
    exec now (cs ++ ds) ks =
      match exec now cs ks with
      | (ks', none) => exec now ds ks'
      | (ks', some e) => (ks', some e) := by
  induction cs generalizing ks with
  | nil => rfl
  | cons c cs ih =>
    cases h : apply now ks c with
    | ok ks' => rw [List.cons_append, exec_cons h, exec_cons h, ih]
    | error e => rw [List.cons_append, exec_cons_error h, exec_cons_error h]

/-- The command puts no expiry on a key. -/
def Command.Plain : Command κ → Prop
  | .pexpireat _ _ | .expireIn _ _ _ | .setPx _ _ _ => False
  | _ => True

namespace Keyspace

variable (ks : Keyspace κ) (k k' : κ)

/-- A value that is put gives no expiry to any key. -/
theorem ttl_put (v : Value) : (ks.put k v).ttl k' = ks.ttl k' := by
  by_cases h : k' = k
  · subst h
    rw [ttl, put_self]
    rfl
  · exact ttl_congr (put_of_ne _ _ h)

/-- A removal gives none either. -/
theorem ttl_of_remove {t : ℕ} (h : (ks.remove k).ttl k' = some t) : ks.ttl k' = some t := by
  rw [ttl, remove_apply] at h
  split at h
  · cases h
  · exact h

end Keyspace

/-- A command without an expiry gives none. -/
theorem ttl_apply {now t : ℕ} {ks ks' : Keyspace κ} {c : Command κ} (hc : c.Plain)
    (h : apply now ks c = .ok ks') {k : κ} (ht : ks'.ttl k = some t) : ks.ttl k = some t := by
  cases c with
  | set k₁ v =>
    obtain rfl := Except.ok.inj h
    rw [Keyspace.ttl, Keyspace.store_apply] at ht
    split at ht
    · cases ht
    · exact ht
  | del k₁ =>
    obtain rfl := Except.ok.inj h
    exact ks.ttl_of_remove k₁ k ht
  | incrby k₁ d =>
    simp only [apply, bind, Except.bind] at h
    split at h <;> try cases h
    split at h <;> try cases h
    split at h <;> cases h
    rwa [Keyspace.ttl_put] at ht
  | sadd k₁ m =>
    simp only [apply, bind, Except.bind] at h
    split at h <;> cases h
    rwa [Keyspace.ttl_put] at ht
  | hset k₁ fs =>
    simp only [apply, bind, Except.bind] at h
    split at h <;> cases h
    rwa [Keyspace.ttl_put] at ht
  | hincrby k₁ f d =>
    simp only [apply, bind, Except.bind] at h
    split at h <;> try cases h
    split at h <;> try cases h
    split at h <;> cases h
    rwa [Keyspace.ttl_put] at ht
  | hdel k₁ f =>
    simp only [apply, bind, Except.bind] at h
    split at h <;> cases h
    split at ht
    · exact ks.ttl_of_remove k₁ k ht
    · rwa [Keyspace.ttl_put] at ht
  | pexpireat k₁ t₁ => exact hc.elim
  | expireIn k₁ t₁ u => exact hc.elim
  | setPx k₁ v t₁ => exact hc.elim
  | xadd k₁ fs =>
    simp only [apply, bind, Except.bind] at h
    split at h <;> try cases h
    split at h <;> cases h
    rwa [Keyspace.ttl_put] at ht
  | xack k₁ g i =>
    simp only [apply, bind, Except.bind] at h
    split at h <;> try cases h
    split at h
    · cases h
      exact ht
    · split at h <;> cases h
      rwa [Keyspace.ttl_put] at ht

/-- **Commands without an expiry give none.** -/
theorem ttl_exec {now t : ℕ} {cs : List (Command κ)} (hcs : ∀ c ∈ cs, c.Plain)
    {ks ks' : Keyspace κ} {e : Option Failure} (h : exec now cs ks = (ks', e)) {k : κ}
    (ht : ks'.ttl k = some t) : ks.ttl k = some t := by
  induction cs generalizing ks with
  | nil =>
    obtain ⟨rfl, -⟩ := Prod.mk.inj h
    exact ht
  | cons c cs ih =>
    rw [List.forall_mem_cons] at hcs
    cases hc : apply now ks c with
    | ok ks₁ =>
      rw [exec_cons hc] at h
      exact ttl_apply hcs.1 hc (ih hcs.2 h)
    | error e =>
      rw [exec_cons_error hc] at h
      obtain ⟨rfl, -⟩ := Prod.mk.inj h
      exact ht

/-! ## Scripts -/

/-- What a call of a script comes to: its answer, or an error. -/
inductive Outcome (ρ : Type) where
  | answer (r : ρ)
  | raised (e : Failure)
  deriving DecidableEq

/-- Reads and checks that may end a script early. -/
abbrev Checked (ρ : Type) := Except (Outcome ρ)

/-- A script after its checks: an early outcome, or its writes and the answer after them. -/
abbrev Plan (κ ρ : Type) := Checked ρ (List (Command κ) × ρ)

namespace Plan

variable {ρ : Type}

/-- The script in one piece. -/
def run (now : ℕ) (p : Plan κ ρ) (ks : Keyspace κ) : Outcome ρ × Keyspace κ :=
  match p with
  | .error o => (o, ks)
  | .ok (cs, r) =>
    match exec now cs ks with
    | (ks', none) => (.answer r, ks')
    | (ks', some e) => (.raised e, ks')

/-- A script that ends early has written nothing. -/
theorem run_error (now : ℕ) {p : Plan κ ρ} {o : Outcome ρ} (h : p = .error o) (ks : Keyspace κ) :
    run now p ks = (o, ks) := by
  rw [h, run]

/-- A script with one write. -/
theorem run_single (now : ℕ) {p : Plan κ ρ} {c : Command κ} {r : ρ} (h : p = .ok ([c], r))
    (ks : Keyspace κ) : run now p ks =
      match apply now ks c with
      | .ok ks' => (.answer r, ks')
      | .error e => (.raised e, ks) := by
  rw [h, run]
  cases hc : apply now ks c with
  | ok ks' => rw [exec_cons hc, exec_nil]
  | error e => rw [exec_cons_error hc]

/-- The script cut off after its first `n` writes: it gives no answer. -/
def cut (n now : ℕ) (p : Plan κ ρ) (ks : Keyspace κ) : Keyspace κ :=
  match p with
  | .error _ => ks
  | .ok (cs, _) => (exec now (cs.take n) ks).1

end Plan

end CampusHub.Redis
