import CampusHub.Foundations.Lua
import CampusHub.Redis.Keyspace

/-!
# The scripts of a login session

* `Faults` — which writes of a call fail. What was written before stays.
* `loginSessionPublish`, `sessionAuthenticate` — the two scripts on the hash of a token.
* `publish_cases`, `authenticate_cases` — everything that a call can do.
* `placeholder`, `SessionUser.hash` — what the first write of a publication leaves, and the second one.

The two scripts write several times, and their writes can fail one by one: a script that raises leaves what
it has written, and the scripts clean up with `DEL` under `pcall`, which may fail as well. `Faults` says
which writes fail, so that the two case lemmas are about all failures at once.

**Proof route.** Both scripts write one key. A hash that was written and then expires, or is deleted, is a
replacement of that key (`hset_absent`, `expire_replace`, `cleanup_replace`), so that every outcome is the
old keyspace with one key replaced.

**Left out.** What the application makes of an outcome, which is in `Access.Authentication` and
`Identity.Accounts`.
-/

namespace CampusHub.Identity

open CampusHub.Redis CampusHub.Foundations.Lua CampusHub.Foundations.Decimal CampusHub.Foundations.Maps

variable {κ : Type}

/-- The user of a session. Source: `RedisLoginSessionIssuer.java` 38–43. -/
structure SessionUser where
  id : String
  nickName : String
  icon : String
  deriving DecidableEq

/-- The fields of a user. Source: `login-session-publish.lua` 23. -/
def SessionUser.fields (p : SessionUser) : List (String × String) :=
  [("id", p.id), ("nickName", p.nickName), ("icon", p.icon)]

/-- The writes of a call that fail: the first `HSET`, `PEXPIRE`, the second `HSET` and `DEL`. -/
structure Faults where
  placeholder : Bool
  expiry : Bool
  identity : Bool
  cleanup : Bool

/-- A lifetime in milliseconds as the scripts take it, and as they give it to `PEXPIRE`.
Source: `login-session-publish.lua` 7–10, `session-authenticate.lua` 5–8. -/
def readTtl (text : String) : Option String := do
  let ttl ← tonumber text
  if ttl.le (.ofNat 0) ∨ ttl.eq ttl.floor = false ∨ (Number.ofNat 9007199254740991).lt ttl then none
  else some ttl.format0

/-- `PTTL key`. -/
def pttl (now : ℕ) (ks : Keyspace κ) (key : κ) : ℤ :=
  match ks key with
  | none => -2
  | some e =>
    match e.expireAt with
    | none => -1
    | some t => max 0 (t - now)

variable [DecidableEq κ]

/-- A write that the server refuses if `fails`. -/
def attempt (fails : Bool) (now : ℕ) (ks : Keyspace κ) (c : Command κ) : Except Failure (Keyspace κ) :=
  if fails then .error (.reply "NOPERM") else apply now ks c

/-- `redis.pcall('DEL', key)` -/
def cleanup (faults : Faults) (now : ℕ) (ks : Keyspace κ) (key : κ) : Keyspace κ :=
  match attempt faults.cleanup now ks (.del key) with
  | .ok ks' => ks'
  | .error _ => ks

/-- Source: `login-session-publish.lua`. -/
def loginSessionPublish (now : ℕ) (ks : Keyspace κ) (key : κ) (argv : List String) (faults : Faults) :
    Outcome ℤ × Keyspace κ :=
  match argv with
  | [ttl, id, nickName, icon] =>
    match readTtl ttl with
    | none => (.answer (-2), ks)
    | some ttl =>
      if (ks key).isSome then (.answer 0, ks)
      else
        match attempt faults.placeholder now ks (.hset key [("nickName", "")]) with
        | .error e => (.raised e, ks)
        | .ok held =>
          match attempt faults.expiry now held (.expireIn key ttl 1), (held key).isSome with
          | .ok timed, true =>
            match attempt faults.identity now timed
              (.hset key (SessionUser.fields ⟨id, nickName, icon⟩)) with
            | .error _ => (.answer (-1), cleanup faults now timed key)
            | .ok published => (.answer 1, published)
          | .ok timed, false => (.answer (-1), cleanup faults now timed key)
          | .error _, _ => (.answer (-1), cleanup faults now held key)
  | _ => (.answer (-2), ks)

/-- Source: `session-authenticate.lua`. -/
def sessionAuthenticate (now : ℕ) (ks : Keyspace κ) (key : κ) (argv : List String) (faults : Faults) :
    Outcome ℤ × Keyspace κ :=
  match argv with
  | [observed, ttl] =>
    match readTtl ttl with
    | none => (.answer 0, ks)
    | some ttl =>
      if ks.typeOf key ≠ .hash ∨ ks.hget key "id" ≠ some observed then (.answer 0, ks)
      else if pttl now ks key ≤ 0 then (.answer 0, cleanup faults now ks key)
      else
        match attempt faults.expiry now ks (.expireIn key ttl 1) with
        | .error e => (.raised e, ks)
        | .ok renewed => (.answer (if (ks key).isSome then 1 else 0), renewed)
  | _ => (.answer 0, ks)

/-! ## What a call does -/

section calls

variable {now : ℕ} {ks : Keyspace κ} {key : κ}

omit [DecidableEq κ] in
/-- A lifetime that is taken is a positive number of milliseconds. -/
theorem readTtl_eq_some {text ms : String} (h : readTtl text = some ms) :
    ∃ d : ℕ, 0 < d ∧ ms = decimal d := by
  simp only [readTtl, Option.bind_eq_bind, Option.bind_eq_some_iff] at h
  obtain ⟨n, -, h⟩ := h
  split at h
  · cases h
  · rename_i hn
    obtain rfl := Option.some.inj h
    rw [not_or, not_or] at hn
    obtain ⟨hpos, hint, hle⟩ := hn
    cases n with
    | nan => exact absurd rfl hint
    | inf s =>
      cases s with
      | true => exact absurd rfl hpos
      | false => exact absurd rfl hle
    | fin q =>
      have hq : q = (⌊q⌋ : ℚ) := by simpa [Number.floor] using hint
      have hq0 : 0 < q := by simpa [Number.ofNat] using hpos
      have hd : 0 < ⌊q⌋ := by
        rw [hq] at hq0
        exact_mod_cast hq0
      obtain ⟨d, hd'⟩ := Int.eq_ofNat_of_zero_le hd.le
      have hfin : Number.fin q = .ofNat d := by
        rw [Number.ofNat, hq, hd']
        simp
      exact ⟨d, by omega, by rw [hfin, format0_ofNat]⟩

/-- The hash that names nobody. -/
def placeholder : FiniteMap String String := writeFields ∅ [("nickName", "")]

/-- The hash of a session. -/
def SessionUser.hash (p : SessionUser) : FiniteMap String String := writeFields placeholder p.fields

/-- `DEL` succeeds or does nothing. -/
theorem cleanup_cases (faults : Faults) (now : ℕ) (ks : Keyspace κ) (key : κ) :
    cleanup faults now ks key = ks ∨ cleanup faults now ks key = ks.remove key := by
  unfold cleanup attempt
  split
  · rename_i ks' h
    split at h
    · cases h
    · obtain rfl := Except.ok.inj h
      exact .inr rfl
  · exact .inl rfl

/-- A write that succeeded was carried out. -/
theorem attempt_eq_ok {fails : Bool} {c : Command κ} {ks' : Keyspace κ}
    (h : attempt fails now ks c = .ok ks') : apply now ks c = .ok ks' := by
  unfold attempt at h
  split at h
  · cases h
  · exact h

/-- A cleanup after writes to one key. -/
theorem cleanup_replace (faults : Faults) (now : ℕ) (ks : Keyspace κ) (key : κ) (e : Entry) :
    ∃ e', cleanup faults now (ks.replace key (some e)) key = ks.replace key e' ∧
      ∀ e'', e' = some e'' → e'' = e := by
  rcases cleanup_cases faults now (ks.replace key (some e)) key with h | h
  · exact ⟨some e, h, fun e'' he => (Option.some.inj he).symm⟩
  · exact ⟨none, by rw [h]; exact ks.replace_replace .., nofun⟩

/-- `HSET` on a hash. -/
theorem hset_replace {h : FiniteMap String String} {t : Option ℕ} {fs : List (String × String)}
    {fails : Bool} {ks' : Keyspace κ}
    (hset : attempt fails now (ks.replace key (some ⟨.hash h, t⟩)) (.hset key fs) = .ok ks') :
    ks' = ks.replace key (some ⟨.hash (writeFields h fs), t⟩) := by
  have hself : ks.replace key (some ⟨.hash h, t⟩) key = some ⟨.hash h, t⟩ := ks.replace_self ..
  have happly := attempt_eq_ok hset
  rw [apply_hset (.inr (by rw [Keyspace.typeOf, hself]; rfl)), Except.ok.injEq] at happly
  rw [← happly, Keyspace.fields, hself]
  show Keyspace.replace _ key (some ⟨_, Keyspace.ttl _ key⟩) = _
  rw [ks.replace_replace, Keyspace.ttl, hself]
  rfl

/-- `HSET` on an absent key. -/
theorem hset_absent {fs : List (String × String)} {fails : Bool} {ks' : Keyspace κ}
    (hnone : ks key = none) (hset : attempt fails now ks (.hset key fs) = .ok ks') :
    ks' = ks.replace key (some ⟨.hash (writeFields ∅ fs), none⟩) := by
  have happly := attempt_eq_ok hset
  rw [apply_hset (.inl (by rw [Keyspace.typeOf, hnone])), Except.ok.injEq] at happly
  rw [← happly, Keyspace.fields, hnone]
  show ks.replace key (some ⟨_, ks.ttl key⟩) = _
  rw [Keyspace.ttl, hnone]
  rfl

/-- `PEXPIRE` on a key that is there. -/
theorem expire_replace {d : ℕ} (hd : 0 < d) {e : Entry} {fails : Bool} {ks' : Keyspace κ}
    (hexpire : attempt fails now (ks.replace key (some e)) (.expireIn key (decimal d) 1) = .ok ks') :
    ks' = ks.replace key (some ⟨e.value, some (now + d)⟩) := by
  rw [apply_expireIn hd (attempt_eq_ok hexpire), Nat.mul_one]
  show Keyspace.replace _ key ((ks.replace key (some e) key).map _) = _
  rw [ks.replace_replace, ks.replace_self]
  rfl

/-- **A publication** writes nothing, or it leaves a placeholder or no key, or it succeeds: only on a
key that was absent. -/
theorem publish_cases {argv : List String} {faults : Faults} {r : Outcome ℤ × Keyspace κ}
    (h : loginSessionPublish now ks key argv faults = r) :
    (r.1 ≠ .answer 1 ∧ r.2 = ks) ∨
    (ks key = none ∧ r.1 = .answer (-1) ∧
      ∃ e, r.2 = ks.replace key e ∧ ∀ e', e = some e' → e'.value = .hash placeholder) ∨
    (ks key = none ∧ r.1 = .answer 1 ∧ ∃ (ttl : String) (p : SessionUser) (d : ℕ), 0 < d ∧
      argv = [ttl, p.id, p.nickName, p.icon] ∧
      r.2 = ks.replace key (some ⟨.hash p.hash, some (now + d)⟩)) := by
  have hquiet : ∀ z : ℤ, z ≠ 1 → (.answer z, ks) = r → r.1 ≠ .answer 1 ∧ r.2 = ks := by
    rintro z hz rfl
    exact ⟨fun hone => hz (Outcome.answer.inj hone), rfl⟩
  unfold loginSessionPublish at h
  split at h
  · rename_i ttl id nickName icon
    split at h
    · exact .inl (hquiet (-2) (by decide) h)
    · rename_i ms hms
      obtain ⟨d, hd, rfl⟩ := readTtl_eq_some hms
      split at h
      · exact .inl (hquiet 0 (by decide) h)
      · rename_i habsent
        have hnone : ks key = none := by simpa using habsent
        -- a cleanup after the placeholder was written
        have hfailed : ∀ (ks' : Keyspace κ) (t : Option ℕ),
            ks' = ks.replace key (some ⟨.hash placeholder, t⟩) →
            (.answer (-1), cleanup faults now ks' key) = r →
            ks key = none ∧ r.1 = .answer (-1) ∧
              ∃ e, r.2 = ks.replace key e ∧ ∀ e', e = some e' → e'.value = .hash placeholder := by
          rintro ks' t rfl rfl
          obtain ⟨e, he, hvalue⟩ := cleanup_replace faults now ks key ⟨.hash placeholder, t⟩
          exact ⟨hnone, rfl, e, he, fun e' he' => by rw [hvalue e' he']⟩
        split at h
        · subst h
          exact .inl ⟨fun hone => (by cases hone), rfl⟩
        · rename_i held hheld
          obtain rfl := hset_absent hnone hheld
          split at h
          · rename_i timed htimed _
            have ht := expire_replace hd htimed
            split at h
            · exact .inr (.inl (hfailed timed _ ht h))
            · rename_i published hpublished
              subst h
              rw [ht] at hpublished
              exact .inr (.inr ⟨hnone, rfl, ttl, ⟨id, nickName, icon⟩, d, hd, rfl,
                hset_replace hpublished⟩)
          · rename_i timed htimed _
            exact .inr (.inl (hfailed timed _ (expire_replace hd htimed) h))
          · exact .inr (.inl (hfailed _ none rfl h))
  · exact .inl (hquiet (-2) (by decide) h)

/-- **An authentication** writes nothing, or it takes the key away, or it succeeds: only on a hash with
the observed id whose lifetime is positive, which it renews. -/
theorem authenticate_cases {argv : List String} {faults : Faults} {r : Outcome ℤ × Keyspace κ}
    (h : sessionAuthenticate now ks key argv faults = r) :
    (r.1 ≠ .answer 1 ∧ (r.2 = ks ∨ r.2 = ks.remove key)) ∨
    (r.1 = .answer 1 ∧ ∃ (observed ttl : String) (d : ℕ), 0 < d ∧ argv = [observed, ttl] ∧
      ks.typeOf key = .hash ∧ ks.hget key "id" = some observed ∧ 0 < pttl now ks key ∧
      r.2 = ks.expire key (now + d)) := by
  have hzero : ∀ {ks' : Keyspace κ}, ks' = ks ∨ ks' = ks.remove key → (.answer 0, ks') = r →
      r.1 ≠ .answer 1 ∧ (r.2 = ks ∨ r.2 = ks.remove key) := by
    rintro ks' hks rfl
    exact ⟨by simp, hks⟩
  unfold sessionAuthenticate at h
  split at h
  · rename_i observed ttl
    split at h
    · exact .inl (hzero (.inl rfl) h)
    · rename_i ms hms
      obtain ⟨d, hd, rfl⟩ := readTtl_eq_some hms
      split at h
      · exact .inl (hzero (.inl rfl) h)
      · rename_i hobserved
        rw [not_or, not_not, not_not] at hobserved
        split at h
        · exact .inl (hzero (cleanup_cases faults now ks key) h)
        · rename_i hpttl
          split at h
          · subst h
            exact .inl ⟨fun hone => (by cases hone), .inl rfl⟩
          · rename_i renewed hrenewed
            have hsome : (ks key).isSome := by
              cases hkey : ks key with
              | none =>
                rw [Keyspace.typeOf, hkey] at hobserved
                cases hobserved.1
              | some e => rfl
            rw [if_pos hsome] at h
            subst h
            refine .inr ⟨rfl, observed, ttl, d, hd, rfl, hobserved.1, hobserved.2, not_le.mp hpttl, ?_⟩
            rw [apply_expireIn hd (attempt_eq_ok hrenewed), Nat.mul_one]
  · exact .inl (hzero (.inl rfl) h)

end calls

end CampusHub.Identity
