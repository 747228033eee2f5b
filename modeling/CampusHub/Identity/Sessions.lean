import CampusHub.Foundations.Runs
import CampusHub.Identity.SessionScripts

/-!
# Login sessions over whole runs

* `Server`, `SessionAct`, `step` — the calls of the scripts, deletions by a logout or by the filter, and
  the clock.
* `Session` — what the hash of a token may be: it names nobody, or it is one publication that expires.
* `Kept`, `Kept.step` — the invariant of one token.
* `sessions_safe` — what holds of a token in every state that a run reaches.

**Theorem** (`sessions_safe`). Start without the key of a token, and let publications, authentications,
deletions and time come in any order, with writes that fail anywhere. A hash with an id then has an expiry,
and its fields are those of one publication. A publication answers `1` only where there was no key, an
authentication only for the id that it observed; both leave a positive lifetime, and an authentication
creates no key.

**Theorem** (`pttl_not_positive`). The lifetime that Redis reports need not be positive: it is `0` in the
last millisecond, in which the key is still there.

**Proof route.** `Kept` says what the key may hold, and `publish_cases` and `authenticate_cases` say all
that a step can put there. A placeholder has no id, so a hash with an id is a publication that went through
(`Session.identified`).

**Left out.** Evictions of keys by Redis for want of memory.
-/

namespace CampusHub.Identity

open CampusHub.Redis CampusHub.Foundations CampusHub.Foundations.Maps

variable {κ : Type}

/-- The server: its keys and its clock. -/
structure Server (κ : Type) where
  redis : Keyspace κ
  now : ℕ

/-- What happens on the server. -/
inductive SessionAct (κ : Type) where
  /-- A call of `login-session-publish.lua`. Source: `RedisLoginSessionIssuer.java` 46–48. -/
  | publish (key : κ) (argv : List String) (faults : Faults)
  /-- A call of `session-authenticate.lua`. Source: `RedisTokenAuthenticationFilter.java` 93–95. -/
  | authenticate (key : κ) (argv : List String) (faults : Faults)
  /-- Source: `RedisSessionTerminator.java` 19, `RedisTokenAuthenticationFilter.java` 79 and 90. -/
  | delete (key : κ)
  /-- The clock moves on, and what has expired is gone. -/
  | tick (d : ℕ)

variable [DecidableEq κ]

/-- The next state. -/
def step (s : Server κ) : SessionAct κ → Server κ
  | .publish key argv faults =>
    { s with redis := (loginSessionPublish s.now s.redis key argv faults).2 }
  | .authenticate key argv faults =>
    { s with redis := (sessionAuthenticate s.now s.redis key argv faults).2 }
  | .delete key => { s with redis := s.redis.remove key }
  | .tick d => ⟨s.redis.purge (s.now + d), s.now + d⟩

/-! ## What the hash of a token may be -/

/-- The hash names nobody, or it is a publication that was made and that expires. -/
def Session (made : SessionUser → Prop) (now : ℕ) (e : Entry) : Prop :=
  e.value = .hash placeholder ∨
    ∃ p t, made p ∧ e = ⟨.hash p.hash, some t⟩ ∧ now ≤ t

/-- Whatever is under the key of a token is a session. -/
def Kept (made : SessionUser → Prop) (key : κ) (s : Server κ) : Prop :=
  ∀ e, s.redis key = some e → Session made s.now e

/-- A publication that `as` makes under the key. -/
def Made (as : List (SessionAct κ)) (key : κ) (p : SessionUser) : Prop :=
  ∃ ttl faults, .publish key [ttl, p.id, p.nickName, p.icon] faults ∈ as

section hashes

variable {made : SessionUser → Prop} {now : ℕ}

/-- The placeholder has no id. -/
theorem lookup_placeholder : placeholder.lookup "id" = none := by
  rw [placeholder, lookup_writeFields (by decide)]
  rfl

/-- A field of a session is that of its user, or one of the placeholder. -/
theorem lookup_hash (p : SessionUser) (f : String) :
    p.hash.lookup f = (p.fields.lookup f).or (placeholder.lookup f) := by
  refine lookup_writeFields ?_ placeholder f
  show ["id", "nickName", "icon"].Nodup
  decide

/-- A session with an id is a publication. -/
theorem Session.identified {e : Entry} (h : Session made now e) {h' : FiniteMap String String}
    (hvalue : e.value = .hash h') {id : String} (hid : h'.lookup "id" = some id) :
    ∃ p t, made p ∧ e = ⟨.hash p.hash, some t⟩ ∧ now ≤ t := by
  rcases h with hplaceholder | hpublished
  · obtain rfl := Value.hash.inj (hplaceholder.symm.trans hvalue)
    rw [lookup_placeholder] at hid
    cases hid
  · exact hpublished

end hashes

/-! ## Steps -/

section steps

variable {made : SessionUser → Prop} {key : κ} {s : Server κ}

/-- A session that is renewed is a session. -/
theorem Session.renew {e : Entry} {now t : ℕ} (h : Session made now e) (ht : now ≤ t) :
    Session made now ⟨e.value, some t⟩ := by
  rcases h with hplaceholder | ⟨p, t', hp, rfl, -⟩
  · exact .inl hplaceholder
  · exact .inr ⟨p, t, hp, rfl, ht⟩

/-- A step that writes one key keeps every token if what it writes is a session. -/
theorem Kept.replace (h : Kept made key s) {k : κ} {e : Option Entry}
    (he : k = key → ∀ e', e = some e' → Session made s.now e') :
    Kept made key { s with redis := s.redis.replace k e } := by
  intro e' he'
  have hreplace : s.redis.replace k e key = some e' := he'
  rw [Keyspace.replace_apply] at hreplace
  split at hreplace
  · rename_i hk
    exact he hk.symm e' hreplace
  · exact h e' hreplace

/-- **Every step keeps the key of a token.** -/
theorem Kept.step (h : Kept made key s) {a : SessionAct κ}
    (hmade : ∀ p, Made [a] key p → made p) : Kept made key (step s a) := by
  cases a with
  | publish k argv faults =>
    rcases publish_cases (rfl : loginSessionPublish s.now s.redis k argv faults = _) with
      ⟨-, hks⟩ | ⟨-, -, e, hks, hvalue⟩ | ⟨-, -, ttl, p, d, hd, rfl, hks⟩
    · rw [Identity.step, hks]
      exact h
    · rw [Identity.step, hks]
      exact h.replace fun _ e' he' => .inl (hvalue e' he')
    · rw [Identity.step, hks]
      refine h.replace ?_
      rintro rfl e' he'
      obtain rfl := Option.some.inj he'
      exact .inr ⟨p, s.now + d, hmade p ⟨ttl, faults, List.mem_singleton_self _⟩, rfl, by omega⟩
  | authenticate k argv faults =>
    rcases authenticate_cases (rfl : sessionAuthenticate s.now s.redis k argv faults = _) with
      ⟨-, hks | hks⟩ | ⟨-, observed, ttl, d, hd, -, -, -, -, hks⟩
    · rw [Identity.step, hks]
      exact h
    · rw [Identity.step, hks]
      exact h.replace nofun
    · rw [Identity.step, hks]
      refine h.replace ?_
      rintro rfl e' he'
      obtain ⟨e, he, rfl⟩ := Option.map_eq_some_iff.mp he'
      exact (h e he).renew (Nat.le_add_right _ _)
  | delete k => exact h.replace nofun
  | tick d =>
    intro e he
    obtain ⟨he, halive⟩ := Option.filter_eq_some_iff.mp he
    rcases h e he with hplaceholder | ⟨p, t, hp, rfl, -⟩
    · exact .inl hplaceholder
    · have ht : s.now + d ≤ t := by simpa [Entry.alive] using halive
      exact .inr ⟨p, t, hp, rfl, ht⟩

/-- **Only a publication brings a key back.** -/
theorem step_absent (h : s.redis key = none) {a : SessionAct κ}
    (ha : ∀ argv faults, a ≠ .publish key argv faults) : (step s a).redis key = none := by
  have hreplace : ∀ {k : κ} {e : Option Entry}, (k = key → e = none) →
      s.redis.replace k e key = none := by
    intro k e he
    rw [Keyspace.replace_apply]
    split
    · rename_i hk
      exact he hk.symm
    · exact h
  cases a with
  | publish k argv faults =>
    have hk : k ≠ key := fun hk => ha argv faults (by rw [hk])
    rcases publish_cases (rfl : loginSessionPublish s.now s.redis k argv faults = _) with
      ⟨-, hks⟩ | ⟨-, -, e, hks, -⟩ | ⟨-, -, ttl, p, d, -, -, hks⟩
    · rw [step, hks]
      exact h
    · rw [step, hks]
      exact hreplace fun heq => absurd heq hk
    · rw [step, hks]
      exact hreplace fun heq => absurd heq hk
  | authenticate k argv faults =>
    rcases authenticate_cases (rfl : sessionAuthenticate s.now s.redis k argv faults = _) with
      ⟨-, hks | hks⟩ | ⟨-, observed, ttl, d, -, -, -, -, -, hks⟩
    · rw [step, hks]
      exact h
    · rw [step, hks]
      exact hreplace fun _ => rfl
    · rw [step, hks]
      refine hreplace ?_
      rintro rfl
      rw [h]
      rfl
  | delete k => exact hreplace fun _ => rfl
  | tick d => exact Keyspace.purge_of_none h

end steps

/-! ## Runs -/

section runs

variable {key : κ}

/-- A token that had no key holds a session, or nothing, after every run. -/
theorem kept_run {s : Server κ} (habsent : s.redis key = none) (as : List (SessionAct κ)) :
    Kept (Made as key) key (Runs.run step s as) := by
  have hstep : ∀ s a, Kept (Made as key) key s → a ∈ as → Kept (Made as key) key (step s a) := by
    intro s a hs ha
    refine hs.step ?_
    rintro p ⟨ttl, faults, hp⟩
    exact ⟨ttl, faults, List.mem_singleton.mp hp ▸ ha⟩
  have hinitial : Kept (Made as key) key s := by
    intro e he
    rw [habsent] at he
    cases he
  exact Runs.run_invariant_of_along _ hstep as s hinitial
    (Runs.along_of_forall _ as s fun a ha => ha)

/-- Without a publication its key stays absent. -/
theorem absent_run {s : Server κ} (habsent : s.redis key = none) {as : List (SessionAct κ)}
    (has : ∀ argv faults, .publish key argv faults ∉ as) : (Runs.run step s as).redis key = none :=
  have hstep : ∀ (s : Server κ) a, s.redis key = none → a ∈ as → (step s a).redis key = none :=
    fun _ _ hs ha => step_absent hs fun argv faults hp => has argv faults (hp ▸ ha)
  Runs.run_invariant_of_along _ hstep as s habsent (Runs.along_of_forall _ as s fun _ ha => ha)

end runs

/-- **What holds of the key of a token** after the calls `as`. -/
structure SessionSafe (as : List (SessionAct κ)) (key : κ) (s : Server κ) : Prop where
  /-- A hash with an id expires, and its fields are those of one publication. -/
  identified : ∀ id, s.redis.hget key "id" = some id →
    (∃ t, s.redis.ttl key = some t ∧ s.now ≤ t) ∧
      ∃ p, Made as key p ∧ p.id = id ∧ s.redis.hget key "nickName" = some p.nickName ∧
        s.redis.hget key "icon" = some p.icon
  /-- A publication that answers `1` found no key, and its lifetime is positive. -/
  published : ∀ argv faults r, loginSessionPublish s.now s.redis key argv faults = r →
    r.1 = .answer 1 → s.redis key = none ∧ 0 < pttl s.now r.2 key ∧
      ∃ (ttl : String) (p : SessionUser), argv = [ttl, p.id, p.nickName, p.icon] ∧
        r.2.hget key "id" = some p.id ∧ r.2.hget key "nickName" = some p.nickName ∧
        r.2.hget key "icon" = some p.icon
  /-- A publication changes no key that is there. -/
  kept : ∀ argv faults k, s.redis k ≠ none →
    (loginSessionPublish s.now s.redis key argv faults).2 k = s.redis k
  /-- An authentication that answers `1` found the observed id and a positive lifetime, and leaves
  one. -/
  authenticated : ∀ argv faults r, sessionAuthenticate s.now s.redis key argv faults = r →
    r.1 = .answer 1 → ∃ observed ttl, argv = [observed, ttl] ∧ s.redis.typeOf key = .hash ∧
      s.redis.hget key "id" = some observed ∧ 0 < pttl s.now s.redis key ∧
      0 < pttl s.now r.2 key
  /-- An authentication creates no key. -/
  created : ∀ argv faults k, s.redis k = none →
    (sessionAuthenticate s.now s.redis key argv faults).2 k = none
  /-- After a deletion no authentication answers `1` before the next publication. -/
  deleted : ∀ later, (∀ argv faults, .publish key argv faults ∉ later) →
    ∀ argv faults, let s' := Runs.run step (step s (.delete key)) later
      (sessionAuthenticate s'.now s'.redis key argv faults).1 ≠ .answer 1

section safety

variable {made : SessionUser → Prop} {key : κ} {s : Server κ}

omit [DecidableEq κ] in
/-- A key that expires later has a positive lifetime. -/
theorem pttl_pos {now t : ℕ} {ks : Keyspace κ} {v : Value} (h : ks key = some ⟨v, some t⟩)
    (ht : now < t) : 0 < pttl now ks key := by
  simp only [pttl, h]
  omega

omit [DecidableEq κ] in
/-- The fields of a key that holds a publication. -/
theorem hget_hash {ks : Keyspace κ} {p : SessionUser} {t : Option ℕ}
    (h : ks key = some ⟨.hash p.hash, t⟩) : ks.hget key "id" = some p.id ∧
      ks.hget key "nickName" = some p.nickName ∧ ks.hget key "icon" = some p.icon := by
  have hfield : ∀ f, ks.hget key f = (p.fields.lookup f).or (placeholder.lookup f) := by
    intro f
    rw [Keyspace.hget, Keyspace.fields, h]
    exact lookup_hash p f
  exact ⟨hfield "id", hfield "nickName", hfield "icon"⟩

omit [DecidableEq κ] in
/-- A session with an id expires and has the fields of its publication. -/
theorem Kept.identified (h : Kept made key s) {id : String}
    (hid : s.redis.hget key "id" = some id) :
    (∃ t, s.redis.ttl key = some t ∧ s.now ≤ t) ∧ ∃ p, made p ∧ p.id = id ∧
      s.redis.hget key "nickName" = some p.nickName ∧ s.redis.hget key "icon" = some p.icon := by
  obtain ⟨t, hkey⟩ := Keyspace.exists_of_hget hid
  obtain ⟨p, t, hp, he, ht⟩ := (h _ hkey).identified rfl hid
  rw [he] at hkey
  obtain ⟨hid', hnick, hicon⟩ := hget_hash hkey
  exact ⟨⟨t, by rw [Keyspace.ttl, hkey]; rfl, ht⟩, p, hp, Option.some.inj (hid'.symm.trans hid), hnick,
    hicon⟩

/-- What a publication that answers `1` has found and left. -/
theorem publish_one {argv : List String} {faults : Faults} {r : Outcome ℤ × Keyspace κ}
    (hr : loginSessionPublish s.now s.redis key argv faults = r) (hone : r.1 = .answer 1) :
    s.redis key = none ∧ 0 < pttl s.now r.2 key ∧
      ∃ (ttl : String) (p : SessionUser), argv = [ttl, p.id, p.nickName, p.icon] ∧
        r.2.hget key "id" = some p.id ∧ r.2.hget key "nickName" = some p.nickName ∧
        r.2.hget key "icon" = some p.icon := by
  rcases publish_cases hr with ⟨hne, -⟩ | ⟨-, hfail, -⟩ | ⟨hnone, -, ttl, p, d, hd, hargv, hks⟩
  · exact absurd hone hne
  · rw [hfail] at hone
    cases hone
  · have hkey : r.2 key = some ⟨.hash p.hash, some (s.now + d)⟩ := by
      rw [hks, Keyspace.replace_self]
    exact ⟨hnone, pttl_pos hkey (by omega), ttl, p, hargv, hget_hash hkey⟩

/-- A publication leaves the keys alone that are there. -/
theorem publish_kept {argv : List String} {faults : Faults} {k : κ} (h : s.redis k ≠ none) :
    (loginSessionPublish s.now s.redis key argv faults).2 k = s.redis k := by
  have hother : ∀ {e : Option Entry}, s.redis key = none → s.redis.replace key e k = s.redis k := by
    intro e hnone
    exact s.redis.replace_of_ne e fun hk => h (hk ▸ hnone)
  rcases publish_cases (rfl : loginSessionPublish s.now s.redis key argv faults = _) with
    ⟨-, hks⟩ | ⟨hnone, -, e, hks, -⟩ | ⟨hnone, -, ttl, p, d, -, -, hks⟩
  · rw [hks]
  · rw [hks, hother hnone]
  · rw [hks, hother hnone]

/-- What an authentication that answers `1` has found and left. -/
theorem authenticate_one {argv : List String} {faults : Faults} {r : Outcome ℤ × Keyspace κ}
    (hr : sessionAuthenticate s.now s.redis key argv faults = r) (hone : r.1 = .answer 1) :
    ∃ observed ttl, argv = [observed, ttl] ∧ s.redis.typeOf key = .hash ∧
      s.redis.hget key "id" = some observed ∧ 0 < pttl s.now s.redis key ∧
      0 < pttl s.now r.2 key := by
  rcases authenticate_cases hr with ⟨hne, -⟩ |
    ⟨-, observed, ttl, d, hd, hargv, hhash, hid, hpttl, hks⟩
  · exact absurd hone hne
  · refine ⟨observed, ttl, hargv, hhash, hid, hpttl, ?_⟩
    obtain ⟨t, hkey⟩ := Keyspace.exists_of_hget hid
    have hrenewed : r.2 key = some ⟨.hash (s.redis.fields key), some (s.now + d)⟩ := by
      rw [hks, Keyspace.expire_self, hkey]
      rfl
    exact pttl_pos hrenewed (by omega)

/-- An authentication is a step of the server. -/
theorem authenticate_absent {argv : List String} {faults : Faults} {k : κ}
    (h : s.redis k = none) : (sessionAuthenticate s.now s.redis key argv faults).2 k = none :=
  step_absent (a := .authenticate key argv faults) h nofun

end safety

/-- **A session that identifies somebody expires, and authentication does not outlive it.** Whatever the
calls and the failures of their writes, a token whose key was absent is safe in every state reached. -/
theorem sessions_safe (s : Server κ) (key : κ) (habsent : s.redis key = none)
    (as : List (SessionAct κ)) : SessionSafe as key (Runs.run step s as) where
  identified _ hid := (kept_run habsent as).identified hid
  published _ _ _ hr hone := publish_one hr hone
  kept _ _ _ h := publish_kept h
  authenticated _ _ _ hr hone := authenticate_one hr hone
  created _ _ _ h := authenticate_absent h
  deleted later hlater argv faults := by
    intro s' hone
    have hdeleted : (step (Runs.run step s as) (.delete key)).redis key = none := by
      show (Runs.run step s as).redis.remove key key = none
      rw [Keyspace.remove_apply, if_pos rfl]
    have hnone : s'.redis key = none := absent_run hdeleted hlater
    obtain ⟨observed, ttl, -, hhash, -⟩ := authenticate_one rfl hone
    rw [Keyspace.typeOf, hnone] at hhash
    cases hhash

/-- No write fails. -/
def noFaults : Faults := ⟨false, false, false, false⟩

/-- A session is published, and its user authenticates. -/
def firstVisit : List (SessionAct String) :=
  [.publish "login:token:a" ["2160000000", "7", "Ann", ""] noFaults, .tick 1000,
    .authenticate "login:token:a" ["7", "2160000000"] noFaults]

/-- The first visit keeps the session safe. -/
theorem firstVisit_safe :
    SessionSafe firstVisit "login:token:a" (Runs.run step ⟨fun _ => none, 0⟩ firstVisit) :=
  sessions_safe ⟨fun _ => none, 0⟩ "login:token:a" rfl firstVisit

/-- A session in its last millisecond. -/
def lastMillisecond : List (SessionAct String) :=
  [.publish "login:token:a" ["1", "7", "Ann", ""] noFaults, .tick 1]

/-- **The lifetime of a session need not be positive**: in its last millisecond `PTTL` answers `0`. -/
theorem pttl_not_positive : ¬ ∀ (s : Server String) (key : String) (as : List (SessionAct String)),
    s.redis key = none → ∀ id, (Runs.run step s as).redis.hget key "id" = some id →
      0 < pttl (Runs.run step s as).now (Runs.run step s as).redis key := by
  intro hall
  have hpos := hall ⟨fun _ => none, 0⟩ "login:token:a" lastMillisecond rfl "7" (by decide +kernel)
  revert hpos
  decide +kernel

end CampusHub.Identity
