import CampusHub.Foundations.Pools
import CampusHub.Identity.Codes
import CampusHub.Identity.Sessions

/-!
# Logins and their accounts

A login that finds no account creates one, and publishes a session before its transaction commits. The store is
Redis with the codes and the sessions, and the committed rows of `tb_user` and `tb_user_role`.

* `AccountStore`, `AccountCall`, `AccountCall.move` — the login, from its first call to its commit or rollback.
* `Effect` — what a move does to the accounts.
* `Lawful`, `InOrder` — the invariant: an id belongs to the phone that it was drawn for.
* `Sound.step`, `Named.step` — what every step keeps of the accounts and of the sessions.
* `account_stays` — an account never changes hands.
* `login_truthful` — what a login that answered a token has done.
* `session_truthful` — whom a session names, also when its login was rolled back.

**Transactions.** The insertion of the row of a phone locks it, and another insertion for the phone waits.
The id is drawn by `AUTO_INCREMENT` and is not given back, so that `owner` remembers for whom an id was
drawn, also after a rollback. The session is published between the insertion and the commit, by another
system.

**Proof route.** `effect_move` says once what a step does to the accounts: nothing, a draw, a commit or a
rollback. The invariant and the theorem about accounts use only this. What a login has done is told
backwards: `past_move` and `token_move` find the one step that can have brought it where it is, and `Went`
carries these steps along a run, with the moment of each (`Runs.Once`). A session is traced to its login in
the same way (`names_move`), also where the answer of Redis was lost.

**Left out.** Deletions of accounts, which the source does not have; and the rates of codes and guesses,
which are in `Identity.Codes` and `Identity.Guessing`.
-/

namespace CampusHub.Identity

open CampusHub.Redis CampusHub.Domain CampusHub.Foundations CampusHub.Foundations.Guards
open CampusHub.Foundations.Decimal CampusHub.Foundations.Maps CampusHub.Foundations.Pools

/-! ## The store -/

/-- A row of `tb_user`. -/
structure UserRow where
  id : ℕ
  nickName : Option String
  icon : Option String
  status : String
  deriving DecidableEq

/-- Source: `LoginAccount.java`. -/
structure LoginAccount where
  id : ℕ
  nickName : Option String
  icon : Option String
  status : String
  deriving DecidableEq

/-- Source: `MyBatisLoginAccountRepository.java` 36–38. -/
def UserRow.account (row : UserRow) : LoginAccount := ⟨row.id, row.nickName, row.icon, row.status⟩

/-- Redis and the tables. The rows of `tb_user` are under their phones, which are unique; `inserting` are the phones
of rows that are not committed yet, each of them locked. `owner` is for which phone an id was drawn; no call asks
for it. -/
structure AccountStore where
  codes : Keyspace LoginKey
  server : Server String
  users : FiniteMap String UserRow
  roles : Finset (ℕ × String)
  nextId : ℕ
  inserting : Finset String
  owner : ℕ → Option String

/-- Where a login is: before `findFailureCount`, `consumeCode`, `incrementFailureCount`, `findByPhone`, the two
insertions, `issue`, `clearFailureCount`, and the commit or the rollback, with what is thrown if it is a refusal.
Source: `UserServiceImpl.java` 32–75, `MyBatisLoginAccountRepository.java` 20–34. -/
inductive AccountStage where
  | counting | consuming | recording | finding | creating | granting | issuing
  | clearing (token : String)
  | committing (token : String)
  | leaving (e : Option BusinessException)
  | done (r : LoginResult)
  deriving DecidableEq

/-- A login with what it has found: its account, whether its transaction has inserted the row, and the token and the
id that it has tried to publish. -/
structure AccountCall where
  phone : String
  code : Option String
  account : Option LoginAccount
  inserted : Bool
  session : Option (String × ℕ)
  stage : AccountStage
  deriving DecidableEq

/-- What is drawn in a step: what becomes of the call of the store, which writes of a script fail, the rest of a nick
name and a token. -/
structure Draw where
  fate : Fate
  faults : Faults
  nick : String
  token : String

/-- `LOGIN_USER_KEY` -/
def loginUserKey (token : String) : String := "login:token:" ++ token

/-- `LOGIN_USER_TTL` in milliseconds. -/
def issueTtl : String := "2160000000"

/-- The arguments of the script. Source: `RedisLoginSessionIssuer.java` 38–48. -/
def LoginAccount.argv (a : LoginAccount) : List String :=
  [issueTtl, decimal a.id, a.nickName.getD "", a.icon.getD ""]

namespace AccountStore

variable (s : AccountStore)

/-- The codes and the failures after a script on them. -/
def withCodes (codes : Keyspace LoginKey) : AccountStore := { s with codes := codes }

/-- The sessions after a call on them. -/
def serve (a : SessionAct String) : AccountStore := { s with server := Identity.step s.server a }

/-- The row of a phone is inserted, and locked; its id is drawn. -/
def draw (phone : String) : AccountStore :=
  { s with
    nextId := s.nextId + 1
    inserting := insert phone s.inserting
    owner := Function.update s.owner s.nextId (some phone) }

/-- The row of a phone and its role are committed. -/
def commit (phone : String) (a : LoginAccount) : AccountStore :=
  { s with
    users := s.users.insert phone ⟨a.id, a.nickName, a.icon, a.status⟩
    roles := insert (a.id, "USER") s.roles
    inserting := s.inserting.erase phone }

/-- The row of a phone is gone. -/
def release (phone : String) : AccountStore := { s with inserting := s.inserting.erase phone }

end AccountStore

/-! ## The login -/

/-- The start of a login. Source: `UserServiceImpl.java` 34–37. -/
def startLogin (phone code : Option String) : AccountCall :=
  match phone with
  | none => ⟨"", code, none, false, none, .done (.refused ⟨.validationFailed, "手机号格式错误"⟩)⟩
  | some phone =>
    ⟨phone, code, none, false, none,
      if isPhoneInvalid phone then .done (.refused ⟨.validationFailed, "手机号格式错误"⟩) else .counting⟩

namespace AccountCall

variable (c : AccountCall)

/-- The login at another place. -/
def reach (stage : AccountStage) : AccountCall := { c with stage := stage }

/-- After `findFailureCount`. Source: `UserServiceImpl.java` 38–45. -/
def counted (codes : Keyspace LoginKey) : AccountStage :=
  match findFailureCount codes c.phone with
  | .error _ => .done .thrown
  | .ok none => if c.code.isNone then .recording else .consuming
  | .ok (some text) =>
    match parseLong text with
    | none => .done .thrown
    | some n =>
      if failureLimit ≤ n then .done (.refused loginRateLimited)
      else if c.code.isNone then .recording
      else .consuming

/-- `consumeCode` -/
def consumption (code : String) (s : AccountStore) : Outcome ℤ × Keyspace LoginKey :=
  Plan.run s.server.now (loginCodeConsume s.codes c.phone code) s.codes

/-- After `consumeCode`. Source: `UserServiceImpl.java` 47–52. -/
def consumed : Outcome ℤ → AccountStage
  | .answer n => if n = 1 then .finding else .recording
  | .raised _ => .done .thrown

/-- `incrementFailureCount` -/
def failure (s : AccountStore) : Outcome ℤ × Keyspace LoginKey :=
  Plan.run s.server.now (loginFailureIncrement s.codes c.phone "600") s.codes

/-- After `incrementFailureCount`. Source: `UserServiceImpl.java` 66–75. -/
def recorded : Outcome ℤ → AccountStage
  | .answer failures =>
    .done (.refused (if failureLimit ≤ failures then loginRateLimited else ⟨.authenticationFailed, "验证码错误"⟩))
  | .raised _ => .done .thrown

/-- After the account is there. Source: `UserServiceImpl.java` 57–59. -/
def judged (a : LoginAccount) : AccountStage :=
  if a.status ≠ "ACTIVE" then .leaving (some ⟨.authenticationFailed, "账号不可用"⟩) else .issuing

/-- `issue` -/
def publication (d : Draw) (a : LoginAccount) : SessionAct String :=
  .publish (loginUserKey d.token) a.argv d.faults

/-- The answer of `issue`. -/
def published (d : Draw) (a : LoginAccount) (s : AccountStore) : Outcome ℤ :=
  (loginSessionPublish s.server.now s.server.redis (loginUserKey d.token) a.argv d.faults).1

/-- The next step of a login. An insertion waits for another one of the phone until that one is over, or its
patience is. -/
def move (d : Draw) (s : AccountStore) : AccountStore × AccountCall :=
  match c.stage with
  | .counting => (s, c.reach (if d.fate = .answered then c.counted s.codes else .done .thrown))
  | .consuming =>
    match c.code with
    | none => (s, c.reach (.done .thrown))
    | some code =>
      (d.fate.perform (fun s => s.withCodes (c.consumption code s).2) s,
        c.reach (if d.fate = .answered then consumed (c.consumption code s).1 else .done .thrown))
  | .recording =>
    (d.fate.perform (fun s => s.withCodes (c.failure s).2) s,
      c.reach (if d.fate = .answered then recorded (c.failure s).1 else .done .thrown))
  | .finding =>
    (s,
      if d.fate ≠ .answered then c.reach (.done .thrown)
      else
        match s.users.lookup c.phone with
        | none => c.reach .creating
        | some row => { c with account := some row.account, stage := judged row.account })
  | .creating =>
    if d.fate = .failed then (s, c.reach (.done .thrown))
    else if c.phone ∈ s.inserting then (s, c)
    else if (s.users.lookup c.phone).isSome then (s, c.reach (.done .thrown))
    else
      (s.draw c.phone,
        { c with
          account := some ⟨s.nextId, some ("user_" ++ d.nick), some "", "ACTIVE"⟩
          inserted := true
          stage := if d.fate = .answered then .granting else .leaving none })
  | .granting =>
    (s, c.reach (if d.fate = .answered then c.account.elim (.leaving none) judged else .leaving none))
  | .issuing =>
    match c.account with
    | none => (s, c.reach (.leaving none))
    | some a =>
      (d.fate.perform (.serve · (publication d a)) s,
        { c with
          session := some (d.token, a.id)
          stage := if d.fate = .answered ∧ published d a s = .answer 1 then .clearing d.token
            else .leaving none })
  | .clearing token =>
    (d.fate.perform (fun s => s.withCodes (s.codes.remove (.failure c.phone))) s,
      c.reach (if d.fate = .answered then .committing token else .leaving none))
  | .committing token =>
    match c.inserted, c.account with
    | true, some a =>
      if d.fate.happens then
        (s.commit c.phone a,
          { c with inserted := false, stage := .done (if d.fate = .answered then .ok token else .thrown) })
      else (s.release c.phone, { c with account := none, inserted := false, stage := .done .thrown })
    | _, _ => (s, c.reach (.done (if d.fate = .answered then .ok token else .thrown)))
  | .leaving e =>
    (if c.inserted then s.release c.phone else s,
      { c with account := none, inserted := false, stage := .done (e.elim .thrown .refused) })
  | .done _ => (s, c)

end AccountCall

/-- What others do: codes are sent, sessions are renewed and deleted, the clock goes on, and the rows of accounts
change, though not their ids and phones. -/
inductive AccountEvent where
  | send (phone code : String)
  | renew (key : String) (argv : List String) (faults : Faults)
  | delete (key : String)
  | tick (d : ℕ)
  | change (phone : String) (nickName icon : Option String) (status : String)
  | grant (userId : ℕ) (role : String)

/-- What others do to the store. -/
def AccountEvent.apply (s : AccountStore) : AccountEvent → AccountStore
  | .send phone code =>
    s.withCodes ((s.codes.store (.code phone) (.str code)).expire (.code phone) (s.server.now + 120000))
  | .renew key argv faults => s.serve (.authenticate key argv faults)
  | .delete key => s.serve (.delete key)
  | .tick d => { s.serve (.tick d) with codes := s.codes.purge (s.server.now + d) }
  | .change phone nickName icon status =>
    match s.users.lookup phone with
    | some row => { s with users := s.users.insert phone ⟨row.id, nickName, icon, status⟩ }
    | none => s
  | .grant userId role => { s with roles := insert (userId, role) s.roles }

/-- Logins over the store. -/
def accounts : System AccountStore (Option String × Option String) AccountCall Draw AccountEvent where
  enter _ form := startLogin form.1 form.2
  move d s c := c.move d s
  drift e s := e.apply s

/-- The store and the logins. -/
abbrev AccountPool := Pool AccountStore AccountCall

/-- The steps. -/
abbrev AccountAct := PoolAct (Option String × Option String) Draw AccountEvent

/-! ## What a move does to the accounts -/

/-- The accounts are the same. -/
structure AccountStore.Same (s s' : AccountStore) : Prop where
  users : s'.users = s.users
  roles : s'.roles = s.roles
  nextId : s'.nextId = s.nextId
  inserting : s'.inserting = s.inserting
  owner : s'.owner = s.owner

/-- What a step of a login does to the accounts. -/
inductive Effect (c : AccountCall) (s s' : AccountStore) : Prop where
  | same (h : s.Same s')
  | draw (hfree : c.phone ∉ s.inserting) (hnone : s.users.lookup c.phone = none) (h : s' = s.draw c.phone)
  | commit (a : LoginAccount) (hinserted : c.inserted = true) (ha : c.account = some a)
      (h : s' = s.commit c.phone a)
  | release (hinserted : c.inserted = true) (h : s' = s.release c.phone)

/-- Where nothing was done the accounts are the same. -/
theorem same_refl (s : AccountStore) : s.Same s := ⟨rfl, rfl, rfl, rfl, rfl⟩

/-- A call of Redis leaves the accounts as they are. -/
theorem same_perform {fate : Fate} {f : AccountStore → AccountStore} {s : AccountStore} (hf : s.Same (f s)) :
    s.Same (fate.perform f s) := by
  rcases fate.perform_cases f s with h | h
  · rw [h]
    exact hf
  · rw [h]
    exact same_refl s

/-- **A step changes the accounts by drawing an id, by a commit or by a rollback.** -/
theorem effect_move (d : Draw) (s : AccountStore) (c : AccountCall) : Effect c s (c.move d s).1 := by
  unfold AccountCall.move
  cases c.stage with
  | counting => exact .same (same_refl s)
  | consuming =>
    dsimp only
    split
    · exact .same (same_refl s)
    · dsimp only
      exact .same (same_perform ⟨rfl, rfl, rfl, rfl, rfl⟩)
  | recording =>
    dsimp only
    exact .same (same_perform ⟨rfl, rfl, rfl, rfl, rfl⟩)
  | finding => exact .same (same_refl s)
  | creating =>
    dsimp only
    split
    · exact .same (same_refl s)
    · split
      · exact .same (same_refl s)
      · rename_i hfree
        split
        · exact .same (same_refl s)
        · rename_i hnone
          exact .draw hfree (by simpa using hnone) rfl
  | granting => exact .same (same_refl s)
  | issuing =>
    dsimp only
    split
    · exact .same (same_refl s)
    · dsimp only
      exact .same (same_perform ⟨rfl, rfl, rfl, rfl, rfl⟩)
  | clearing token =>
    dsimp only
    exact .same (same_perform ⟨rfl, rfl, rfl, rfl, rfl⟩)
  | committing token =>
    dsimp only
    split
    · rename_i a hinserted ha
      split
      · exact .commit a hinserted ha rfl
      · exact .release hinserted rfl
    · exact .same (same_refl s)
  | leaving e =>
    dsimp only
    split
    · rename_i hinserted
      exact .release hinserted rfl
    · exact .same (same_refl s)
  | done r => exact .same (same_refl s)

/-! ## The invariant -/

/-- **The committed rows**: each has the id that was drawn for its phone, and its role. -/
structure Lawful (s : AccountStore) : Prop where
  drawn : ∀ phone row, s.users.lookup phone = some row → s.owner row.id = some phone
  fresh : ∀ id, s.nextId ≤ id → s.owner id = none
  roles : ∀ phone row, s.users.lookup phone = some row → (row.id, "USER") ∈ s.roles

/-- The token that a login is going to answer. -/
def AccountStage.token : AccountStage → Option String
  | .clearing token | .committing token | .done (.ok token) => some token
  | _ => none

/-- No session was published yet. -/
def AccountStage.early : AccountStage → Bool
  | .clearing _ | .committing _ | .leaving _ | .done _ => false
  | _ => true

/-- **A login**: what it has found is the account of its phone, and what it has published names that account. -/
structure InOrder (s : AccountStore) (c : AccountCall) : Prop where
  known : ∀ a, c.account = some a → s.owner a.id = some c.phone
  held : c.inserted = true → c.phone ∈ s.inserting ∧ s.users.lookup c.phone = none
  there : c.inserted = false → ∀ a, c.account = some a → ∃ row, s.users.lookup c.phone = some row ∧ row.id = a.id
  session : ∀ token id, c.session = some (token, id) → s.owner id = some c.phone
  issued : ∀ token, c.stage.token = some token → ∃ a, c.account = some a ∧ c.session = some (token, a.id)
  early : c.stage.early = true → c.session = none

/-- Two logins never hold rows of one phone. -/
def Apart (c u : AccountCall) : Prop := c.inserted = true → u.inserted = true → c.phone ≠ u.phone

section invariant

variable {s s' : AccountStore} {c u : AccountCall}

/-- Where the accounts are the same they are in order. -/
theorem Lawful.same (h : Lawful s) (hs : s.Same s') : Lawful s' where
  drawn := by rw [hs.users, hs.owner]; exact h.drawn
  fresh := by rw [hs.nextId, hs.owner]; exact h.fresh
  roles := by rw [hs.users, hs.roles]; exact h.roles

/-- Where the accounts are the same every login is in order. -/
theorem InOrder.same (h : InOrder s c) (hs : s.Same s') : InOrder s' c where
  known := by rw [hs.owner]; exact h.known
  held := by rw [hs.inserting, hs.users]; exact h.held
  there := by rw [hs.users]; exact h.there
  session := by rw [hs.owner]; exact h.session
  issued := h.issued
  early := h.early

/-- An id that belongs to somebody is not the next one. -/
theorem Lawful.owner_draw (h : Lawful s) {id : ℕ} {phone p : String} (hid : s.owner id = some p) :
    (s.draw phone).owner id = some p := by
  have hne : id ≠ s.nextId := by
    rintro rfl
    rw [h.fresh _ le_rfl] at hid
    cases hid
  exact (Function.update_of_ne hne ..).trans hid

/-- A commit writes the row of its phone. -/
theorem users_commit (s : AccountStore) (phone p : String) (a : LoginAccount) :
    (s.commit phone a).users.lookup p =
      if p = phone then some ⟨a.id, a.nickName, a.icon, a.status⟩ else s.users.lookup p := lookup_insert_eq ..

/-- Every step keeps the committed rows in order. -/
theorem Lawful.effect (h : Lawful s) (hc : InOrder s c) (heffect : Effect c s s') : Lawful s' := by
  cases heffect with
  | same hs => exact h.same hs
  | draw hfree hnone hs =>
    subst hs
    refine ⟨fun phone row hrow => h.owner_draw (h.drawn phone row hrow), fun id hid => ?_, h.roles⟩
    have hid' : s.nextId + 1 ≤ id := hid
    exact (Function.update_of_ne (by omega) ..).trans (h.fresh id (by omega))
  | commit a hinserted ha hs =>
    subst hs
    refine ⟨fun phone row hrow => ?_, h.fresh, fun phone row hrow => ?_⟩
    · rw [users_commit] at hrow
      split at hrow
      · rename_i hphone
        obtain rfl := Option.some.inj hrow
        rw [hphone]
        exact hc.known a ha
      · exact h.drawn phone row hrow
    · rw [users_commit] at hrow
      split at hrow
      · obtain rfl := Option.some.inj hrow
        exact Finset.mem_insert_self _ _
      · exact Finset.mem_insert_of_mem (h.roles phone row hrow)
  | release hinserted hs =>
    subst hs
    exact ⟨h.drawn, h.fresh, h.roles⟩

/-- **What a step of a login leaves to another.** -/
theorem InOrder.other (h : InOrder s u) (hlawful : Lawful s) (hc : InOrder s c) (hapart : Apart c u)
    (heffect : Effect c s s') : InOrder s' u := by
  cases heffect with
  | same hs => exact h.same hs
  | draw hfree hnone hs =>
    subst hs
    exact
      { known := fun a ha => hlawful.owner_draw (h.known a ha)
        held := fun hu => ⟨Finset.mem_insert_of_mem (h.held hu).1, (h.held hu).2⟩
        there := h.there
        session := fun token id hid => hlawful.owner_draw (h.session token id hid)
        issued := h.issued
        early := h.early }
  | commit a hinserted ha hs =>
    subst hs
    obtain ⟨-, hnone⟩ := hc.held hinserted
    refine ⟨h.known, fun hu => ?_, fun hu b hb => ?_, h.session, h.issued, h.early⟩
    · have hne := hapart hinserted hu
      refine ⟨Finset.mem_erase.mpr ⟨hne.symm, (h.held hu).1⟩, ?_⟩
      rw [users_commit, if_neg hne.symm]
      exact (h.held hu).2
    · obtain ⟨row, hrow, hid⟩ := h.there hu b hb
      refine ⟨row, ?_, hid⟩
      rw [users_commit, if_neg fun heq => by rw [heq, hnone] at hrow; cases hrow]
      exact hrow
  | release hinserted hs =>
    subst hs
    refine ⟨h.known, fun hu => ?_, h.there, h.session, h.issued, h.early⟩
    exact ⟨Finset.mem_erase.mpr ⟨(hapart hinserted hu).symm, (h.held hu).1⟩, (h.held hu).2⟩

/-- A login that goes on with what it has. -/
theorem InOrder.reach (h : InOrder s c) {stage : AccountStage}
    (htoken : ∀ token, stage.token = some token → c.stage.token = some token)
    (hearly : stage.early = true → c.stage.early = true) : InOrder s (c.reach stage) where
  known := h.known
  held := h.held
  there := h.there
  session := h.session
  issued token htok := h.issued token (htoken token htok)
  early hstage := h.early (hearly hstage)

/-- A login that has published nothing. -/
theorem InOrder.ahead (h : InOrder s c) (hearly : c.stage.early = true) {stage : AccountStage}
    (htoken : stage.token = none) : InOrder s (c.reach stage) :=
  h.reach (fun token htok => by rw [htoken] at htok; cases htok) fun _ => hearly

/-- A login that has let go of its account. -/
theorem InOrder.drop (h : InOrder s c) (howner : s'.owner = s.owner) {stage : AccountStage}
    (htoken : stage.token = none) (hearly : stage.early = false) :
    InOrder s' { c with account := none, inserted := false, stage := stage } where
  known _ ha := by cases ha
  held hheld := by cases hheld
  there _ _ ha := by cases ha
  session := by rw [howner]; exact h.session
  issued token htok := by
    dsimp only at htok
    rw [htoken] at htok
    cases htok
  early hstage := by
    dsimp only at hstage
    rw [hearly] at hstage
    cases hstage

/-- After the counter there is no token to answer. -/
theorem token_counted (codes : Keyspace LoginKey) : (c.counted codes).token = none := by
  unfold AccountCall.counted
  split
  · rfl
  · split <;> rfl
  · split
    · rfl
    · split
      · rfl
      · split <;> rfl

/-- After the code there is no token to answer. -/
theorem token_consumed (o : Outcome ℤ) : (AccountCall.consumed o).token = none := by
  cases o with
  | answer n =>
    unfold AccountCall.consumed
    dsimp only
    split <;> rfl
  | raised e => rfl

/-- After a failure there is no token to answer. -/
theorem token_recorded (o : Outcome ℤ) : (AccountCall.recorded o).token = none := by
  cases o <;> rfl

/-- When the account is there, there is no token to answer yet. -/
theorem token_judged (a : LoginAccount) : (AccountCall.judged a).token = none := by
  unfold AccountCall.judged
  split <;> rfl

/-- A choice of places without a token is one. -/
theorem token_ite {P : Prop} [Decidable P] {x y : AccountStage} (hx : x.token = none) (hy : y.token = none) :
    (if P then x else y).token = none := by
  split
  · exact hx
  · exact hy

/-- The account was found. -/
theorem InOrder.find (h : InOrder s c) (hlawful : Lawful s) (hearly : c.stage.early = true) {row : UserRow}
    (hrow : s.users.lookup c.phone = some row) {stage : AccountStage} (htoken : stage.token = none) :
    InOrder s { c with account := some row.account, stage := stage } where
  known a ha := by
    obtain rfl := Option.some.inj ha
    exact hlawful.drawn c.phone row hrow
  held := h.held
  there _ a ha := by
    obtain rfl := Option.some.inj ha
    exact ⟨row, hrow, rfl⟩
  session := h.session
  issued token htok := by
    dsimp only at htok
    rw [htoken] at htok
    cases htok
  early _ := h.early hearly

/-- The insertion of the row. -/
theorem InOrder.draw (h : InOrder s c) (hearly : c.stage.early = true) (hnone : s.users.lookup c.phone = none)
    {nick : Option String} {stage : AccountStage} (htoken : stage.token = none) :
    InOrder (s.draw c.phone)
      { c with account := some ⟨s.nextId, nick, some "", "ACTIVE"⟩, inserted := true, stage := stage } where
  known a ha := by
    obtain rfl := Option.some.inj ha
    exact Function.update_self ..
  held _ := ⟨Finset.mem_insert_self _ _, hnone⟩
  there hinserted := by cases hinserted
  session token id hid := by
    dsimp only at hid
    rw [h.early hearly] at hid
    cases hid
  issued token htok := by
    dsimp only at htok
    rw [htoken] at htok
    cases htok
  early _ := h.early hearly

/-- The publication of the session. -/
theorem InOrder.publish (h : InOrder s c) {a : LoginAccount} (ha : c.account = some a) {token : String}
    {stage : AccountStage} (htoken : ∀ t, stage.token = some t → t = token) (hearly : stage.early = false) :
    InOrder s { c with session := some (token, a.id), stage := stage } where
  known := h.known
  held := h.held
  there := h.there
  session t id hid := by
    cases hid
    exact h.known a ha
  issued t ht := by
    obtain rfl := htoken t ht
    exact ⟨a, ha, rfl⟩
  early hstage := by
    dsimp only at hstage
    rw [hearly] at hstage
    cases hstage

/-- The commit of the row. -/
theorem InOrder.commit (h : InOrder s c) {a : LoginAccount} (ha : c.account = some a) {stage : AccountStage}
    (htoken : ∀ t, stage.token = some t → c.stage.token = some t) (hearly : stage.early = false) :
    InOrder (s.commit c.phone a) { c with inserted := false, stage := stage } where
  known := h.known
  held hheld := by cases hheld
  there _ b hb := by
    obtain rfl := Option.some.inj (ha.symm.trans hb)
    refine ⟨⟨a.id, a.nickName, a.icon, a.status⟩, ?_, rfl⟩
    rw [users_commit, if_pos rfl]
  session := h.session
  issued token htok := h.issued token (htoken token htok)
  early hstage := by
    dsimp only at hstage
    rw [hearly] at hstage
    cases hstage

/-- **What a step of a login leaves to itself.** -/
theorem inOrder_move (d : Draw) (hlawful : Lawful s) (h : InOrder s c) : InOrder (c.move d s).1 (c.move d s).2 := by
  unfold AccountCall.move
  cases hstage : c.stage with
  | counting => exact h.ahead (by rw [hstage]; rfl) (token_ite (token_counted _) rfl)
  | consuming =>
    have hearly : c.stage.early = true := by rw [hstage]; rfl
    dsimp only
    split
    · exact h.ahead hearly rfl
    · dsimp only
      refine (h.same (same_perform ⟨rfl, rfl, rfl, rfl, rfl⟩)).ahead hearly ?_
      exact token_ite (token_consumed _) rfl
  | recording =>
    dsimp only
    refine (h.same (same_perform ⟨rfl, rfl, rfl, rfl, rfl⟩)).ahead (by rw [hstage]; rfl) ?_
    exact token_ite (token_recorded _) rfl
  | finding =>
    have hearly : c.stage.early = true := by rw [hstage]; rfl
    dsimp only
    split
    · exact h.ahead hearly rfl
    · split
      · exact h.ahead hearly rfl
      · rename_i row hrow
        exact h.find hlawful hearly hrow (token_judged _)
  | creating =>
    have hearly : c.stage.early = true := by rw [hstage]; rfl
    dsimp only
    split
    · exact h.ahead hearly rfl
    · split
      · exact h
      · split
        · exact h.ahead hearly rfl
        · rename_i hnone
          exact h.draw hearly (by simpa using hnone) (token_ite rfl rfl)
  | granting =>
    refine h.ahead (by rw [hstage]; rfl) (token_ite ?_ rfl)
    cases c.account with
    | none => rfl
    | some a => exact token_judged a
  | issuing =>
    have hearly : c.stage.early = true := by rw [hstage]; rfl
    dsimp only
    split
    · exact h.ahead hearly rfl
    · rename_i a ha
      dsimp only
      refine (h.same (same_perform ⟨rfl, rfl, rfl, rfl, rfl⟩)).publish ha (fun t ht => ?_) ?_
      · split at ht
        · exact (Option.some.inj ht).symm
        · cases ht
      · split <;> rfl
  | clearing token =>
    dsimp only
    refine (h.same (same_perform ⟨rfl, rfl, rfl, rfl, rfl⟩)).reach (fun t ht => ?_) fun ht => ?_
    · rw [hstage]
      split at ht
      · exact ht
      · cases ht
    · split at ht <;> cases ht
  | committing token =>
    have htoken : ∀ t : String, (AccountStage.done (if d.fate = .answered then .ok token else .thrown)).token = some t →
        c.stage.token = some t := by
      intro t ht
      rw [hstage]
      split at ht
      · exact ht
      · cases ht
    dsimp only
    split
    · rename_i a _ ha
      split
      · exact h.commit ha htoken rfl
      · show InOrder (s.release c.phone)
          { c with account := none, inserted := false, stage := .done .thrown }
        apply h.drop
        · rfl
        · rfl
        · rfl
    · exact h.reach htoken fun ht => by cases ht
  | leaving e =>
    dsimp only
    refine h.drop ?_ ?_ rfl
    · split <;> rfl
    · cases e <;> rfl
  | done r => exact h

/-- What others do leaves the accounts and the logins in order. -/
theorem lawful_event (h : Lawful s) (e : AccountEvent) :
    Lawful (e.apply s) ∧ ∀ c, InOrder s c → InOrder (e.apply s) c := by
  have hsame : ∀ {s' : AccountStore}, s.Same s' → Lawful s' ∧ ∀ c, InOrder s c → InOrder s' c :=
    fun hs => ⟨h.same hs, fun _ hc => hc.same hs⟩
  cases e with
  | send | renew | delete | tick => exact hsame ⟨rfl, rfl, rfl, rfl, rfl⟩
  | change phone nickName icon status =>
    unfold AccountEvent.apply
    dsimp only
    split
    · rename_i row hrow
      have hlookup : ∀ p, (s.users.insert phone ⟨row.id, nickName, icon, status⟩).lookup p =
          if p = phone then some ⟨row.id, nickName, icon, status⟩ else s.users.lookup p :=
        fun p => lookup_insert_eq ..
      have hback : ∀ p r, (s.users.insert phone ⟨row.id, nickName, icon, status⟩).lookup p = some r →
          ∃ r', s.users.lookup p = some r' ∧ r'.id = r.id := by
        intro p r hr
        rw [hlookup] at hr
        split at hr
        · rename_i hp
          obtain rfl := Option.some.inj hr
          exact ⟨row, hp ▸ hrow, rfl⟩
        · exact ⟨r, hr, rfl⟩
      refine ⟨⟨fun p r hr => ?_, h.fresh, fun p r hr => ?_⟩, fun c hc =>
        ⟨hc.known, fun hheld => ⟨(hc.held hheld).1, ?_⟩, fun hnot a ha => ?_, hc.session, hc.issued, hc.early⟩⟩
      · obtain ⟨r', hr', hid⟩ := hback p r hr
        rw [← hid]
        exact h.drawn p r' hr'
      · obtain ⟨r', hr', hid⟩ := hback p r hr
        rw [← hid]
        exact h.roles p r' hr'
      · show (s.users.insert phone _).lookup c.phone = none
        rw [hlookup, if_neg]
        · exact (hc.held hheld).2
        · intro hp
          rw [← hp, (hc.held hheld).2] at hrow
          cases hrow
      · obtain ⟨r, hr, hid⟩ := hc.there hnot a ha
        show ∃ r, (s.users.insert phone _).lookup c.phone = some r ∧ _
        rw [hlookup]
        by_cases hp : c.phone = phone
        · rw [if_pos hp]
          rw [hp, hrow] at hr
          obtain rfl := Option.some.inj hr
          exact ⟨_, rfl, hid⟩
        · rw [if_neg hp]
          exact ⟨r, hr, hid⟩
    · exact hsame (same_refl s)
  | grant userId role =>
    refine ⟨⟨h.drawn, h.fresh, fun p r hr => Finset.mem_insert_of_mem (h.roles p r hr)⟩, fun c hc => ?_⟩
    exact ⟨hc.known, hc.held, hc.there, hc.session, hc.issued, hc.early⟩

/-- A login that starts is in order. -/
theorem inOrder_start (s : AccountStore) (phone code : Option String) : InOrder s (startLogin phone code) := by
  have hempty : ∀ (p : String) (stage : AccountStage), stage.token = none →
      InOrder s ⟨p, code, none, false, none, stage⟩ := fun p stage htoken =>
    { known := fun a ha => by cases ha
      held := fun h => by cases h
      there := fun _ a ha => by cases ha
      session := fun t id h => by cases h
      issued := fun t ht => by
        dsimp only at ht
        rw [htoken] at ht
        cases ht
      early := fun _ => rfl }
  unfold startLogin
  split
  · exact hempty _ _ rfl
  · exact hempty _ _ (token_ite rfl rfl)

end invariant

/-! ## Sessions -/

/-- A key that is gone names nobody. -/
theorem hget_of_none {κ : Type} {ks : Keyspace κ} {k : κ} (h : ks k = none) (f : String) : ks.hget k f = none := by
  cases hf : ks.hget k f with
  | none => rfl
  | some v =>
    obtain ⟨t, hkey⟩ := Keyspace.exists_of_hget hf
    rw [h] at hkey
    cases hkey

/-- A session that a login has tried to publish, as Redis has it. -/
def AccountCall.Names (c : AccountCall) (key text : String) : Prop :=
  ∃ token id, c.session = some (token, id) ∧ key = loginUserKey token ∧ text = decimal id

section sessions

variable {s : AccountStore} {c : AccountCall} {key text : String}

/-- **The session of a key names somebody only by a publication under the key.** -/
theorem hget_serve {a : SessionAct String} (h : (s.serve a).server.redis.hget key "id" = some text) :
    s.server.redis.hget key "id" = some text ∨
      ∃ ttl nickName icon faults, a = .publish key [ttl, text, nickName, icon] faults := by
  have hremoved : ∀ k, (s.server.redis.remove k).hget key "id" = some text →
      s.server.redis.hget key "id" = some text := by
    intro k hk
    by_cases hkey : key = k
    · rw [hget_of_none (by rw [Keyspace.remove_apply, if_pos hkey])] at hk
      cases hk
    · rwa [Keyspace.hget_congr (by rw [Keyspace.remove_apply, if_neg hkey])] at hk
  cases a with
  | publish k argv faults =>
    have hstep : (s.serve (.publish k argv faults)).server.redis =
        (loginSessionPublish s.server.now s.server.redis k argv faults).2 := rfl
    rw [hstep] at h
    rcases publish_cases (rfl : loginSessionPublish s.server.now s.server.redis k argv faults = _) with
      ⟨-, hks⟩ | ⟨-, -, e, hks, hvalue⟩ | ⟨-, -, ttl, p, d, -, rfl, hks⟩
    · rw [hks] at h
      exact .inl h
    · rw [hks] at h
      by_cases hk : key = k
      · subst hk
        obtain ⟨t, hkey⟩ := Keyspace.exists_of_hget h
        rw [Keyspace.replace_self] at hkey
        rw [Keyspace.hget, Value.hash.inj (hvalue _ hkey), lookup_placeholder] at h
        cases h
      · rw [Keyspace.hget_congr (Keyspace.replace_of_ne _ e hk)] at h
        exact .inl h
    · rw [hks] at h
      by_cases hk : key = k
      · subst hk
        obtain ⟨hid, -, -⟩ := hget_hash (Keyspace.replace_self s.server.redis key
          (some ⟨.hash p.hash, some (s.server.now + d)⟩))
        obtain rfl := Option.some.inj (hid.symm.trans h)
        exact .inr ⟨ttl, p.nickName, p.icon, faults, rfl⟩
      · rw [Keyspace.hget_congr (Keyspace.replace_of_ne _ _ hk)] at h
        exact .inl h
  | authenticate k argv faults =>
    have hstep : (s.serve (.authenticate k argv faults)).server.redis =
        (sessionAuthenticate s.server.now s.server.redis k argv faults).2 := rfl
    rw [hstep] at h
    rcases authenticate_cases (rfl : sessionAuthenticate s.server.now s.server.redis k argv faults = _) with
      ⟨-, hks | hks⟩ | ⟨-, observed, ttl, d, -, -, -, -, -, hks⟩
    · rw [hks] at h
      exact .inl h
    · rw [hks] at h
      exact .inl (hremoved k h)
    · rw [hks, Keyspace.hget_expire] at h
      exact .inl h
  | delete k => exact .inl (hremoved k h)
  | tick d =>
    have hstep : (s.serve (.tick d)).server.redis = s.server.redis.purge (s.server.now + d) := rfl
    rw [hstep] at h
    rcases s.server.redis.purge_eq_or_none (s.server.now + d) key with hsame | hgone
    · rw [Keyspace.hget_congr hsame] at h
      exact .inl h
    · rw [hget_of_none hgone] at h
      cases h

/-- A login keeps its phone. -/
@[simp] theorem AccountCall.phone_move (d : Draw) (s : AccountStore) (c : AccountCall) :
    (c.move d s).2.phone = c.phone := by
  unfold AccountCall.move
  repeat' first | split | dsimp only
  all_goals rfl

/-- A login keeps its code. -/
@[simp] theorem AccountCall.code_move (d : Draw) (s : AccountStore) (c : AccountCall) :
    (c.move d s).2.code = c.code := by
  unfold AccountCall.move
  repeat' first | split | dsimp only
  all_goals rfl

/-- The sessions change in no step of a login but its publication. -/
theorem server_move (d : Draw) (s : AccountStore) (c : AccountCall) : (c.move d s).1.server = s.server ∨
    ∃ a, c.stage = .issuing ∧ (c.move d s).1.server = (s.serve (AccountCall.publication d a)).server ∧
      (c.move d s).2.session = some (d.token, a.id) := by
  have hcodes : ∀ codes, (d.fate.perform (fun s => s.withCodes codes) s).server = s.server := by
    intro codes
    rcases d.fate.perform_cases (fun s : AccountStore => s.withCodes codes) s with h | h
    · rw [h]
      rfl
    · rw [h]
  unfold AccountCall.move
  cases hstage : c.stage with
  | issuing =>
    dsimp only
    split
    · exact .inl rfl
    · rename_i a ha
      dsimp only
      rcases d.fate.perform_cases (fun s : AccountStore => s.serve (AccountCall.publication d a)) s with h | h
      · rw [h]
        exact .inr ⟨a, rfl, rfl, rfl⟩
      · rw [h]
        exact .inl rfl
  | consuming =>
    dsimp only
    split
    · exact .inl rfl
    · exact .inl (hcodes _)
  | recording => exact .inl (hcodes _)
  | clearing token => exact .inl (hcodes _)
  | creating =>
    dsimp only
    repeat' split
    all_goals exact .inl rfl
  | committing token =>
    dsimp only
    repeat' split
    all_goals exact .inl rfl
  | leaving e =>
    dsimp only
    split
    all_goals exact .inl rfl
  | counting | finding | granting | done => exact .inl rfl

/-- **A session is published by a login, for what the login has found.** -/
theorem names_move (d : Draw) (h : (c.move d s).1.server.redis.hget key "id" = some text) :
    s.server.redis.hget key "id" = some text ∨ (c.move d s).2.Names key text := by
  rcases server_move d s c with hsame | ⟨a, -, hserver, hsession⟩
  · rw [hsame] at h
    exact .inl h
  · rw [hserver] at h
    rcases hget_serve h with hbefore | ⟨ttl, nickName, icon, faults, hpublish⟩
    · exact .inl hbefore
    · obtain ⟨hkey, hargv, -⟩ := SessionAct.publish.inj hpublish
      obtain ⟨-, htext, -⟩ := List.cons.inj hargv |>.imp_right List.cons.inj
      exact .inr ⟨d.token, a.id, hsession, hkey.symm, htext.symm⟩

/-- A login keeps what it has published. -/
theorem session_kept (d : Draw) (h : InOrder s c) {x : String × ℕ} (hx : c.session = some x) :
    (c.move d s).2.session = some x := by
  have hlate : c.stage.early = false := by
    cases hearly : c.stage.early with
    | false => rfl
    | true =>
      rw [h.early hearly] at hx
      cases hx
  unfold AccountCall.move
  cases hstage : c.stage with
  | clearing token => exact hx
  | committing token =>
    dsimp only
    repeat' split
    all_goals exact hx
  | leaving e => exact hx
  | done r => exact hx
  | _ =>
    rw [hstage] at hlate
    cases hlate

/-- What others do publishes no session. -/
theorem names_event (e : AccountEvent) (h : (e.apply s).server.redis.hget key "id" = some text) :
    s.server.redis.hget key "id" = some text := by
  have hserve : ∀ a, (∀ k argv faults, a ≠ .publish k argv faults) →
      (s.serve a).server.redis.hget key "id" = some text → s.server.redis.hget key "id" = some text := by
    intro a ha hafter
    rcases hget_serve hafter with hbefore | ⟨ttl, nickName, icon, faults, hpublish⟩
    · exact hbefore
    · exact absurd hpublish (ha _ _ _)
  cases e with
  | send phone code => exact h
  | renew k argv faults => exact hserve _ (fun _ _ _ heq => by cases heq) h
  | delete k => exact hserve _ (fun _ _ _ heq => by cases heq) h
  | tick d => exact hserve (.tick d) (fun _ _ _ heq => by cases heq) h
  | change phone nickName icon status =>
    unfold AccountEvent.apply at h
    dsimp only at h
    split at h
    · exact h
    · exact h
  | grant userId role => exact h

end sessions

/-! ## Runs -/

/-- What holds of the store, of every login and of any two. -/
structure Sound (p : AccountPool) : Prop where
  asserts : Asserts Lawful InOrder p
  apart : Pairs Apart p

section runs

variable {s s' : AccountStore} {c : AccountCall} {p : AccountPool}

/-- Two logins are apart in either order. -/
theorem apart_symm (c u : AccountCall) (h : Apart c u) : Apart u c := fun hu hc heq => h hc hu heq.symm

/-- A row is inserted under a phone that is free. -/
theorem inserted_move {d : Draw} (h : (c.move d s).2.inserted = true) :
    c.inserted = true ∨ c.phone ∉ s.inserting := by
  unfold AccountCall.move at h
  cases hstage : c.stage with
  | creating =>
    by_cases hfree : c.phone ∈ s.inserting
    · rw [hstage] at h
      dsimp only at h
      rw [if_pos hfree] at h
      left
      split at h
      · exact h
      · exact h
    · exact .inr hfree
  | committing token =>
    rw [hstage] at h
    dsimp only at h
    split at h
    · split at h
      · cases h
      · cases h
    · exact .inl h
  | leaving e =>
    rw [hstage] at h
    cases h
  | consuming | finding | issuing =>
    rw [hstage] at h
    dsimp only at h
    repeat' split at h
    all_goals exact .inl h
  | _ =>
    rw [hstage] at h
    exact .inl h

/-- **Every step keeps the invariant.** -/
theorem Sound.step (h : Sound p) (act : AccountAct) : Sound (accounts.step p act) where
  asserts := by
    apply h.asserts.step
    · intro i r _
      exact inOrder_start p.store r.1 r.2
    · intro i d t _ ht
      have hown := h.asserts.calls i t ht
      have heffect := effect_move d p.store t
      refine ⟨h.asserts.store.effect hown heffect, inOrder_move d h.asserts.store hown, fun j u hj hu => ?_⟩
      exact (h.asserts.calls j u hu).other h.asserts.store hown (h.apart i j t u hj.symm ht hu) heffect
    · intro e _
      obtain ⟨hlawful, hcalls⟩ := lawful_event h.asserts.store e
      exact ⟨hlawful, fun i t ht => hcalls t (h.asserts.calls i t ht)⟩
  apart := by
    apply h.apart.step apart_symm
    · intro i r _ j u _ _ hstart
      have hnot : (startLogin r.1 r.2).inserted = false := by
        unfold startLogin
        split <;> rfl
      exact absurd (hnot.symm.trans hstart) nofun
    · intro i d t _ ht j u hj hu hinserted hheld heq
      replace heq : t.phone = u.phone := (AccountCall.phone_move d p.store t).symm.trans heq
      rcases inserted_move hinserted with hbefore | hfree
      · exact h.apart i j t u hj.symm ht hu hbefore hheld heq
      · apply hfree
        rw [heq]
        exact ((h.asserts.calls j u hu).held hheld).1

/-- Every run keeps the invariant. -/
theorem sound_run (h : Sound p) (as : List AccountAct) : Sound (Runs.run accounts.step p as) :=
  Runs.run_invariant accounts.step (fun _ act hp => hp.step act) as h

/-- Every account is still there, under its phone and with its id, and every id that was drawn is still the id of
the phone that it was drawn for. -/
structure AccountStore.Keeps (s s' : AccountStore) : Prop where
  accounts : ∀ phone row, s.users.lookup phone = some row →
    ∃ row', s'.users.lookup phone = some row' ∧ row'.id = row.id
  owners : ∀ id phone, s.owner id = some phone → s'.owner id = some phone

/-- Where no row was written every account is there. -/
theorem keeps_of_eq (husers : s'.users = s.users) (howner : s'.owner = s.owner) : s.Keeps s' where
  accounts phone row hrow := ⟨row, by rw [husers]; exact hrow, rfl⟩
  owners id phone hid := by rw [howner]; exact hid

/-- What is kept and then kept again is kept. -/
theorem Keeps.trans {t u : AccountStore} (h : s.Keeps t) (h' : t.Keeps u) : s.Keeps u where
  accounts phone row hrow := by
    obtain ⟨row', hrow', hid⟩ := h.accounts phone row hrow
    obtain ⟨row'', hrow'', hid'⟩ := h'.accounts phone row' hrow'
    exact ⟨row'', hrow'', hid'.trans hid⟩
  owners id phone hid := h'.owners id phone (h.owners id phone hid)

/-- A step of a login keeps the accounts. -/
theorem Effect.keeps (h : Effect c s s') (hlawful : Lawful s) (hc : InOrder s c) : s.Keeps s' := by
  cases h with
  | same hs => exact keeps_of_eq hs.users hs.owner
  | draw _ _ hs =>
    subst hs
    exact ⟨fun phone row hrow => ⟨row, hrow, rfl⟩, fun id phone hid => hlawful.owner_draw hid⟩
  | release _ hs =>
    subst hs
    exact keeps_of_eq rfl rfl
  | commit a hinserted ha hs =>
    subst hs
    refine ⟨fun phone row hrow => ?_, fun id phone hid => hid⟩
    have hne : phone ≠ c.phone := by
      rintro rfl
      rw [(hc.held hinserted).2] at hrow
      cases hrow
    rw [users_commit, if_neg hne]
    exact ⟨row, hrow, rfl⟩

/-- What others do keeps them. -/
theorem keeps_event (e : AccountEvent) (s : AccountStore) : s.Keeps (e.apply s) := by
  cases e with
  | change phone nickName icon status =>
    unfold AccountEvent.apply
    dsimp only
    split
    · rename_i old hold
      refine ⟨fun p row hrow => ?_, fun id p hid => hid⟩
      show ∃ row', (s.users.insert phone _).lookup p = some row' ∧ _
      rw [lookup_insert_eq]
      by_cases hp : p = phone
      · rw [hp, hold] at hrow
        obtain rfl := Option.some.inj hrow
        rw [if_pos hp]
        exact ⟨_, rfl, rfl⟩
      · rw [if_neg hp]
        exact ⟨row, hrow, rfl⟩
    · exact keeps_of_eq rfl rfl
  | _ => exact keeps_of_eq rfl rfl

/-- Every step keeps the accounts. -/
theorem Sound.keeps (h : Sound p) (act : AccountAct) : p.store.Keeps (accounts.step p act).store := by
  rcases accounts.step_cases p act with hstep | ⟨i, r, -, -, hstep⟩ | ⟨i, d, t, -, ht, hstep⟩ | ⟨e, -, hstep⟩
  · rw [hstep]
    exact keeps_of_eq rfl rfl
  · rw [hstep]
    exact keeps_of_eq rfl rfl
  · rw [hstep]
    exact (effect_move d p.store t).keeps h.asserts.store (h.asserts.calls i t ht)
  · rw [hstep]
    exact keeps_event e p.store

/-- Every run keeps the accounts. -/
theorem keeps_run (h : Sound p) (as : List AccountAct) : p.store.Keeps (Runs.run accounts.step p as).store := by
  apply Runs.run_rel accounts.step (I := Sound) (R := fun q q' : AccountPool => q.store.Keeps q'.store)
  · exact fun q => keeps_of_eq rfl rfl
  · exact fun q q' q'' hq hq' => Keeps.trans hq hq'
  · exact fun q act hq => hq.step act
  · exact fun q act hq => hq.keeps act
  · exact h

end runs

/-- The store and the logins after the steps. -/
def AccountStore.after (s : AccountStore) (as : List AccountAct) : AccountPool :=
  Runs.run accounts.step (Pool.idle s) as

/-- A run with one step more takes that step last. -/
theorem after_snoc (s : AccountStore) (as : List AccountAct) (act : AccountAct) :
    s.after (as ++ [act]) = accounts.step (s.after as) act := Runs.run_append ..

/-- What holds after a run from rows in order. -/
theorem sound_after {s : AccountStore} (h : Lawful s) (as : List AccountAct) : Sound (s.after as) :=
  sound_run ⟨asserts_idle h, pairs_idle⟩ as

/-- A longer run has all accounts of a shorter one. -/
theorem keeps_after {s : AccountStore} (h : Lawful s) (as bs : List AccountAct) :
    (s.after as).store.Keeps (s.after (as ++ bs)).store := by
  have hrun : s.after (as ++ bs) = Runs.run accounts.step (s.after as) bs := Runs.run_append ..
  rw [hrun]
  exact keeps_run (sound_after h as) bs

/-- **An account never changes hands.** Whatever logins, commits and rollbacks follow, the phone of a committed
account stays the phone of this account, and no other phone ever has its id. -/
theorem account_stays {s : AccountStore} (h : Lawful s) (as bs : List AccountAct) {phone : String} {row : UserRow}
    (hrow : (s.after as).store.users.lookup phone = some row) :
    (∃ row', (s.after (as ++ bs)).store.users.lookup phone = some row' ∧ row'.id = row.id) ∧
      ∀ other row', (s.after (as ++ bs)).store.users.lookup other = some row' → row'.id = row.id →
        other = phone := by
  obtain ⟨row', hrow', hid⟩ := (keeps_after h as bs).accounts phone row hrow
  refine ⟨⟨row', hrow', hid⟩, fun other r hr hr' => ?_⟩
  have hlawful := (sound_after h (as ++ bs)).asserts.store
  have howner := hlawful.drawn other r hr
  rw [hr', ← hid, hlawful.drawn phone row' hrow'] at howner
  exact (Option.some.inj howner).symm

/-- No account, no code and no session. -/
def nobodyYet : AccountStore := ⟨fun _ => none, ⟨fun _ => none, 0⟩, ∅, ∅, 1, ∅, fun _ => none⟩

/-- No rows are in order. -/
theorem nobodyYet_lawful : Lawful nobodyYet where
  drawn phone row hrow := by
    rw [show nobodyYet.users = ∅ from rfl, Finmap.lookup_empty] at hrow
    cases hrow
  fresh _ _ := rfl
  roles phone row hrow := by
    rw [show nobodyYet.users = ∅ from rfl, Finmap.lookup_empty] at hrow
    cases hrow

/-- What is drawn when nothing fails. -/
def ann : Draw := ⟨.answered, noFaults, "ann", "t"⟩

/-- A phone that has a code logs in for the first time. -/
def firstLogin : List AccountAct :=
  [.drift (.send "13812345678" "271828"), .enter 0 (some "13812345678", some "271828"), .move 0 ann, .move 0 ann,
    .move 0 ann, .move 0 ann, .move 0 ann, .move 0 ann, .move 0 ann, .move 0 ann]

/-- Its account is disabled. -/
def disabling : List AccountAct := [.drift (.change "13812345678" none none "DISABLED")]

/-- The account of the first login is there when it is disabled, with its id. -/
theorem firstLogin_stays :
    (∃ row', (nobodyYet.after (firstLogin ++ disabling)).store.users.lookup "13812345678" = some row' ∧ row'.id = 1) ∧
      ∀ other row', (nobodyYet.after (firstLogin ++ disabling)).store.users.lookup other = some row' → row'.id = 1 →
        other = "13812345678" :=
  have hrow : (nobodyYet.after firstLogin).store.users.lookup "13812345678" =
      some ⟨1, some "user_ann", some "", "ACTIVE"⟩ := by decide +kernel
  account_stays nobodyYet_lawful firstLogin disabling hrow

/-! ## What a login went through -/

/-- The code was consumed, and the login goes on. -/
def AccountStage.accepted : AccountStage → Bool
  | .finding | .creating | .granting | .issuing | .clearing _ | .committing _ => true
  | _ => false

/-- The login may hold a row that it has inserted. -/
def AccountStage.holds : AccountStage → Bool
  | .granting | .issuing | .clearing _ | .committing _ | .leaving _ => true
  | _ => false

/-- The login is past its code. -/
def AccountCall.Past (c : AccountCall) : Prop := c.stage.accepted = true ∨ c.session ≠ none

/-- The last step of the run is one of a login that has started, and it consumes the code of the phone: the code was
the one that the login was asked with, and is there no more. -/
def Consumed (s : AccountStore) (i : ℕ) (phone : String) (code : Option String) (as : List AccountAct) : Prop :=
  ∃ bs d text, as = bs ++ [.move i d] ∧ .enter i (some phone, code) ∈ bs ∧ code = some text ∧
    (s.after bs).store.codes.get (.code phone) = some text ∧ (s.after as).store.codes (.code phone) = none

/-- The last step of the run is one of the login, and it publishes a session: nothing was under the key of the token,
and now the hash of a user with this id is there, and expires. -/
def Published (s : AccountStore) (i : ℕ) (token : String) (id : ℕ) (as : List AccountAct) : Prop :=
  ∃ bs d nickName icon t, as = bs ++ [.move i d] ∧
    (s.after bs).store.server.redis (loginUserKey token) = none ∧
    (s.after as).store.server.redis (loginUserKey token) =
      some ⟨.hash (SessionUser.hash ⟨decimal id, nickName, icon⟩), some t⟩ ∧
    (s.after as).store.server.now < t

/-- What a login went through. -/
structure Went (s : AccountStore) (i : ℕ) (as : List AccountAct) (c : AccountCall) : Prop where
  entered : (∀ r, c.stage ≠ .done r) → .enter i (some c.phone, c.code) ∈ as
  idle : c.stage.holds = false → c.inserted = false
  consumed : c.Past → Runs.Once (Consumed s i c.phone c.code) as
  published : ∀ token, c.stage.token = some token → ∀ a, c.account = some a →
    Runs.Once (Published s i token a.id) as

section stories

variable {s : AccountStore} {c : AccountCall} {i : ℕ} {as : List AccountAct}

/-- The counter alone accepts no code. -/
theorem accepted_counted (codes : Keyspace LoginKey) : (c.counted codes).accepted = false := by
  unfold AccountCall.counted
  split
  · rfl
  · split <;> rfl
  · split
    · rfl
    · split
      · rfl
      · split <;> rfl

/-- **A login gets past its code only by consuming the code of its phone.** -/
theorem past_move {d : Draw} (h : (c.move d s).2.Past) : c.Past ∨
    c.stage = .consuming ∧ ∃ code, c.code = some code ∧ s.codes.get (.code c.phone) = some code ∧
      (c.move d s).1.codes (.code c.phone) = none := by
  have hsession : ∀ {stage : AccountStage}, stage.accepted = false → (c.reach stage).Past → c.Past := by
    intro stage hstage hpast
    rcases hpast with haccepted | hsome
    · exact absurd (hstage.symm.trans haccepted) nofun
    · exact .inr hsome
  unfold AccountCall.move at h
  cases hstage : c.stage with
  | counting =>
    rw [hstage] at h
    left
    refine hsession ?_ h
    split
    · exact accepted_counted _
    · rfl
  | consuming =>
    rw [hstage] at h
    dsimp only at h
    split at h
    · exact .inl (hsession rfl h)
    · rename_i code hcode
      by_cases hanswer : d.fate = .answered ∧ (c.consumption code s).1 = .answer 1
      · right
        refine ⟨rfl, code, hcode, ?_⟩
        rcases consume_cases s.codes s.server.now c.phone code with ⟨hget, hrun⟩ | ⟨o, hne, hrun⟩
        · have hgone : (c.consumption code s).2 = s.codes.remove (.code c.phone) := congrArg Prod.snd hrun
          refine ⟨hget, ?_⟩
          unfold AccountCall.move
          simp only [hstage, hcode, hanswer.1, Fate.perform_answered, hgone]
          exact (Keyspace.remove_apply ..).trans (if_pos rfl)
        · exact absurd ((congrArg Prod.fst hrun).symm.trans hanswer.2) hne
      · left
        refine hsession ?_ h
        split
        · rename_i hfate
          cases ho : (c.consumption code s).1 with
          | answer n =>
            have hn : n ≠ 1 := fun hn => hanswer ⟨hfate, by rw [ho, hn]⟩
            unfold AccountCall.consumed
            dsimp only
            rw [if_neg hn]
            rfl
          | raised e => rfl
        · rfl
  | recording =>
    rw [hstage] at h
    left
    refine hsession ?_ h
    split
    · cases (c.failure s).1 <;> rfl
    · rfl
  | leaving e =>
    rw [hstage] at h
    rcases h with haccepted | hsome
    · cases haccepted
    · exact .inl (.inr hsome)
  | done r =>
    rw [hstage] at h
    exact .inl h
  | _ => exact .inl (.inl (by rw [hstage]; rfl))

/-- **A login has a token to answer only by publishing its session**: the step before found no session under the key
of the token, and leaves the hash of the account there. -/
theorem token_move {d : Draw} {token : String} (h : (c.move d s).2.stage.token = some token) :
    (c.stage.token = some token ∧ (c.move d s).2.account = c.account) ∨
      ∃ a nickName icon t, (c.move d s).2.account = some a ∧ s.server.redis (loginUserKey token) = none ∧
        (c.move d s).1.server.redis (loginUserKey token) =
          some ⟨.hash (SessionUser.hash ⟨decimal a.id, nickName, icon⟩), some t⟩ ∧
        (c.move d s).1.server.now < t := by
  have hnot : ∀ {stage : AccountStage}, stage.token = none → stage.token ≠ some token := by
    intro stage hnone hsome
    exact absurd (hnone.symm.trans hsome) nofun
  unfold AccountCall.move at h ⊢
  cases hstage : c.stage with
  | counting =>
    rw [hstage] at h
    exact absurd h (hnot (token_ite (token_counted _) rfl))
  | consuming =>
    rw [hstage] at h
    dsimp only at h
    split at h
    · cases h
    · exact absurd h (hnot (token_ite (token_consumed _) rfl))
  | recording =>
    rw [hstage] at h
    exact absurd h (hnot (token_ite (token_recorded _) rfl))
  | finding =>
    rw [hstage] at h
    dsimp only at h
    split at h
    · cases h
    · split at h
      · cases h
      · exact absurd h (hnot (token_judged _))
  | creating =>
    rw [hstage] at h
    dsimp only at h
    split at h
    · cases h
    · split at h
      · rw [hstage] at h
        cases h
      · split at h
        · cases h
        · exact absurd h (hnot (token_ite rfl rfl))
  | granting =>
    rw [hstage] at h
    refine absurd h (hnot (token_ite ?_ rfl))
    cases c.account with
    | none => rfl
    | some a => exact token_judged a
  | issuing =>
    rw [hstage] at h
    dsimp only at h ⊢
    split at h
    · cases h
    · rename_i a ha
      dsimp only at h
      split at h
      · rename_i hanswer
        obtain rfl := Option.some.inj h
        right
        rcases publish_cases (rfl : loginSessionPublish s.server.now s.server.redis (loginUserKey d.token) a.argv
          d.faults = _) with ⟨hne, -⟩ | ⟨-, hone, -⟩ | ⟨hnone, -, ttl, p, t, ht, hargv, hks⟩
        · exact absurd hanswer.2 hne
        · exact absurd (hone.symm.trans hanswer.2) (by decide)
        · obtain ⟨-, hid, hnick, hicon, -⟩ : issueTtl = ttl ∧ decimal a.id = p.id ∧ a.nickName.getD "" = p.nickName ∧
              a.icon.getD "" = p.icon ∧ True := by simpa [LoginAccount.argv] using hargv
          refine ⟨a, p.nickName, p.icon, s.server.now + t, ha, hnone, ?_, ?_⟩
          · rw [hanswer.1, Fate.perform_answered, hid]
            exact (congrFun hks _).trans (Keyspace.replace_self ..)
          · rw [hanswer.1, Fate.perform_answered]
            exact Nat.lt_add_of_pos_right ht
      · cases h
  | clearing other =>
    rw [hstage] at h
    left
    replace h : (if d.fate = .answered then AccountStage.committing other else .leaving none).token = some token := h
    split at h
    · exact ⟨h, rfl⟩
    · cases h
  | committing other =>
    rw [hstage] at h
    dsimp only at h ⊢
    left
    have hdone : ∀ {r : LoginResult}, (AccountStage.done r).token = some token →
        (r = if d.fate = .answered then .ok other else .thrown) → other = token := by
      rintro r hr rfl
      split at hr
      · exact Option.some.inj hr
      · cases hr
    split at h
    · rename_i a hinserted ha
      split at h
      · rename_i hhappens
        rw [if_pos hhappens]
        exact ⟨congrArg some (hdone h rfl), rfl⟩
      · cases h
    · exact ⟨congrArg some (hdone h rfl), rfl⟩
  | leaving e =>
    rw [hstage] at h
    cases e with
    | none => cases h
    | some e => cases h
  | done r =>
    rw [hstage] at h
    dsimp only at h
    rw [hstage] at h
    exact .inl ⟨h, rfl⟩

/-- A login that is done stays so. -/
theorem done_move {d : Draw} {r : LoginResult} (h : c.stage = .done r) : (c.move d s).2.stage = .done r := by
  unfold AccountCall.move
  rw [h]
  exact h

/-- A login leaves no row behind that it has inserted. -/
theorem idle_move (d : Draw) (h : InOrder s c) (hidle : c.stage.holds = false → c.inserted = false)
    (hafter : (c.move d s).2.stage.holds = false) : (c.move d s).2.inserted = false := by
  unfold AccountCall.move at hafter ⊢
  cases hstage : c.stage with
  | counting | consuming | recording | finding | done =>
    have hnot : c.inserted = false := hidle (by rw [hstage]; rfl)
    dsimp only
    repeat' split
    all_goals exact hnot
  | creating =>
    have hnot : c.inserted = false := hidle (by rw [hstage]; rfl)
    rw [hstage] at hafter
    dsimp only at hafter ⊢
    split
    · exact hnot
    · split
      · exact hnot
      · split
        · exact hnot
        · rename_i hfate hfree hnone
          rw [if_neg hfate, if_neg hfree, if_neg hnone] at hafter
          dsimp only at hafter
          split at hafter
          · cases hafter
          · cases hafter
  | granting =>
    have hholds : (c.account.elim (.leaving none) AccountCall.judged).holds = true := by
      cases c.account with
      | none => rfl
      | some a =>
        show (AccountCall.judged a).holds = true
        unfold AccountCall.judged
        split <;> rfl
    rw [hstage] at hafter
    replace hafter : (if d.fate = .answered then c.account.elim (.leaving none) AccountCall.judged
      else .leaving none).holds = false := hafter
    split at hafter
    · rw [hholds] at hafter
      cases hafter
    · cases hafter
  | issuing =>
    rw [hstage] at hafter
    dsimp only at hafter
    split at hafter
    · cases hafter
    · dsimp only at hafter
      split at hafter
      · cases hafter
      · cases hafter
  | clearing token =>
    rw [hstage] at hafter
    replace hafter : (if d.fate = .answered then AccountStage.committing token else .leaving none).holds = false :=
      hafter
    split at hafter
    · cases hafter
    · cases hafter
  | committing token =>
    obtain ⟨a, ha, -⟩ := h.issued token (by rw [hstage]; rfl)
    dsimp only
    rw [ha]
    cases hinserted : c.inserted with
    | false => exact hinserted
    | true =>
      dsimp only
      split
      · rfl
      · rfl
  | leaving e => rfl

/-- The past does not change. -/
theorem Went.later (h : Went s i as c) (act : AccountAct) : Went s i (as ++ [act]) c where
  entered hnot := List.mem_append_left _ (h.entered hnot)
  idle := h.idle
  consumed hpast := (h.consumed hpast).later [act]
  published token htoken a ha := (h.published token htoken a ha).later [act]

/-- The store after a step of a login. -/
theorem store_after_move (hc : (s.after as).calls i = some c) (d : Draw) :
    (s.after (as ++ [.move i d])).store = (c.move d (s.after as).store).1 := by
  rw [after_snoc, accounts.step_move hc]
  rfl

/-- **Step lemma**: what a step of a login adds to its past. -/
theorem Went.move (h : Went s i as c) (hc : (s.after as).calls i = some c) (hown : InOrder (s.after as).store c)
    (d : Draw) : Went s i (as ++ [.move i d]) (c.move d (s.after as).store).2 where
  entered hnot := by
    rw [AccountCall.phone_move, AccountCall.code_move]
    exact List.mem_append_left _ (h.entered fun r hr => hnot r (done_move hr))
  idle hafter := idle_move d hown h.idle hafter
  consumed hpast := by
    rw [AccountCall.phone_move, AccountCall.code_move]
    rcases past_move hpast with hbefore | ⟨hstage, code, hcode, hget, hgone⟩
    · exact (h.consumed hbefore).later _
    · refine Runs.once_now ⟨as, d, code, rfl, h.entered fun r hr => ?_, hcode, hget, ?_⟩
      · rw [hstage] at hr
        cases hr
      · rw [store_after_move hc]
        exact hgone
  published token htoken a ha := by
    rcases token_move htoken with ⟨hbefore, haccount⟩ | ⟨b, nickName, icon, t, hb, hnone, hsession, ht⟩
    · exact (h.published token hbefore a (haccount ▸ ha)).later _
    · obtain rfl := Option.some.inj (hb.symm.trans ha)
      refine Runs.once_now ⟨as, d, nickName, icon, t, rfl, hnone, ?_, ?_⟩
      · rw [store_after_move hc]
        exact hsession
      · rw [store_after_move hc]
        exact ht

/-- A login that has just started has no past. -/
theorem went_start (s : AccountStore) (i : ℕ) (as : List AccountAct) (phone code : Option String) :
    Went s i (as ++ [.enter i (phone, code)]) (startLogin phone code) := by
  cases phone with
  | none =>
    refine ⟨fun hnot => absurd rfl (hnot _), fun _ => rfl, fun hpast => ?_, fun token htoken => ?_⟩
    · rcases hpast with h | h
      · cases h
      · exact absurd rfl h
    · cases htoken
  | some phone =>
    refine ⟨fun _ => List.mem_append_right as List.mem_cons_self, fun _ => rfl, fun hpast => ?_, fun token htoken => ?_⟩
    · rcases hpast with h | h
      · unfold startLogin at h
        dsimp only at h
        split at h
        · cases h
        · cases h
      · exact absurd rfl h
    · exact absurd ((token_ite rfl rfl).symm.trans htoken) nofun

/-- **Every login of a run.** -/
theorem went_run (h : Lawful s) (as : List AccountAct) : ∀ i c, (s.after as).calls i = some c → Went s i as c := by
  induction as using List.reverseRecOn with
  | nil =>
    intro i c hc
    cases hc
  | append_singleton as act ih =>
    intro i c hc
    rw [after_snoc] at hc
    rcases accounts.step_cases (s.after as) act with hstep | ⟨j, r, hact, -, hstep⟩ |
      ⟨j, d, c', hmove, hc', hstep⟩ | ⟨e, -, hstep⟩
    · rw [hstep] at hc
      exact (ih i c hc).later act
    · rw [hstep] at hc
      rcases entry_of_update hc with ⟨rfl, rfl⟩ | ⟨-, hold⟩
      · rw [hact]
        exact went_start s i as r.1 r.2
      · exact (ih i c hold).later act
    · rw [hstep] at hc
      rcases entry_of_update hc with ⟨rfl, rfl⟩ | ⟨-, hold⟩
      · rw [hmove]
        exact (ih i c' hc').move hc' ((sound_after h as).asserts.calls i c' hc') d
      · exact (ih i c hold).later act
    · rw [hstep] at hc
      exact (ih i c hc).later act

end stories

/-- **What a login that answered a token has done.** It consumed the code of its phone, which was the code that it
was asked with; the account of the phone is committed with its role; and under the key of the token it published the
session of this very account, where there was none. -/
theorem login_truthful {s : AccountStore} (h : Lawful s) (as : List AccountAct) {i : ℕ} {c : AccountCall}
    {token : String} (hc : (s.after as).calls i = some c) (hdone : c.stage = .done (.ok token)) :
    Runs.Once (Consumed s i c.phone c.code) as ∧
      ∃ row, (s.after as).store.users.lookup c.phone = some row ∧ (row.id, "USER") ∈ (s.after as).store.roles ∧
        Runs.Once (Published s i token row.id) as := by
  have hsound := sound_after h as
  have hown := hsound.asserts.calls i c hc
  have htoken : c.stage.token = some token := by
    rw [hdone]
    rfl
  obtain ⟨a, ha, hsession⟩ := hown.issued token htoken
  have hwent := went_run h as i c hc
  refine ⟨hwent.consumed (.inr (by rw [hsession]; nofun)), ?_⟩
  obtain ⟨row, hrow, hid⟩ := hown.there (hwent.idle (by rw [hdone]; rfl)) a ha
  refine ⟨row, hrow, hsound.asserts.store.roles c.phone row hrow, ?_⟩
  rw [hid]
  exact hwent.published token htoken a ha

/-- The first login consumed the code of its phone, and the session that it published is of account `1`. -/
theorem firstLogin_truthful :
    Runs.Once (Consumed nobodyYet 0 "13812345678" (some "271828")) firstLogin ∧
      ∃ row, (nobodyYet.after firstLogin).store.users.lookup "13812345678" = some row ∧
        (row.id, "USER") ∈ (nobodyYet.after firstLogin).store.roles ∧
        Runs.Once (Published nobodyYet 0 "t" row.id) firstLogin :=
  login_truthful nobodyYet_lawful firstLogin (i := 0)
    (c := ⟨"13812345678", some "271828", some ⟨1, some "user_ann", some "", "ACTIVE"⟩, false, some ("t", 1),
      .done (.ok "t")⟩) (by decide +kernel) rfl

/-! ## Whom a session names -/

/-- The sessions of a state are sessions that its logins have published. -/
def Named (p : AccountPool) : Prop :=
  ∀ key text, p.store.server.redis.hget key "id" = some text → ∃ i c, p.calls i = some c ∧ c.Names key text

/-- Every step keeps it. -/
theorem Named.step {p : AccountPool} (h : Named p) (hsound : Sound p) (act : AccountAct) :
    Named (accounts.step p act) := by
  intro key text hkey
  rcases accounts.step_cases p act with hstep | ⟨j, r, -, hnone, hstep⟩ | ⟨j, d, u, -, hu, hstep⟩ | ⟨e, -, hstep⟩
  · rw [hstep] at hkey ⊢
    exact h key text hkey
  · rw [hstep] at hkey ⊢
    obtain ⟨i, c, hc, hnames⟩ := h key text hkey
    refine ⟨i, c, ?_, hnames⟩
    have hne : i ≠ j := by
      rintro rfl
      rw [hnone] at hc
      cases hc
    exact (Function.update_of_ne hne ..).trans hc
  · rw [hstep] at hkey ⊢
    rcases names_move d hkey with hbefore | hnow
    · obtain ⟨i, c, hc, token, id, hsession, hrest⟩ := h key text hbefore
      by_cases hij : i = j
      · subst hij
        obtain rfl := Option.some.inj (hu.symm.trans hc)
        refine ⟨i, _, Function.update_self .., token, id, ?_, hrest⟩
        exact session_kept d (hsound.asserts.calls i u hu) hsession
      · exact ⟨i, c, (Function.update_of_ne hij ..).trans hc, token, id, hsession, hrest⟩
    · exact ⟨j, _, Function.update_self .., hnow⟩
  · rw [hstep] at hkey ⊢
    exact h key text (names_event e hkey)

/-- After a run from a state whose sessions name nobody. -/
theorem named_after {s : AccountStore} (h : Lawful s) (hnone : ∀ key, s.server.redis.hget key "id" = none)
    (as : List AccountAct) : Named (s.after as) := by
  induction as using List.reverseRecOn with
  | nil =>
    intro key text hkey
    replace hkey : s.server.redis.hget key "id" = some text := hkey
    rw [hnone key] at hkey
    cases hkey
  | append_singleton as act ih =>
    rw [after_snoc]
    exact ih.step (sound_after h as) act

/-- **Whom a session names.** Every session that names somebody was published by a login that consumed the code of its
phone, and the id that it names is the id of that phone: no other phone has it, now or later, even if the login was
rolled back after it had published the session. -/
theorem session_truthful {s : AccountStore} (h : Lawful s) (hnone : ∀ key, s.server.redis.hget key "id" = none)
    (as bs : List AccountAct) {key text : String}
    (hkey : (s.after as).store.server.redis.hget key "id" = some text) :
    ∃ i c token id, (s.after as).calls i = some c ∧ c.session = some (token, id) ∧ key = loginUserKey token ∧
      text = decimal id ∧ Runs.Once (Consumed s i c.phone c.code) as ∧
        ∀ phone row, (s.after (as ++ bs)).store.users.lookup phone = some row → row.id = id → phone = c.phone := by
  obtain ⟨i, c, hc, token, id, hsession, htoken, htext⟩ := named_after h hnone as key text hkey
  refine ⟨i, c, token, id, hc, hsession, htoken, htext, ?_, fun phone row hrow hid => ?_⟩
  · exact (went_run h as i c hc).consumed (.inr (by rw [hsession]; nofun))
  · have howner := ((sound_after h as).asserts.calls i c hc).session token id hsession
    have hlater := (sound_after h (as ++ bs)).asserts.store.drawn phone row hrow
    rw [hid, (keeps_after h as bs).owners id c.phone howner] at hlater
    exact (Option.some.inj hlater).symm

/-- The answer of the publication is lost, and the login is rolled back. -/
def rolledBack : List AccountAct :=
  [.drift (.send "13812345678" "314159"), .enter 0 (some "13812345678", some "314159"), .move 0 ann, .move 0 ann,
    .move 0 ann, .move 0 ann, .move 0 ann, .move 0 { ann with fate := .lost }, .move 0 ann]

/-- What is drawn for another login when nothing fails. -/
def bob : Draw := ⟨.answered, noFaults, "bob", "u"⟩

/-- Another phone logs in for the first time. -/
def otherLogin : List AccountAct :=
  [.drift (.send "13912345678" "161803"), .enter 1 (some "13912345678", some "161803"), .move 1 bob, .move 1 bob,
    .move 1 bob, .move 1 bob, .move 1 bob, .move 1 bob, .move 1 bob, .move 1 bob]

/-- The session of the login that was rolled back names id `1`; the other login commits an account after it, with
another id. -/
theorem rolledBack_truthful :
    (nobodyYet.after (rolledBack ++ otherLogin)).store.users.lookup "13912345678" =
        some ⟨2, some "user_bob", some "", "ACTIVE"⟩ ∧
      ∃ i c token id, (nobodyYet.after rolledBack).calls i = some c ∧ c.session = some (token, id) ∧
        "login:token:t" = loginUserKey token ∧ "1" = decimal id ∧
          Runs.Once (Consumed nobodyYet i c.phone c.code) rolledBack ∧
            ∀ phone row, (nobodyYet.after (rolledBack ++ otherLogin)).store.users.lookup phone = some row →
              row.id = id → phone = c.phone :=
  ⟨by decide +kernel, session_truthful nobodyYet_lawful (fun _ => rfl) rolledBack otherLogin (by decide +kernel)⟩

end CampusHub.Identity
