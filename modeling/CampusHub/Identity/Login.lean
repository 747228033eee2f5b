import CampusHub.Domain
import CampusHub.Foundations.Lua
import CampusHub.Redis.Keyspace

/-!
# Logging in with a code

* `findFailureCount`, `loginCodeConsume`, `loginFailureIncrement` — the three calls on the two keys of a
  phone.
* `Request`, `Stage` — a request between two of its calls.
* `Login`, `LoginAct`, `step` — any number of requests, and the codes that are sent.
* `Login.compared` — the wrong codes that were compared while the counter of the phone is open.

A login asks Redis three times: it reads the counter of failures, it compares the code and takes it away
with a script, and after a failure it counts one with another script. Each call is one step, and other
requests may act between any two of them, so that a request can pass the limit on a counter that others are
about to raise.

`Login.compared` is no part of the source. It counts the wrong codes that the second script has compared
while the counter of a phone has been open, which is what the limit is there to bound; the steps write it
and none of them reads it.

**Left out.** The account and the session: here a request that is accepted ends with a token or with an
error, and what is behind that is in `Identity.Accounts`.
-/

namespace CampusHub.Identity

open CampusHub.Redis CampusHub.Domain CampusHub.Foundations.Guards CampusHub.Foundations.Decimal

/-- The keys of a phone. Source: `RedisConstants.java` 4 and 8. -/
inductive LoginKey where
  /-- `login:code:<phone>` -/
  | code (phone : String)
  /-- `login:failure:<phone>` -/
  | failure (phone : String)
  deriving DecidableEq

/-- `LOGIN_FAILURE_LIMIT`. Source: `RedisConstants.java` 10. -/
def failureLimit : ℤ := 5

/-- `PHONE_REGEX`; the fourth group also takes a comma. Source: `RegexPatterns.java` 9. -/
def isPhoneInvalid (phone : String) : Bool :=
  match phone.toList with
  | '1' :: a :: b :: rest =>
    !((((a = '3' ∨ a = '8') ∧ b.isDigit) ∨ (a = '4' ∧ b ∈ ['5', '7', '9']) ∨
      (a = '5' ∧ b ∈ ['0', '1', '2', '3', ',', '5', '6', '7', '8', '9']) ∨ (a = '6' ∧ b = '6') ∨
      (a = '7' ∧ b ∈ ['0', '1', '3', '5', '6', '7', '8']) ∨ (a = '9' ∧ b ∈ ['9', '8'])) ∧
      rest.length = 8 ∧ rest.all Char.isDigit)
  | _ => true

/-! ## The calls -/

section calls

variable (ks : Keyspace LoginKey) (phone : String)

/-- Source: `RedisLoginAttemptStore.java` 35–37. -/
def findFailureCount : Except Failure (Option String) := do
  ensure (Typed ks (.failure phone) .string) .wrongType
  .ok (ks.get (.failure phone))

/-- Source: `login-code-consume.lua`. -/
def loginCodeConsume (code : String) : Checked ℤ (List (Command LoginKey) × ℤ) := do
  ensure (Typed ks (.code phone) .string) (.raised .wrongType)
  ensure (ks.get (.code phone) = some code) (.answer 0)
  .ok ([.del (.code phone)], 1)

/-- Source: `login-failure-increment.lua`. -/
def loginFailureIncrement (ttl : String) : Checked ℤ (List (Command LoginKey) × ℤ) := do
  ensure (Typed ks (.failure phone) .string) (.raised .wrongType)
  let n ← getOr (string2ll ((ks.get (.failure phone)).getD "0")) (.raised .notInteger)
  .ok (.incrby (.failure phone) 1 ::
    if n + 1 = 1 then [.expireIn (.failure phone) ttl 1000] else [], n + 1)

end calls

/-! ## Requests -/

/-- What a request ends with. -/
inductive LoginResult where
  | ok (token : String)
  | refused (e : BusinessException)
  | thrown
  deriving DecidableEq

/-- Source: `UserServiceImpl.java` 77–79. -/
def loginRateLimited : BusinessException := ⟨.rateLimited, "登录失败次数过多，请稍后再试"⟩

/-- Where a request is. -/
inductive Stage where
  /-- Before `findFailureCount`. Source: `UserServiceImpl.java` 38. -/
  | started
  /-- Before `consumeCode`. Source: `UserServiceImpl.java` 46. -/
  | admitted
  /-- Before `incrementFailureCount`. Source: `UserServiceImpl.java` 67. -/
  | failing
  /-- Its code was the right one. Source: `UserServiceImpl.java` 53. -/
  | consumed
  /-- Before `clearFailureCount`. Source: `UserServiceImpl.java` 61. -/
  | issued (token : String)
  | done (result : LoginResult)
  deriving DecidableEq

/-- A login request. Source: `LoginFormDTO.java`. -/
structure Request where
  phone : String
  code : Option String
  stage : Stage
  deriving DecidableEq

/-- The requests, their keys, and the wrong codes compared while the counter of a phone is open. -/
structure Login where
  redis : Keyspace LoginKey
  now : ℕ
  requests : List Request
  compared : String → ℕ

/-- What happens; the number is that of a request. -/
inductive LoginAct where
  | login (phone : String) (code : Option String)
  | count (i : ℕ)
  | consume (i : ℕ)
  | record (i : ℕ)
  /-- The account of the phone has the status, and its session is issued unless that throws. -/
  | issue (i : ℕ) (status : String) (token : Option String)
  | clear (i : ℕ)
  /-- A code is sent to the phone. -/
  | send (phone code : String)
  /-- The clock moves on, and what has expired is gone. -/
  | tick (d : ℕ)

namespace Login

/-- A request comes to another stage. -/
def advance (s : Login) (i : ℕ) (r : Request) (stage : Stage) : Login :=
  { s with requests := s.requests.set i { r with stage := stage } }

/-- Where a request starts. Source: `UserServiceImpl.java` 34–37. -/
def startStage (phone : String) : Stage :=
  if isPhoneInvalid phone then .done (.refused ⟨.validationFailed, "手机号格式错误"⟩) else .started

/-- The stage after the failure count. Source: `UserServiceImpl.java` 38–45. -/
def countStage (s : Login) (r : Request) : Stage :=
  match findFailureCount s.redis r.phone with
  | .error _ => .done .thrown
  | .ok none => if r.code.isNone then .failing else .admitted
  | .ok (some text) =>
    match parseLong text with
    | none => .done .thrown
    | some n =>
      if failureLimit ≤ n then .done (.refused loginRateLimited)
      else if r.code.isNone then .failing
      else .admitted

/-- The stage after the code was compared. Source: `UserServiceImpl.java` 46–52. -/
def consumeStage : Outcome ℤ → Stage
  | .answer n => if n = 1 then .consumed else .failing
  | .raised _ => .done .thrown

/-- The end of a failed request. Source: `UserServiceImpl.java` 66–75. -/
def recordStage : Outcome ℤ → Stage
  | .answer failures =>
    .done (.refused (if failureLimit ≤ failures then loginRateLimited
      else ⟨.authenticationFailed, "验证码错误"⟩))
  | .raised _ => .done .thrown

/-- The stage after the account. Source: `UserServiceImpl.java` 53–60. -/
def issueStage (status : String) (token : Option String) : Stage :=
  if status ≠ "ACTIVE" then .done (.refused ⟨.authenticationFailed, "账号不可用"⟩)
  else
    match token with
    | some token => .issued token
    | none => .done .thrown

/-- A code that is not the one of the phone, though there is one. -/
def wrong (s : Login) (phone code : String) : Bool :=
  match s.redis.get (.code phone) with
  | some stored => stored ≠ code
  | none => false

/-- The next state, but for the counters that close. A call whose request is elsewhere changes
nothing. -/
def move (s : Login) : LoginAct → Login
  | .login phone code =>
    { s with requests := s.requests ++ [⟨phone, code, startStage phone⟩] }
  | .count i =>
    match s.requests[i]? with
    | some r => if r.stage = .started then s.advance i r (s.countStage r) else s
    | none => s
  | .consume i =>
    match s.requests[i]? with
    | some r =>
      match r.stage, r.code with
      | .admitted, some code =>
        let o := Plan.run s.now (loginCodeConsume s.redis r.phone code) s.redis
        { s with
          redis := o.2
          compared := if s.wrong r.phone code then
            Function.update s.compared r.phone (s.compared r.phone + 1) else s.compared
          }.advance i r (consumeStage o.1)
      | _, _ => s
    | none => s
  | .record i =>
    match s.requests[i]? with
    | some r =>
      if r.stage = .failing then
        let o := Plan.run s.now (loginFailureIncrement s.redis r.phone "600") s.redis
        { s with redis := o.2 }.advance i r (recordStage o.1)
      else s
    | none => s
  | .issue i status token =>
    match s.requests[i]? with
    | some r => if r.stage = .consumed then s.advance i r (issueStage status token) else s
    | none => s
  | .clear i =>
    match s.requests[i]? with
    | some r =>
      match r.stage with
      | .issued token =>
        { s with redis := s.redis.remove (.failure r.phone) }.advance i r (.done (.ok token))
      | _ => s
    | none => s
  | .send phone code =>
    -- `SET code PX 2 min`
    { s with redis := (s.redis.store (.code phone) (.str code)).expire (.code phone) (s.now + 120000) }
  | .tick d => { s with redis := s.redis.purge (s.now + d), now := s.now + d }

/-- The counter of a phone closes with its key. -/
def close (s s' : Login) : Login :=
  { s' with compared := fun p =>
      if (s.redis (.failure p)).isSome ∧ (s'.redis (.failure p)).isNone then 0 else s'.compared p }

/-- The next state. -/
def step (s : Login) (a : LoginAct) : Login := s.close (s.move a)

/-- Before the first request. -/
def initial (now : ℕ) : Login := ⟨fun _ => none, now, [], fun _ => 0⟩

end Login

end CampusHub.Identity
