import CampusHub.Domain
import CampusHub.Foundations.Pools
import CampusHub.Identity.Sessions

/-!
# Requests and what they may do

A request is authenticated by the session of its token and by the account in the database, is let through
by the guard of its handler, and does its work. Every call of a store is a step, and between the steps
sessions come and go and accounts, roles and memberships change.

* `AccountRole`, `Principal` — who a request is.
* `Guard`, `Guard.evaluate` — the `@PreAuthorize` expressions, up to their next query.
* `Operation` — what a request asks for, and how often its guard is evaluated.
* `AccessStore`, `WebCall`, `web` — the stores, a request between two of its calls, and the system.

The filter reads the session of the token, loads the account with its status and its roles, and renews the
session with a script that compares the id again; only then is the request authenticated. The guard of the
handler is evaluated up to its next query, because the merchant of a shop and a membership are read while
others change them, and some handlers evaluate it twice.

The two requests that write a shop and the logout are translated with their work; `handle` stands for any
other handler behind its guard, and for any number of evaluations of it.

**Left out.** What those other handlers do, and the routing of requests to handlers.
-/

namespace CampusHub.Access

open CampusHub.Domain CampusHub.Redis CampusHub.Identity CampusHub.Foundations
open CampusHub.Foundations.Maps CampusHub.Foundations.Pools

/-! ## Roles and guards -/

/-- Source: `AccountRole.java` 5–8. -/
inductive AccountRole where
  | user | merchant | admin
  deriving DecidableEq

/-- Source: `AccountRole.java` 14–23. -/
def fromDatabaseValue (value : String) : Option AccountRole :=
  if value = "USER" then some .user
  else if value = "MERCHANT" then some .merchant
  else if value = "ADMIN" then some .admin
  else none

/-- Who a request is, with the authorities of that account. -/
structure Principal where
  id : ℤ
  authorities : List AccountRole
  deriving DecidableEq

/-- The expressions of `@PreAuthorize`. -/
inductive Guard where
  /-- The filter chain lets in whoever is authenticated. -/
  | authenticated
  /-- `hasAnyRole('USER', 'MERCHANT', 'ADMIN')` -/
  | anyRole
  /-- `hasRole('ADMIN')` -/
  | admin
  /-- `canParticipateAsUser()` -/
  | participate
  /-- `canCreateShop(merchantId)` -/
  | createShop (merchantId : Option ℤ)
  /-- `canManageShop(shopId)`, `canManagePromotion(shopId)` -/
  | manageShop (shopId : Option ℤ)
  deriving DecidableEq

/-- The guard is decided, or it needs the merchant of the shop or a membership. -/
inductive Verdict where
  | allow | deny
  | shop (shopId : ℤ)
  | member (merchantId : ℤ)
  deriving DecidableEq

/-- The guard up to its first query. Source: `ResourceAuthorizationService.java` 18–45. -/
def Guard.evaluate (who : Principal) : Guard → Verdict
  | .authenticated => .allow
  | .anyRole => if who.authorities ≠ [] then .allow else .deny
  | .admin => if .admin ∈ who.authorities then .allow else .deny
  | .participate =>
    if .admin ∉ who.authorities ∧ (.user ∈ who.authorities ∨ .merchant ∈ who.authorities) then .allow
    else .deny
  | .createShop merchantId =>
    if .admin ∈ who.authorities then .allow
    else
      match merchantId with
      | some merchantId => if .merchant ∈ who.authorities then .member merchantId else .deny
      | none => .deny
  | .manageShop shopId =>
    if .admin ∈ who.authorities then .allow
    else
      match shopId with
      | some shopId => if .merchant ∈ who.authorities then .shop shopId else .deny
      | none => .deny

/-! ## Requests -/

/-- The columns of a shop that a request sets, those that are not null. -/
abbrev Columns := List (String × String)

/-- What a request asks for. -/
inductive Operation where
  /-- Source: `LogoutController.java`. -/
  | logout
  /-- Source: `ShopServiceImpl.java` 54–58; `id` is the next of `AUTO_INCREMENT`. -/
  | createShop (id : ℤ) (merchantId : Option ℤ) (columns : Columns)
  /-- Source: `ShopServiceImpl.java` 63–77. -/
  | updateShop (id : ℤ) (columns : Columns)
  /-- Any other handler behind its guard. -/
  | handle (guard : Guard) (rounds : ℕ)
  deriving DecidableEq

/-- The guard of the handler. Source: `ShopController.java` 49, 60, `SecurityConfig.java` 62. -/
def Operation.guard : Operation → Guard
  | .logout => .authenticated
  | .createShop _ merchantId _ => .createShop merchantId
  | .updateShop id _ => .manageShop (some id)
  | .handle guard _ => guard

/-- How often the guard is evaluated after the first time: a controller and its service have one each.
Source: `ShopController.java` 49, 60, `ShopServiceImpl.java` 53, 62. -/
def Operation.rounds : Operation → ℕ
  | .logout => 0
  | .createShop _ _ _ | .updateShop _ _ => 1
  | .handle _ rounds => rounds

/-- What a request ends with. -/
inductive WebResult where
  | returned
  | refused (e : BusinessException)
  | raised
  deriving DecidableEq

/-- Where a request is. -/
inductive WebStage where
  /-- Before the hash is read. Source: `RedisTokenAuthenticationFilter.java` 73. -/
  | loading
  /-- Before `findAccountStatus`. Source: `RedisTokenAuthenticationFilter.java` 78. -/
  | loaded (userId : ℤ) (observed : String)
  /-- Before `findRoles`. Source: `RedisTokenAuthenticationFilter.java` 82. -/
  | active (userId : ℤ) (observed : String)
  /-- Before the script. Source: `RedisTokenAuthenticationFilter.java` 93. -/
  | granted (userId : ℤ) (observed : String) (authorities : List AccountRole)
  /-- Before the session is deleted. Source: `RedisTokenAuthenticationFilter.java` 79, 90. -/
  | rejecting
  /-- Before the guard. -/
  | guarding (who : Principal) (rounds : ℕ)
  /-- Before `findMerchantIdByShopId`. Source: `ResourceAuthorizationService.java` 33. -/
  | owning (who : Principal) (rounds : ℕ) (shopId : ℤ)
  /-- Before `countActiveMerchantMembership`. Source: `ResourceAuthorizationService.java` 50. -/
  | membership (who : Principal) (rounds : ℕ) (merchantId : ℤ)
  /-- The guard let the request through. -/
  | executing (who : Principal)
  /-- Before `updateById`, with the merchant of the row. Source: `ShopServiceImpl.java` 74. -/
  | writing (who : Principal) (merchantId : Option ℤ)
  | done (who : Option Principal) (r : WebResult)
  deriving DecidableEq

/-- A row of `tb_shop`. -/
structure ShopRow where
  merchantId : Option ℤ
  columns : FiniteMap String String

/-- The tables: the status and the roles of an account, the memberships by merchant and account, and the
shops. Source: `AccountAccessMapper.java`. -/
structure AccessTables where
  status : ℤ → Option String
  roles : ℤ → List String
  members : ℤ → ℤ → Option String
  shops : ℤ → Option ShopRow

/-- Redis with its clock, and the tables. -/
structure AccessStore where
  server : Server String
  tables : AccessTables

/-- Java `String.trim`. -/
def trim (s : String) : String :=
  String.ofList ((s.toList.dropWhile (· ≤ ' ')).reverse.dropWhile (· ≤ ' ')).reverse

/-- `LOGIN_USER_KEY + token.trim()` -/
def tokenKey (token : String) : String := "login:token:" ++ trim token

/-- A request with its `authorization` header. -/
structure WebCall where
  token : String
  op : Operation
  stage : WebStage
  deriving DecidableEq

def pleaseLogIn : BusinessException := ⟨.authenticationFailed, "请先登录"⟩

def notAllowed : BusinessException := ⟨.authorizationFailed, "无权执行该操作"⟩

def tokenMissing : BusinessException := ⟨.authenticationFailed, "认证信息缺失"⟩

def shopNotFound : BusinessException := ⟨.notFound, "门店不存在"⟩

/-- A request that nobody was authenticated for. Source: `SecurityConfig.java` 54–55, 62. -/
def anonymous : WebStage := .done none (.refused pleaseLogIn)

namespace WebCall

variable (c : WebCall)

/-- The request at another place. -/
def reach (stage : WebStage) : WebCall := { c with stage := stage }

/-- The request raises. -/
def raise (who : Option Principal) : WebCall := c.reach (.done who .raised)

/-- The guard has let the request through once more. -/
def allowed (who : Principal) : ℕ → WebCall
  | 0 => c.reach (.executing who)
  | rounds + 1 => c.reach (.guarding who rounds)

/-- The guard has refused the request. Source: `GlobalExceptionHandler.java` 34–38. -/
def denied (who : Principal) : WebCall := c.reach (.done (some who) (.refused notAllowed))

/-- What follows the guard up to its first query. -/
def judge (who : Principal) (rounds : ℕ) : Verdict → WebCall
  | .allow => c.allowed who rounds
  | .deny => c.denied who
  | .shop shopId => c.reach (.owning who rounds shopId)
  | .member merchantId => c.reach (.membership who rounds merchantId)

end WebCall

/-- What the filter uses of Hutool: `StrUtil.isBlank`, and what `BeanUtil.fillBeanWithMap` makes of an id,
which it cannot convert, leaves null, or reads. -/
structure Hutool where
  isBlank : String → Bool
  readId : String → Option (Option ℤ)

/-- Where a request starts. Source: `RedisTokenAuthenticationFilter.java` 68–72. -/
def startRequest (lib : Hutool) (token : Option String) (op : Operation) : WebCall :=
  match token with
  | none => ⟨"", op, anonymous⟩
  | some token => ⟨token, op, if lib.isBlank token then anonymous else .loading⟩

/-- `MINUTES.toMillis(LOGIN_USER_TTL)` -/
def sessionTtl : String := "2160000000"

/-- What the filter makes of the hash. Source: `RedisTokenAuthenticationFilter.java` 74–79. -/
def loadedStage (lib : Hutool) (userMap : FiniteMap String String) : WebStage :=
  if userMap.keys = ∅ then anonymous
  else
    match userMap.lookup "id" with
    | none => .rejecting
    | some observed =>
      match lib.readId observed with
      | none => .done none .raised
      | some none => .rejecting
      | some (some userId) => .loaded userId observed

/-- A row written by `updateById`: the columns that are not null.
Source: `ShopServiceImpl.java` 73–74. -/
def updateRow (merchantId : Option ℤ) (columns : Columns) (row : ShopRow) : ShopRow :=
  ⟨merchantId.or row.merchantId, writeFields row.columns columns⟩

/-- The store with a row of `tb_shop`. -/
def AccessStore.putShop (id : ℤ) (row : ShopRow) (s : AccessStore) : AccessStore :=
  { s with tables := { s.tables with shops := Function.update s.tables.shops id (some row) } }

/-- The store after Redis did something. -/
def AccessStore.serve (a : SessionAct String) (s : AccessStore) : AccessStore :=
  { s with server := Identity.step s.server a }

/-- The call of `session-authenticate.lua`. -/
def renewal (token observed : String) (faults : Faults) : SessionAct String :=
  .authenticate (tokenKey token) [observed, sessionTtl] faults

/-- The answer of the script. -/
def AccessStore.renewed (token observed : String) (faults : Faults) (s : AccessStore) : Outcome ℤ :=
  (sessionAuthenticate s.server.now s.server.redis (tokenKey token) [observed, sessionTtl] faults).1

/-- What a request does after its guard. -/
def WebCall.execute (fate : Fate) (who : Principal) (s : AccessStore) (c : WebCall) :
    AccessStore × WebCall :=
  match c.op with
  | .logout =>
    -- Source: `SessionLogoutService.java` 11–16, `RedisSessionTerminator.java` 17–21
    if trim c.token = "" then (s, c.reach (.done (some who) (.refused tokenMissing)))
    else (fate.perform (.serve (.delete (tokenKey c.token))) s,
      if fate = .answered then c.reach (.done (some who) .returned) else c.raise (some who))
  | .createShop id merchantId columns =>
    if (s.tables.shops id).isSome then (s, c.raise (some who))
    else
      (fate.perform (.putShop id ⟨merchantId, writeFields ∅ columns⟩) s,
        if fate = .answered then c.reach (.done (some who) .returned) else c.raise (some who))
  | .updateShop id _ =>
    (s,
      if fate ≠ .answered then c.raise (some who)
      else
        match s.tables.shops id with
        | none => c.reach (.done (some who) (.refused shopNotFound))
        | some row => c.reach (.writing who row.merchantId))
  | .handle _ _ => (s, c.reach (.done (some who) .returned))

/-- The next step of a request. -/
def WebCall.move (lib : Hutool) (d : Fate × Faults) (s : AccessStore) (c : WebCall) : AccessStore × WebCall :=
  match c.stage with
  | .loading =>
    (s, if d.1 = .answered then c.reach (loadedStage lib (s.server.redis.fields (tokenKey c.token)))
      else c.raise none)
  | .loaded userId observed =>
    (s,
      if d.1 ≠ .answered then c.raise none
      else if s.tables.status userId = some "ACTIVE" then c.reach (.active userId observed)
      else c.reach .rejecting)
  | .active userId observed =>
    let authorities := (s.tables.roles userId).filterMap fromDatabaseValue
    (s,
      if d.1 ≠ .answered then c.raise none
      else if authorities = [] then c.reach .rejecting
      else c.reach (.granted userId observed authorities))
  | .rejecting =>
    (d.1.perform (.serve (.delete (tokenKey c.token))) s,
      if d.1 = .answered then c.reach anonymous else c.raise none)
  | .granted userId observed authorities =>
    (d.1.perform (.serve (renewal c.token observed d.2)) s,
      if d.1 ≠ .answered then c.raise none
      else
        match s.renewed c.token observed d.2 with
        | .raised _ => c.raise none
        | .answer 1 => c.reach (.guarding ⟨userId, authorities⟩ c.op.rounds)
        | .answer _ => c.reach anonymous)
  | .guarding who rounds => (s, c.judge who rounds (c.op.guard.evaluate who))
  | .owning who rounds shopId =>
    (s,
      if d.1 ≠ .answered then c.raise (some who)
      else
        match (s.tables.shops shopId).bind ShopRow.merchantId with
        | none => c.denied who
        | some merchantId => c.reach (.membership who rounds merchantId))
  | .membership who rounds merchantId =>
    (s,
      if d.1 ≠ .answered then c.raise (some who)
      else if s.tables.members merchantId who.id = some "ACTIVE" then c.allowed who rounds
      else c.denied who)
  | .executing who => c.execute d.1 who s
  | .writing who merchantId =>
    match c.op with
    | .updateShop id columns =>
      match s.tables.shops id with
      | none => (s, c.reach (.done (some who) (.refused { errorCode := .conflict })))
      | some row =>
        (d.1.perform (.putShop id (updateRow merchantId columns row)) s,
          if d.1 = .answered then c.reach (.done (some who) .returned) else c.raise (some who))
    | _ => (s, c)
  | .done _ _ => (s, c)

/-- What the surroundings do: Redis serves others and its clock moves on, and accounts change. -/
inductive AccessEvent where
  | serve (a : SessionAct String)
  | setStatus (userId : ℤ) (status : Option String)
  | setRoles (userId : ℤ) (roles : List String)
  | setMember (merchantId userId : ℤ) (status : Option String)

/-- What the surroundings do to the stores. -/
def AccessEvent.apply (s : AccessStore) : AccessEvent → AccessStore
  | .serve a => s.serve a
  | .setStatus userId status =>
    { s with tables := { s.tables with status := Function.update s.tables.status userId status } }
  | .setRoles userId roles =>
    { s with tables := { s.tables with roles := Function.update s.tables.roles userId roles } }
  | .setMember merchantId userId status =>
    { s with tables := { s.tables with
        members := Function.update s.tables.members merchantId
          (Function.update (s.tables.members merchantId) userId status) } }

/-- The requests over the stores. -/
def web (lib : Hutool) :
    System AccessStore (Option String × Operation) WebCall (Fate × Faults) AccessEvent where
  enter _ r := startRequest lib r.1 r.2
  move d s c := c.move lib d s
  drift e s := e.apply s

/-- The state of the requests and the stores. -/
abbrev WebPool := Pool AccessStore WebCall

/-- The steps. -/
abbrev WebAct := PoolAct (Option String × Operation) (Fate × Faults) AccessEvent

end CampusHub.Access
