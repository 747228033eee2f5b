import CampusHub.Access.Requests

/-!
# Who is authenticated, and until when

* `WebCall.Origin`, `origin_move` — where a request was before its last step, and what that step found.
* `WebStage.principal` — who a request was authenticated as.
* `authenticated_truthful` — a request is authenticated only by a session of that account, an account that
  was active during the request, with the roles that it had during the request.
* `ended_session_stays_dead` — once a session was deleted, by a logout or by the filter, no request is
  authenticated by it again.

Both theorems are about any number of requests, with sessions that are published, renewed and deleted by
others and accounts that change at any time. The first says what a request may rely on, the second what a
logout is worth.

**Proof route.** `Origin` is the inversion of the step function: for each place the one step that leads
there, and what it has found (`origin_move`). `Story` strings such steps together along a run, each with the
moment at which it was so, and `story_run` is the induction. For a session that ended, `Dead` says that its
key is absent and that whoever is authenticated by its token already was; a request may still be between its
read and the script, and the script answers `0` on an absent key (`not_renewed`).

**Left out.** A token that is guessed, or taken from its user: whoever has it is its user here.
-/

namespace CampusHub.Access

open CampusHub.Domain CampusHub.Redis CampusHub.Identity CampusHub.Foundations
open CampusHub.Foundations.Maps CampusHub.Foundations.Pools

/-- Who the request was authenticated as. -/
def WebStage.principal : WebStage → Option Principal
  | .guarding who _ | .owning who _ _ | .membership who _ _ | .executing who | .writing who _ => some who
  | .done who _ => who
  | _ => none

/-- The account is an active member of the merchant. -/
def AccessStore.ActiveMember (s : AccessStore) (who : Principal) (merchantId : ℤ) : Prop :=
  s.tables.members merchantId who.id = some "ACTIVE"

/-- **What a step found** when it brought a request to a place, and where the request was. -/
def WebCall.Origin (lib : Hutool) (d : Fate × Faults) (s : AccessStore) (c : WebCall) :
    WebStage → Prop
  | .loading => False
  | .loaded userId observed => c.stage = .loading ∧
      s.server.redis.hget (tokenKey c.token) "id" = some observed ∧ lib.readId observed = some (some userId)
  | .active userId observed => c.stage = .loaded userId observed ∧ s.tables.status userId = some "ACTIVE"
  | .granted userId observed authorities => c.stage = .active userId observed ∧ authorities ≠ [] ∧
      (s.tables.roles userId).filterMap fromDatabaseValue = authorities
  | .rejecting => True
  | .guarding who rounds =>
      (∃ observed, c.stage = .granted who.id observed who.authorities ∧
        s.renewed c.token observed d.2 = .answer 1) ∨
      (c.stage = .guarding who (rounds + 1) ∧ c.op.guard.evaluate who = .allow) ∨
      ∃ merchantId, c.stage = .membership who (rounds + 1) merchantId ∧ s.ActiveMember who merchantId
  | .owning who rounds shopId => c.stage = .guarding who rounds ∧ c.op.guard.evaluate who = .shop shopId
  | .membership who rounds merchantId =>
      (c.stage = .guarding who rounds ∧ c.op.guard.evaluate who = .member merchantId) ∨
      ∃ shopId row, c.stage = .owning who rounds shopId ∧ s.tables.shops shopId = some row ∧
        row.merchantId = some merchantId
  | .executing who =>
      (c.stage = .guarding who 0 ∧ c.op.guard.evaluate who = .allow) ∨
      ∃ merchantId, c.stage = .membership who 0 merchantId ∧ s.ActiveMember who merchantId
  | .writing who merchantId => (c.stage = .executing who ∧ ∃ id columns row, c.op = .updateShop id columns ∧
        s.tables.shops id = some row ∧ row.merchantId = merchantId) ∨
      (c.stage = .writing who merchantId ∧ ∀ id columns, c.op ≠ .updateShop id columns)
  | .done who r => (∀ w, who = some w → c.stage.principal = some w) ∧
      (r = .returned → c.stage = .done who r ∨ ∃ w, who = some w ∧
        (c.stage = .executing w ∨ ∃ merchantId, c.stage = .writing w merchantId))

section moves

variable {lib : Hutool} {d : Fate × Faults} {s : AccessStore} {c : WebCall}

/-- A request keeps what it asks for. -/
@[simp] theorem op_move : (c.move lib d s).2.op = c.op := by
  unfold WebCall.move WebCall.execute WebCall.judge WebCall.allowed
  repeat' first | split | dsimp only
  all_goals rfl

/-- A request keeps its token. -/
@[simp] theorem token_move : (c.move lib d s).2.token = c.token := by
  unfold WebCall.move WebCall.execute WebCall.judge WebCall.allowed
  repeat' first | split | dsimp only
  all_goals rfl

/-- A request can raise at any place. -/
theorem origin_raise {who : Option Principal} (h : ∀ w, who = some w → c.stage.principal = some w) :
    c.Origin lib d s (c.raise who).stage :=
  ⟨h, fun hr => by cases hr⟩

/-- A request can be refused at any place. -/
theorem origin_refused {who : Option Principal} {e : BusinessException}
    (h : ∀ w, who = some w → c.stage.principal = some w) : c.Origin lib d s (.done who (.refused e)) :=
  ⟨h, fun hr => by cases hr⟩

/-- The guard was evaluated. -/
theorem origin_judge {who : Principal} {rounds : ℕ} (h : c.stage = .guarding who rounds) :
    c.Origin lib d s (c.judge who rounds (c.op.guard.evaluate who)).stage := by
  have hprincipal : ∀ w, some who = some w → c.stage.principal = some w := fun w hw => by rw [h, ← hw]; rfl
  cases hverdict : c.op.guard.evaluate who with
  | allow =>
    cases rounds with
    | zero => exact .inl ⟨h, hverdict⟩
    | succ rounds => exact .inr (.inl ⟨h, hverdict⟩)
  | deny => exact origin_refused hprincipal
  | shop shopId => exact ⟨h, hverdict⟩
  | member merchantId => exact .inl ⟨h, hverdict⟩

/-- The hash was read. -/
theorem origin_loaded (h : c.stage = .loading) :
    c.Origin lib d s (loadedStage lib (s.server.redis.fields (tokenKey c.token))) := by
  unfold loadedStage
  split
  · exact origin_refused fun _ hw => by cases hw
  · cases hid : (s.server.redis.fields (tokenKey c.token)).lookup "id" with
    | none => trivial
    | some observed =>
      dsimp only
      cases hread : lib.readId observed with
      | none => exact ⟨fun _ hw => (by cases hw), fun hr => by cases hr⟩
      | some userId =>
        cases userId with
        | none => trivial
        | some userId => exact ⟨h, hid, hread⟩

/-- The work of a request. -/
theorem origin_execute {who : Principal} (h : c.stage = .executing who) :
    c.Origin lib d s (c.execute d.1 who s).2.stage := by
  have hprincipal : ∀ w, some who = some w → c.stage.principal = some w := fun w hw => by rw [h, ← hw]; rfl
  have hreturned : c.Origin lib d s (.done (some who) .returned) :=
    ⟨hprincipal, fun _ => .inr ⟨who, rfl, .inl h⟩⟩
  unfold WebCall.execute
  cases hop : c.op with
  | logout =>
    dsimp only
    split
    · exact origin_refused hprincipal
    · dsimp only
      split
      · exact hreturned
      · exact origin_raise hprincipal
  | createShop id merchantId columns =>
    dsimp only
    split
    · exact origin_raise hprincipal
    · dsimp only
      split
      · exact hreturned
      · exact origin_raise hprincipal
  | updateShop id columns =>
    dsimp only
    split
    · exact origin_raise hprincipal
    · cases hrow : s.tables.shops id with
      | none => exact origin_refused hprincipal
      | some row => exact .inl ⟨h, id, columns, row, hop, hrow, rfl⟩
  | handle guard rounds => exact hreturned

/-- **Every step has its origin.** -/
theorem origin_move (lib : Hutool) (d : Fate × Faults) (s : AccessStore) (c : WebCall) :
    c.Origin lib d s (c.move lib d s).2.stage := by
  have hnobody : ∀ w : Principal, none = some w → c.stage.principal = some w := fun _ hw => by cases hw
  unfold WebCall.move
  cases hstage : c.stage with
  | loading =>
    dsimp only
    split
    · exact origin_loaded hstage
    · exact origin_raise hnobody
  | loaded userId observed =>
    dsimp only
    split
    · exact origin_raise hnobody
    · split
      · exact ⟨hstage, ‹_›⟩
      · trivial
  | active userId observed =>
    dsimp only
    split
    · exact origin_raise hnobody
    · split
      · trivial
      · exact ⟨hstage, ‹_›, rfl⟩
  | granted userId observed authorities =>
    dsimp only
    split
    · exact origin_raise hnobody
    · split
      · exact origin_raise hnobody
      · exact .inl ⟨observed, hstage, ‹_›⟩
      · exact origin_refused hnobody
  | rejecting =>
    dsimp only
    split
    · exact origin_refused hnobody
    · exact origin_raise hnobody
  | guarding who rounds => exact origin_judge hstage
  | owning who rounds shopId =>
    have hprincipal : ∀ w, some who = some w → c.stage.principal = some w := fun w hw => by
      rw [hstage, ← hw]
      rfl
    dsimp only
    split
    · exact origin_raise hprincipal
    · cases hmerchant : (s.tables.shops shopId).bind ShopRow.merchantId with
      | none => exact origin_refused hprincipal
      | some merchantId =>
        obtain ⟨row, hrow, hm⟩ := Option.bind_eq_some_iff.mp hmerchant
        exact .inr ⟨shopId, row, hstage, hrow, hm⟩
  | membership who rounds merchantId =>
    have hprincipal : ∀ w, some who = some w → c.stage.principal = some w := fun w hw => by
      rw [hstage, ← hw]
      rfl
    dsimp only
    split
    · exact origin_raise hprincipal
    · split
      · rename_i hmember
        cases rounds with
        | zero => exact .inr ⟨merchantId, hstage, hmember⟩
        | succ rounds => exact .inr (.inr ⟨merchantId, hstage, hmember⟩)
      · exact origin_refused hprincipal
  | executing who => exact origin_execute hstage
  | writing who merchantId =>
    have hprincipal : ∀ w, some who = some w → c.stage.principal = some w := fun w hw => by
      rw [hstage, ← hw]
      rfl
    dsimp only
    cases hop : c.op with
    | updateShop id columns =>
      dsimp only
      split
      · exact origin_refused hprincipal
      · dsimp only
        split
        · exact ⟨hprincipal, fun _ => .inr ⟨who, rfl, .inr ⟨merchantId, hstage⟩⟩⟩
        · exact origin_raise hprincipal
    | _ =>
      dsimp only
      rw [hstage]
      exact .inr ⟨hstage, fun _ _ heq => by rw [hop] at heq; cases heq⟩
  | done who r =>
    dsimp only
    rw [hstage]
    exact ⟨fun w hw => by rw [hstage, hw]; rfl, fun hr => .inl (by rw [hstage])⟩

end moves

/-! ## What a request went through -/

/-- The stores and the requests after the steps. -/
def reached (lib : Hutool) (s : AccessStore) (as : List WebAct) : WebPool :=
  Runs.run (web lib).step (Pool.idle s) as

/-- A run with one step more takes that step last. -/
theorem reached_snoc (lib : Hutool) (s : AccessStore) (as : List WebAct) (act : WebAct) :
    reached lib s (as ++ [act]) = (web lib).step (reached lib s as) act := Runs.run_append ..

section stories

variable (lib : Hutool) (s : AccessStore) (i : ℕ) (token : String) (op : Operation)

/-- The request has started, and the session of its token names the account. -/
def Found (userId : ℤ) (observed : String) (as : List WebAct) : Prop :=
  .enter i (some token, op) ∈ as ∧
    (reached lib s as).store.server.redis.hget (tokenKey token) "id" = some observed ∧
    lib.readId observed = some (some userId)

/-- After that, the account is active. -/
def Active (userId : ℤ) (observed : String) (as : List WebAct) : Prop :=
  Runs.Once (Found lib s i token op userId observed) as ∧
    (reached lib s as).store.tables.status userId = some "ACTIVE"

/-- After that, the account has these roles. -/
def Granted (userId : ℤ) (observed : String) (authorities : List AccountRole) (as : List WebAct) : Prop :=
  Runs.Once (Active lib s i token op userId observed) as ∧ authorities ≠ [] ∧
    ((reached lib s as).store.tables.roles userId).filterMap fromDatabaseValue = authorities

/-- After that, the session still names the account and has not expired. -/
def Admitted (who : Principal) (as : List WebAct) : Prop :=
  ∃ observed, Runs.Once (Granted lib s i token op who.id observed who.authorities) as ∧
    (reached lib s as).store.server.redis.hget (tokenKey token) "id" = some observed ∧
    0 < pttl (reached lib s as).store.server.now (reached lib s as).store.server.redis (tokenKey token)

/-- What a request at a stage went through. -/
def Story (as : List WebAct) : WebStage → Prop
  | .loading => .enter i (some token, op) ∈ as
  | .loaded userId observed => Runs.Once (Found lib s i token op userId observed) as
  | .active userId observed => Runs.Once (Active lib s i token op userId observed) as
  | .granted userId observed authorities =>
    Runs.Once (Granted lib s i token op userId observed authorities) as
  | stage => ∀ who, stage.principal = some who → Runs.Once (Admitted lib s i token op who) as

end stories

section stories

variable {lib : Hutool} {s : AccessStore} {i : ℕ} {token : String} {op : Operation} {as : List WebAct}

/-- A request that is authenticated was admitted. -/
theorem Story.admitted {stage : WebStage} {who : Principal} (h : Story lib s i token op as stage)
    (hwho : stage.principal = some who) : Runs.Once (Admitted lib s i token op who) as := by
  cases stage with
  | loading | loaded | active | granted => cases hwho
  | _ => exact h who hwho

/-- The past does not change. -/
theorem Story.later {stage : WebStage} (h : Story lib s i token op as stage) (act : WebAct) :
    Story lib s i token op (as ++ [act]) stage := by
  cases stage with
  | loading => exact List.mem_append_left _ h
  | loaded | active | granted => exact Runs.Once.later h [act]
  | _ => exact fun who hwho => (h who hwho).later [act]

/-- Nobody has no story. -/
theorem story_anonymous : Story lib s i token op as anonymous := fun _ hwho => by cases hwho

/-- The script renewed the session of a request. -/
theorem admitted_of_renewed {who : Principal} {observed : String} {faults : Faults}
    (h : Runs.Once (Granted lib s i token op who.id observed who.authorities) as)
    (hrenewed : (reached lib s as).store.renewed token observed faults = .answer 1) :
    Admitted lib s i token op who as := by
  obtain ⟨observed', ttl, hargv, -, hid, hpttl, -⟩ := authenticate_one rfl hrenewed
  obtain ⟨rfl, -⟩ := List.cons.inj hargv
  exact ⟨observed, h, hid, hpttl⟩

/-- Who a request is does not change, and it is somebody only since the script. -/
theorem principal_move {c : WebCall} {d : Fate × Faults} {st : AccessStore} {who : Principal}
    (h : (c.move lib d st).2.stage.principal = some who) : c.stage.principal = some who ∨
      ∃ observed, c.stage = .granted who.id observed who.authorities ∧
        st.renewed c.token observed d.2 = .answer 1 := by
  have horigin := origin_move lib d st c
  cases hstage : (c.move lib d st).2.stage with
  | loading | loaded | active | granted | rejecting =>
    rw [hstage] at h
    cases h
  | guarding w rounds =>
    rw [hstage] at h horigin
    obtain rfl := Option.some.inj h
    rcases horigin with hrenewed | ⟨hbefore, -⟩ | ⟨merchantId, hbefore, -⟩
    · exact .inr hrenewed
    · exact .inl (by rw [hbefore]; rfl)
    · exact .inl (by rw [hbefore]; rfl)
  | owning w rounds shopId =>
    rw [hstage] at h horigin
    obtain rfl := Option.some.inj h
    exact .inl (by rw [horigin.1]; rfl)
  | membership w rounds merchantId =>
    rw [hstage] at h horigin
    obtain rfl := Option.some.inj h
    rcases horigin with ⟨hbefore, -⟩ | ⟨shopId, row, hbefore, -⟩
    · exact .inl (by rw [hbefore]; rfl)
    · exact .inl (by rw [hbefore]; rfl)
  | executing w =>
    rw [hstage] at h horigin
    obtain rfl := Option.some.inj h
    rcases horigin with ⟨hbefore, -⟩ | ⟨merchantId, hbefore, -⟩
    · exact .inl (by rw [hbefore]; rfl)
    · exact .inl (by rw [hbefore]; rfl)
  | writing w merchantId =>
    rw [hstage] at h horigin
    obtain rfl := Option.some.inj h
    rcases horigin with ⟨hbefore, -⟩ | ⟨hbefore, -⟩
    · exact .inl (by rw [hbefore]; rfl)
    · exact .inl (by rw [hbefore]; rfl)
  | done w r =>
    rw [hstage] at h horigin
    exact .inl (horigin.1 who h)

/-- A step of a request continues its story. -/
theorem story_move {c : WebCall} (d : Fate × Faults) (h : Story lib s i c.token c.op as c.stage) :
    Story lib s i c.token c.op as (c.move lib d (reached lib s as).store).2.stage := by
  have horigin := origin_move lib d (reached lib s as).store c
  have hadmitted : ∀ who, (c.move lib d (reached lib s as).store).2.stage.principal = some who →
      Runs.Once (Admitted lib s i c.token c.op who) as := by
    intro who hwho
    rcases principal_move hwho with hbefore | ⟨observed, hbefore, hrenewed⟩
    · exact h.admitted hbefore
    · rw [hbefore] at h
      exact Runs.once_now (admitted_of_renewed h hrenewed)
  cases hstage : (c.move lib d (reached lib s as).store).2.stage with
  | loading =>
    rw [hstage] at horigin
    exact horigin.elim
  | loaded userId observed =>
    rw [hstage] at horigin
    obtain ⟨hbefore, hid, hread⟩ := horigin
    rw [hbefore] at h
    exact Runs.once_now ⟨h, hid, hread⟩
  | active userId observed =>
    rw [hstage] at horigin
    obtain ⟨hbefore, hactive⟩ := horigin
    rw [hbefore] at h
    exact Runs.once_now ⟨h, hactive⟩
  | granted userId observed authorities =>
    rw [hstage] at horigin
    obtain ⟨hbefore, hne, hroles⟩ := horigin
    rw [hbefore] at h
    exact Runs.once_now ⟨h, hne, hroles⟩
  | _ =>
    rw [hstage] at hadmitted
    exact hadmitted

/-- **Every request of a run has its story.** -/
theorem story_run (lib : Hutool) (s : AccessStore) (as : List WebAct) :
    ∀ i c, (reached lib s as).calls i = some c → Story lib s i c.token c.op as c.stage := by
  induction as using List.reverseRecOn with
  | nil =>
    intro i c hc
    cases hc
  | append_singleton as act ih =>
    intro i c hc
    rw [reached_snoc] at hc
    rcases (web lib).step_cases (reached lib s as) act with hstep | ⟨j, r, hact, -, hstep⟩ |
      ⟨j, d, c', -, hc', hstep⟩ | ⟨e, -, hstep⟩
    · rw [hstep] at hc
      exact (ih i c hc).later act
    · rw [hstep] at hc
      rcases entry_of_update hc with ⟨rfl, rfl⟩ | ⟨-, hold⟩
      · obtain ⟨token, op⟩ := r
        cases token with
        | none => exact story_anonymous
        | some token =>
          show Story lib s i token op _ (if lib.isBlank token then anonymous else .loading)
          split
          · exact story_anonymous
          · rw [hact]
            exact List.mem_append_right as List.mem_cons_self
      · exact (ih i c hold).later act
    · rw [hstep] at hc
      rcases entry_of_update hc with ⟨rfl, rfl⟩ | ⟨-, hold⟩
      · have hstory := (story_move d (ih i c' hc')).later act
        show Story lib s i (c'.move lib d _).2.token (c'.move lib d _).2.op _ _
        rw [token_move, op_move]
        exact hstory
      · exact (ih i c hold).later act
    · rw [hstep] at hc
      exact (ih i c hc).later act

end stories

/-- **Who is authenticated.** A request is authenticated as an account only if, after it started, the session
of its token named the account, then the account was active, then it had the authorities that the request
has, one at least, and then the same session still named it and had not expired. The account, its roles and
the session may change between any two of these. -/
theorem authenticated_truthful (lib : Hutool) (s : AccessStore) (as : List WebAct) (i : ℕ) (c : WebCall)
    (who : Principal) (hc : (reached lib s as).calls i = some c) (hwho : c.stage.principal = some who) :
    Runs.Once (Admitted lib s i c.token c.op who) as :=
  (story_run lib s as i c hc).admitted hwho

/-- Java's own reading of an id. -/
def plainHutool : Hutool := ⟨fun text => trim text = "", fun text => some (Decimal.parseLong text)⟩

/-- Nothing in Redis, and no account. -/
def noAccounts : AccessStore :=
  ⟨⟨fun _ => none, 0⟩, ⟨fun _ => none, fun _ => [], fun _ _ => none, fun _ => none⟩⟩

/-- A user with a session asks to leave. -/
def userLeaving : List WebAct :=
  [.drift (.setStatus 7 (some "ACTIVE")), .drift (.setRoles 7 ["USER"]),
    .drift (.serve (.publish "login:token:a" ["2160000000", "7", "Ann", ""] noFaults)),
    .enter 0 (some " a ", .logout), .move 0 (.answered, noFaults), .move 0 (.answered, noFaults),
    .move 0 (.answered, noFaults), .move 0 (.answered, noFaults)]

/-- The user was admitted in this run. -/
theorem userLeaving_admitted :
    Runs.Once (Admitted plainHutool noAccounts 0 " a " .logout ⟨7, [.user]⟩) userLeaving :=
  authenticated_truthful plainHutool noAccounts userLeaving 0 ⟨" a ", .logout, .guarding ⟨7, [.user]⟩ 0⟩
    ⟨7, [.user]⟩ (by decide +kernel) rfl

/-! ## Sessions that ended -/

/-- The step deletes the session: a logout, the filter, or another server. -/
def Ends (key : String) (p : WebPool) : WebAct → Prop
  | .move i d => ∃ c, p.calls i = some c ∧ tokenKey c.token = key ∧ d.1.happens = true ∧
      (c.stage = .rejecting ∨ (∃ who, c.stage = .executing who) ∧ c.op = .logout ∧ trim c.token ≠ "")
  | .drift (.serve (.delete k)) => k = key
  | _ => False

/-- The session is gone, and who is authenticated by its token already was. -/
structure Dead (key : String) (before : WebPool) (p : WebPool) : Prop where
  absent : p.store.server.redis key = none
  admitted : ∀ i c who, p.calls i = some c → tokenKey c.token = key → c.stage.principal = some who →
    ∃ c₀, before.calls i = some c₀ ∧ c₀.token = c.token ∧ c₀.stage.principal = some who

section ended

variable {lib : Hutool} {key : String} {p before : WebPool}

/-- A request renews and deletes sessions, and makes none. -/
theorem server_move (lib : Hutool) (d : Fate × Faults) (s : AccessStore) (c : WebCall) :
    (c.move lib d s).1.server = s.server ∨ ∃ a, (c.move lib d s).1.server = Identity.step s.server a ∧
      ∀ k argv faults, a ≠ .publish k argv faults := by
  have hserve : ∀ a : SessionAct String, (∀ k argv faults, a ≠ .publish k argv faults) →
      (d.1.perform (.serve a) s).server = s.server ∨
        ∃ b, (d.1.perform (.serve a) s).server = Identity.step s.server b ∧
          ∀ k argv faults, b ≠ .publish k argv faults := by
    intro a ha
    rcases d.1.perform_cases (.serve a) s with heq | heq
    · exact .inr ⟨a, by rw [heq]; rfl, ha⟩
    · exact .inl (by rw [heq])
  have hput : ∀ id row, (d.1.perform (.putShop id row) s).server = s.server := by
    intro id row
    rcases d.1.perform_cases (.putShop id row) s with heq | heq
    · rw [heq]
      rfl
    · rw [heq]
  unfold WebCall.move
  cases c.stage with
  | rejecting =>
    dsimp only
    exact hserve (.delete (tokenKey c.token)) fun _ _ _ h => by cases h
  | granted userId observed authorities =>
    dsimp only
    exact hserve (renewal c.token observed d.2) fun _ _ _ h => by cases h
  | executing who =>
    dsimp only
    unfold WebCall.execute
    cases c.op with
    | logout =>
      dsimp only
      split
      · exact .inl rfl
      · exact hserve (.delete (tokenKey c.token)) fun _ _ _ h => by cases h
    | createShop id merchantId columns =>
      dsimp only
      split
      · exact .inl rfl
      · exact .inl (hput ..)
    | _ => exact .inl rfl
  | writing who merchantId =>
    dsimp only
    cases c.op with
    | updateShop id columns =>
      dsimp only
      split
      · exact .inl rfl
      · exact .inl (hput ..)
    | _ => exact .inl rfl
  | _ => exact .inl rfl

/-- The script does not answer `1` for a session that is gone. -/
theorem not_renewed {s : AccessStore} {token observed : String} {faults : Faults}
    (h : s.server.redis (tokenKey token) = none) : s.renewed token observed faults ≠ .answer 1 := by
  intro hone
  obtain ⟨-, -, -, hhash, -⟩ := authenticate_one rfl hone
  rw [Keyspace.typeOf, h] at hhash
  cases hhash

/-- **A session that is gone stays so** until it is published. -/
theorem Dead.step (h : Dead key before p) {act : WebAct}
    (hact : ∀ argv faults, act ≠ .drift (.serve (.publish key argv faults))) :
    Dead key before ((web lib).step p act) := by
  rcases (web lib).step_cases p act with hstep | ⟨j, r, -, -, hstep⟩ | ⟨j, d, c', -, hc', hstep⟩ |
    ⟨e, rfl, hstep⟩
  · rwa [hstep]
  · rw [hstep]
    refine ⟨h.absent, fun i c who hc hkey hwho => ?_⟩
    rcases entry_of_update hc with ⟨rfl, rfl⟩ | ⟨-, hold⟩
    · obtain ⟨token, op⟩ := r
      change (startRequest lib token op).stage.principal = some who at hwho
      unfold startRequest at hwho
      split at hwho
      · cases hwho
      · dsimp only at hwho
        split at hwho <;> cases hwho
    · exact h.admitted i c who hold hkey hwho
  · rw [hstep]
    refine ⟨?_, fun i c who hc hkey hwho => ?_⟩
    · rcases server_move lib d p.store c' with heq | ⟨a, heq, ha⟩
      · show (c'.move lib d p.store).1.server.redis key = none
        rw [heq]
        exact h.absent
      · show (c'.move lib d p.store).1.server.redis key = none
        rw [heq]
        exact step_absent h.absent fun argv faults => ha key argv faults
    · rcases entry_of_update hc with ⟨rfl, rfl⟩ | ⟨-, hold⟩
      · change tokenKey (c'.move lib d p.store).2.token = key at hkey
        rw [token_move] at hkey
        rcases principal_move hwho with hbefore | ⟨observed, -, hrenewed⟩
        · obtain ⟨c₀, hc₀, htoken, hwho₀⟩ := h.admitted i c' who hc' hkey hbefore
          exact ⟨c₀, hc₀, htoken.trans token_move.symm, hwho₀⟩
        · exact absurd hrenewed (not_renewed (hkey ▸ h.absent))
      · exact h.admitted i c who hold hkey hwho
  · rw [hstep]
    refine ⟨?_, fun i c who hc hkey hwho => h.admitted i c who hc hkey hwho⟩
    cases e with
    | serve a => exact step_absent h.absent fun argv faults ha => hact argv faults (by rw [ha])
    | _ => exact h.absent

/-- Where a session ends it is gone. -/
theorem dead_of_ends {act : WebAct} (h : Ends key p act) :
    Dead key ((web lib).step p act) ((web lib).step p act) := by
  refine ⟨?_, fun i c who hc _ hwho => ⟨c, hc, rfl, hwho⟩⟩
  have hremove : ∀ s : AccessStore, (s.serve (.delete key)).server.redis key = none := by
    intro s
    show s.server.redis.remove key key = none
    rw [Keyspace.remove_apply, if_pos rfl]
  cases act with
  | enter i r => exact h.elim
  | move i d =>
    obtain ⟨c, hc, rfl, hhappens, hends⟩ := h
    rw [(web lib).step_move hc]
    show (c.move lib d p.store).1.server.redis (tokenKey c.token) = none
    have hperform : d.1.perform (.serve (.delete (tokenKey c.token))) p.store =
        p.store.serve (.delete (tokenKey c.token)) := by
      rw [Fate.perform, if_pos hhappens]
    unfold WebCall.move
    rcases hends with hstage | ⟨⟨who, hstage⟩, hop, htoken⟩
    · rw [hstage]
      dsimp only
      rw [hperform]
      exact hremove _
    · rw [hstage]
      dsimp only
      unfold WebCall.execute
      rw [hop]
      dsimp only
      rw [if_neg htoken]
      dsimp only
      rw [hperform]
      exact hremove _
  | drift e =>
    cases e with
    | serve a =>
      cases a with
      | delete k =>
        obtain rfl : k = key := h
        exact hremove _
      | _ => exact h.elim
    | _ => exact h.elim

end ended

/-- **A session that ended authenticates nobody.** From every state: once a logout, the filter or another
server has deleted the session of a token, no request is authenticated by that token that was not when the
session was deleted, whatever the requests do, until the token is published again. -/
theorem ended_session_stays_dead (lib : Hutool) (key : String) (p : WebPool) (act : WebAct)
    (as : List WebAct) (hends : Ends key p act)
    (has : ∀ argv faults, .drift (.serve (.publish key argv faults)) ∉ as) (i : ℕ) (c : WebCall)
    (who : Principal) (hc : (Runs.run (web lib).step ((web lib).step p act) as).calls i = some c)
    (hkey : tokenKey c.token = key) (hwho : c.stage.principal = some who) :
    ∃ c₀, ((web lib).step p act).calls i = some c₀ ∧ c₀.token = c.token ∧
      c₀.stage.principal = some who := by
  have hstep : ∀ (q : WebPool) b, Dead key ((web lib).step p act) q → b ∈ as →
      Dead key ((web lib).step p act) ((web lib).step q b) :=
    fun _ _ hq hb => hq.step fun argv faults heq => has argv faults (heq ▸ hb)
  have hdead := Runs.run_invariant_of_along _ hstep as _ (dead_of_ends hends)
    (Runs.along_of_forall _ as _ fun _ hb => hb)
  exact hdead.admitted i c who hc hkey hwho

/-- A request is before the script when another one with its token leaves. -/
def twoVisits : WebPool :=
  ⟨⟨⟨fun key => if key = "login:token:a" then some ⟨.hash (writeFields ∅ [("id", "7")]), some 9⟩ else none,
      0⟩, noAccounts.tables⟩,
    fun i => if i = 0 then some ⟨"a", .logout, .executing ⟨7, [.user]⟩⟩
      else if i = 1 then some ⟨"a", .handle .anyRole 0, .granted 7 "7" [.user]⟩ else none⟩

/-- The request was authenticated before the other one deleted the session. -/
theorem twoVisits_dead : ∃ c₀,
    ((web plainHutool).step twoVisits (.move 0 (.lost, noFaults))).calls 0 = some c₀ ∧ c₀.token = "a" ∧
      c₀.stage.principal = some ⟨7, [.user]⟩ :=
  ended_session_stays_dead plainHutool "login:token:a" twoVisits (.move 0 (.lost, noFaults))
    [.move 1 (.answered, noFaults)] ⟨_, rfl, by decide +kernel, rfl, .inr ⟨⟨_, rfl⟩, rfl, by decide +kernel⟩⟩
    (fun _ _ hmem => by cases List.mem_singleton.mp hmem) 0 ⟨"a", .logout, .done (some ⟨7, [.user]⟩) .raised⟩
    ⟨7, [.user]⟩ (by decide +kernel) (by decide +kernel) rfl

end CampusHub.Access
