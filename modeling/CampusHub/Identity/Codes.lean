import CampusHub.Foundations.Pools
import CampusHub.Identity.Login

/-!
# Sending a login code

* `CodeStore`, `SendCall`, `codes` — the keys of the codes and of the cooldowns, and a call of `sendCode`
  between two of its calls of Redis, while codes are tried and time passes.
* `keys_apart` — a code and a cooldown never share a key.
* `cooldown_gap` — a phone is taken on twice within a minute only after a release.
* `codes_spaced` — when every call ends within its cooldown, codes that were sent are more than a minute
  apart.
* `code_accepted` — a code that is accepted is the last one saved, at most two minutes old and not accepted
  before.

The cooldown is taken with `SET … NX EX 60` before a code is drawn, and it is released when the code could
not be saved. Every call of Redis may fail, before or after it has taken effect, and the caller sees the
same error.

**Proof route.** `cooldown_gap` follows one key: `CoolsUntil` says that it is there until a moment, and only
a release takes it away before that (`CoolsUntil.step`). For `codes_spaced` the calls of a phone are kept
apart as a whole (`Timely`), since a call that is late might release the cooldown of the next one; `Prompt`
says that no call is that late. `code_accepted` follows the key of the code backwards along the run to the
step that saved it (`entry_run`).

**Left out.** How the code reaches the phone: a code counts as sent when the call has ended so.
-/

namespace CampusHub.Identity

open CampusHub.Redis CampusHub.Domain CampusHub.Foundations CampusHub.Foundations.Pools
open CampusHub.Foundations.Maps

/-! ## The model -/

/-- `LOGIN_CODE_COOLDOWN_TTL` in milliseconds. Source: `RedisConstants.java` 7. -/
def cooldownMillis : ℕ := 60 * 1000

/-- `LOGIN_CODE_TTL` in milliseconds. Source: `RedisConstants.java` 5. -/
def codeMillis : ℕ := 2 * 60 * 1000

/-- `LOGIN_CODE_KEY + phone` -/
def codeKey (phone : String) : String := "login:code:" ++ phone

/-- `LOGIN_CODE_COOLDOWN_KEY + phone` -/
def cooldownKey (phone : String) : String := "login:code:cooldown:" ++ phone

/-- The keys of logins, the cooldowns by their phones, and the clock in milliseconds. -/
structure CodeStore where
  login : Keyspace LoginKey
  cooldown : Keyspace String
  now : ℕ

namespace CodeStore

/-- `SET key 1 EX 60 NX`. Source: `RedisLoginCodeStore.java` 18–21. -/
def acquireCooldown (phone : String) (s : CodeStore) : CodeStore :=
  if (s.cooldown phone).isNone then
    { s with cooldown := s.cooldown.replace phone (some ⟨.str "1", some (s.now + cooldownMillis)⟩) }
  else s

/-- Source: `RedisLoginCodeStore.java` 24–26. -/
def saveCode (phone code : String) (s : CodeStore) : CodeStore :=
  { s with login := s.login.replace (.code phone) (some ⟨.str code, some (s.now + codeMillis)⟩) }

/-- Source: `RedisLoginCodeStore.java` 29. -/
def releaseCooldown (phone : String) (s : CodeStore) : CodeStore :=
  { s with cooldown := s.cooldown.replace phone none }

/-- A login tries a code. Source: `login-code-consume.lua`. -/
def consume (phone code : String) (s : CodeStore) : CodeStore :=
  { s with login := (Plan.run s.now (loginCodeConsume s.login phone code) s.login).2 }

/-- Time passes, and what has expired is gone. -/
def tick (d : ℕ) (s : CodeStore) : CodeStore :=
  ⟨s.login.purge (s.now + d), s.cooldown.purge (s.now + d), s.now + d⟩

end CodeStore

/-- What a call ends with. -/
inductive SendResult where
  | sent
  | refused (e : BusinessException)
  | raised
  deriving DecidableEq

/-- Where a call stands: before `acquireCooldown`, `generate`, `saveCode` and `releaseCooldown`.
Source: `LoginCodeService.java` 17–33. -/
inductive SendStage where
  | asked | acquired
  | saving (code : String)
  | releasing
  | done (r : SendResult)
  deriving DecidableEq

/-- A call of `sendCode(phone)`, with the time at which it took the cooldown. -/
structure SendCall where
  phone : String
  since : ℕ
  stage : SendStage
  deriving DecidableEq

def invalidPhone : BusinessException := ⟨.validationFailed, "手机号格式错误"⟩

def tooFrequent : BusinessException := ⟨.rateLimited, "验证码发送过于频繁，请稍后再试"⟩

/-- The start of a call. Source: `LoginCodeService.java` 19–21. -/
def startSending (now : ℕ) : Option String → SendCall
  | none => ⟨"", now, .done (.refused invalidPhone)⟩
  | some phone => ⟨phone, now, if isPhoneInvalid phone then .done (.refused invalidPhone) else .asked⟩

/-- The next step of a call; `code` is what the generator draws.
Source: `LoginCodeService.java` 22–32. -/
def SendCall.move (fate : Fate) (code : String) (s : CodeStore) (c : SendCall) : CodeStore × SendCall :=
  match c.stage with
  | .asked =>
    (fate.perform (.acquireCooldown c.phone) s,
      { c with
        since := s.now
        stage :=
          if fate ≠ .answered then .done .raised
          else if (s.cooldown c.phone).isNone then .acquired else .done (.refused tooFrequent) })
  | .acquired => (s, { c with stage := if fate = .answered then .saving code else .done .raised })
  | .saving code =>
    (fate.perform (.saveCode c.phone code) s,
      { c with stage := if fate = .answered then .done .sent else .releasing })
  -- The failure of the save is thrown on, or that of the release.
  | .releasing => (fate.perform (.releaseCooldown c.phone) s, { c with stage := .done .raised })
  | .done _ => (s, c)

/-- What the surroundings do. -/
inductive CodeEvent where
  | tick (d : ℕ)
  | consume (phone code : String)

/-- The calls over Redis. -/
def codes : System CodeStore (Option String) SendCall (Fate × String) CodeEvent where
  enter s phone := startSending s.now phone
  move d s c := c.move d.1 d.2 s
  drift
    | .tick d, s => s.tick d
    | .consume phone code, s => s.consume phone code

/-- The state of the calls and of Redis. -/
abbrev CodePool := Pool CodeStore SendCall

/-- The steps. -/
abbrev CodeAct := PoolAct (Option String) (Fate × String) CodeEvent

/-! ## Keys -/

/-- **A code and a cooldown never share a key**: a phone that passes the check starts with a digit. -/
theorem keys_apart {phone : String} (h : isPhoneInvalid phone = false) (other : String) :
    codeKey phone ≠ cooldownKey other := by
  intro heq
  have hsplit : cooldownKey other = "login:code:" ++ ("cooldown:" ++ other) := by
    rw [← String.append_assoc]
    rfl
  have hphone : phone.toList = 'c' :: ("ooldown:" ++ other).toList := by
    have hchars := congrArg String.toList (heq.trans hsplit)
    rw [codeKey, String.toList_append, String.toList_append, List.append_cancel_left_eq] at hchars
    rw [hchars]
    simp
  unfold isPhoneInvalid at h
  rw [hphone] at h
  simp at h

/-! ## What a step does to a cooldown -/

/-- The call is about to release the cooldown of the phone, and does. -/
def Releases (phone : String) (p : CodePool) : CodeAct → Prop
  | .move i d => ∃ c, p.calls i = some c ∧ c.phone = phone ∧ c.stage = .releasing ∧ d.1.happens = true
  | _ => False

/-- A call takes the cooldown of the phone. -/
def Acquires (phone : String) (p : CodePool) : CodeAct → Prop
  | .move i d => ∃ c, p.calls i = some c ∧ c.phone = phone ∧ c.stage = .asked ∧ d.1.happens = true ∧
      p.store.cooldown phone = none
  | _ => False

/-- Until `t` the cooldown of the phone is there. -/
def CoolsUntil (phone : String) (t : ℕ) (s : CodeStore) : Prop :=
  s.now ≤ t → s.cooldown phone = some ⟨.str "1", some t⟩

section cooldowns

variable {phone : String} {t : ℕ} {s : CodeStore} {p : CodePool}

/-- A cooldown that is there is not taken again. -/
theorem CoolsUntil.acquire (h : CoolsUntil phone t s) (other : String) :
    CoolsUntil phone t (s.acquireCooldown other) := by
  unfold CodeStore.acquireCooldown
  split
  · rename_i hnone
    intro hnow
    have hkey := h hnow
    show s.cooldown.replace other _ phone = _
    rw [Keyspace.replace_of_ne, hkey]
    rintro rfl
    rw [hkey] at hnone
    cases hnone
  · exact h

/-- Time that passes before `t` leaves the cooldown. -/
theorem CoolsUntil.tick (h : CoolsUntil phone t s) (d : ℕ) : CoolsUntil phone t (s.tick d) := by
  intro hnow
  have hnow : s.now + d ≤ t := hnow
  exact Keyspace.purge_of_le (h (by omega)) hnow

/-- A call of Redis leaves it, if it does so when it happens. -/
theorem CoolsUntil.perform (h : CoolsUntil phone t s) {f : CodeStore → CodeStore} (fate : Fate)
    (hf : fate.happens = true → CoolsUntil phone t (f s)) : CoolsUntil phone t (fate.perform f s) := by
  unfold Fate.perform
  split
  · exact hf ‹_›
  · exact h

/-- **Only a release takes a cooldown away before its time.** -/
theorem CoolsUntil.step (h : CoolsUntil phone t p.store) {act : CodeAct} (hact : ¬ Releases phone p act) :
    CoolsUntil phone t (codes.step p act).store := by
  rcases codes.step_cases p act with hstep | ⟨i, r, -, -, hstep⟩ | ⟨i, d, c, rfl, hc, hstep⟩ |
    ⟨e, -, hstep⟩
  · rwa [hstep]
  · rwa [hstep]
  · rw [hstep]
    show CoolsUntil phone t (c.move d.1 d.2 p.store).1
    unfold SendCall.move
    split
    · exact h.perform _ fun _ => h.acquire c.phone
    · exact h
    · exact h.perform _ fun _ => h
    · rename_i hstage
      refine h.perform _ fun hhappens => ?_
      intro hnow
      show p.store.cooldown.replace c.phone none phone = _
      rw [Keyspace.replace_of_ne, h hnow]
      rintro rfl
      exact hact ⟨c, hc, rfl, hstage, hhappens⟩
    · exact h
  · rw [hstep]
    cases e with
    | tick d => exact h.tick d
    | consume other code => exact h

/-- A call that takes the cooldown has it for a minute. -/
theorem coolsUntil_of_acquires {act : CodeAct} (h : Acquires phone p act) :
    CoolsUntil phone (p.store.now + cooldownMillis) (codes.step p act).store := by
  cases act with
  | move i d =>
    obtain ⟨c, hc, rfl, hstage, hhappens, hnone⟩ := h
    rw [codes.step_move hc]
    intro _
    show ((c.move d.1 d.2 p.store).1).cooldown c.phone = _
    unfold SendCall.move Fate.perform CodeStore.acquireCooldown
    simp only [hstage, hhappens, hnone, if_true, Option.isNone_none, Keyspace.replace_self]
  | _ => exact h.elim

end cooldowns

/-- **A phone is taken on twice within a minute only after a release**: between two calls that take the
cooldown of one phone more than a minute passes, or a call whose save failed has released it. This
holds from every state, whatever the calls do. -/
theorem cooldown_gap (phone : String) (p : CodePool) (act act' : CodeAct) (as : List CodeAct)
    (hfirst : Acquires phone p act)
    (hsecond : Acquires phone (Runs.run codes.step (codes.step p act) as) act') :
    p.store.now + cooldownMillis < (Runs.run codes.step (codes.step p act) as).store.now ∨
      ∃ bs b cs, as = bs ++ b :: cs ∧ Releases phone (Runs.run codes.step (codes.step p act) bs) b := by
  by_contra hneither
  rw [not_or, not_lt] at hneither
  obtain ⟨hnow, hnone⟩ := hneither
  have hstep : ∀ (q : CodePool) b, CoolsUntil phone (p.store.now + cooldownMillis) q.store →
      ¬ Releases phone q b → CoolsUntil phone (p.store.now + cooldownMillis) (codes.step q b).store :=
    fun _ _ hq hb => hq.step hb
  have hkept := Runs.run_invariant_of_along codes.step hstep as _ (coolsUntil_of_acquires hfirst)
    (Runs.along_of_splits codes.step as _ fun bs b cs has hb => hnone ⟨bs, b, cs, has, hb⟩)
  have habsent : (Runs.run codes.step (codes.step p act) as).store.cooldown phone = none := by
    cases act' with
    | move i d =>
      obtain ⟨-, -, -, -, -, hnone⟩ := hsecond
      exact hnone
    | _ => exact hsecond.elim
  rw [hkept hnow] at habsent
  cases habsent

/-- A phone. -/
def phoneTwo : String := "13900000000"

/-- Nothing in Redis. -/
def noCodes : CodeStore := ⟨fun _ => none, fun _ => none, 0⟩

/-- Two calls before their cooldown. -/
def twoAsking : CodePool := ⟨noCodes, fun i => if i < 2 then some ⟨phoneTwo, 0, .asked⟩ else none⟩

/-- The second call takes the cooldown a minute and a millisecond later. -/
theorem twoAsking_gap :
    let q := Runs.run codes.step (codes.step twoAsking (.move 0 (.answered, ""))) [.drift (.tick 60001)]
    twoAsking.store.now + cooldownMillis < q.store.now ∨
      ∃ bs b cs, [.drift (.tick 60001)] = bs ++ b :: cs ∧
        Releases phoneTwo (Runs.run codes.step (codes.step twoAsking (.move 0 (.answered, ""))) bs) b :=
  cooldown_gap phoneTwo twoAsking (.move 0 (.answered, "")) (.move 1 (.answered, ""))
    [.drift (.tick 60001)] ⟨_, rfl, rfl, rfl, rfl, rfl⟩
    ⟨⟨phoneTwo, 0, .asked⟩, rfl, rfl, rfl, rfl, Option.isNone_iff_eq_none.mp (by decide +kernel)⟩

/-! ## Calls that end within their cooldown -/

/-- The call has the cooldown and has not ended. -/
def SendStage.flies : SendStage → Bool
  | .acquired | .saving _ | .releasing => true
  | _ => false

/-- The call has the cooldown, or it sent its code. -/
def SendCall.Live (c : SendCall) (phone : String) : Prop :=
  c.phone = phone ∧ (c.stage.flies = true ∨ c.stage = .done .sent)

/-- Time does not pass the cooldown of a call of the phone that has not ended. -/
def Prompt (phone : String) (p : CodePool) : CodeAct → Prop
  | .drift (.tick d) => ∀ i c, p.calls i = some c → c.phone = phone → c.stage.flies = true →
      p.store.now + d ≤ c.since + cooldownMillis
  | _ => True

/-- A call that has the cooldown is within it, and the cooldown of a code that was sent is in force. -/
def KeepsTime (phone : String) (s : CodeStore) (c : SendCall) : Prop :=
  c.Live phone → c.since ≤ s.now ∧ CoolsUntil phone (c.since + cooldownMillis) s ∧
    (c.stage.flies = true → s.now ≤ c.since + cooldownMillis)

/-- More than a cooldown apart. -/
def Spaced (phone : String) (c c' : SendCall) : Prop :=
  c.Live phone → c'.Live phone →
    c.since + cooldownMillis < c'.since ∨ c'.since + cooldownMillis < c.since

/-- What holds of the calls of a phone. -/
structure Timely (phone : String) (p : CodePool) : Prop where
  calls : Asserts (fun _ => True) (KeepsTime phone) p
  spaced : Pairs (Spaced phone) p

section timely

variable {phone : String} {s s' : CodeStore} {c : SendCall} {p : CodePool} {fate : Fate} {code : String}

/-- A call that is not about the phone, or neither has the cooldown nor sent its code. -/
theorem keepsTime_of_not_live (h : ¬ c.Live phone) : KeepsTime phone s c := fun hlive => absurd hlive h

/-- Only the clock and the cooldown of the phone matter. -/
theorem KeepsTime.congr (h : KeepsTime phone s c) (hnow : s'.now = s.now)
    (hkey : s'.cooldown phone = s.cooldown phone) : KeepsTime phone s' c := by
  intro hlive
  obtain ⟨hsince, hcools, hflies⟩ := h hlive
  refine ⟨hnow ▸ hsince, fun hle => ?_, fun hf => hnow ▸ hflies hf⟩
  rw [hkey]
  exact hcools (hnow ▸ hle)

/-- A call keeps its phone. -/
@[simp] theorem phone_move : (c.move fate code s).2.phone = c.phone := by
  unfold SendCall.move
  split <;> rfl

/-- A call changes the cooldown of its own phone only. -/
theorem move_cooldown_other (h : c.phone ≠ phone) :
    (c.move fate code s).1.cooldown phone = s.cooldown phone := by
  unfold SendCall.move
  split
  · rcases fate.perform_cases (CodeStore.acquireCooldown c.phone) s with heq | heq
    · rw [heq]
      unfold CodeStore.acquireCooldown
      split
      · exact s.cooldown.replace_of_ne _ h.symm
      · rfl
    · rw [heq]
  · rfl
  · rcases fate.perform_cases (CodeStore.saveCode c.phone _) s with heq | heq
    · rw [heq]
      rfl
    · rw [heq]
  · rcases fate.perform_cases (CodeStore.releaseCooldown c.phone) s with heq | heq
    · rw [heq]
      exact s.cooldown.replace_of_ne _ h.symm
    · rw [heq]
  · rfl

/-- A step of a call takes no time. -/
theorem move_now : (c.move fate code s).1.now = s.now := by
  have hperform : ∀ {f : CodeStore → CodeStore}, (f s).now = s.now → (fate.perform f s).now = s.now := by
    intro f hf
    rcases fate.perform_cases f s with heq | heq
    · rw [heq, hf]
    · rw [heq]
  unfold SendCall.move
  split
  · refine hperform ?_
    unfold CodeStore.acquireCooldown
    split <;> rfl
  · rfl
  · exact hperform rfl
  · exact hperform rfl
  · rfl

/-- Where nobody has the cooldown, the codes that were sent are more than a minute old. -/
theorem KeepsTime.past (h : KeepsTime phone s c) (hlive : c.Live phone) (hnone : s.cooldown phone = none) :
    c.stage.flies = false ∧ c.since + cooldownMillis < s.now := by
  obtain ⟨-, hcools, hflies⟩ := h hlive
  have hlate : c.since + cooldownMillis < s.now := by
    by_contra hle
    have hkey := hcools (not_lt.mp hle)
    rw [hnone] at hkey
    cases hkey
  refine ⟨?_, hlate⟩
  by_contra hf
  have := hflies (by simpa using hf)
  omega

/-- A call of the phone asks for the cooldown. -/
theorem timely_acquire (fate : Fate) (code : String) (h : Timely phone p) (hphone : c.phone = phone)
    (hstage : c.stage = .asked) :
    KeepsTime phone (c.move fate code p.store).1 (c.move fate code p.store).2 ∧
      (∀ j u, p.calls j = some u → KeepsTime phone (c.move fate code p.store).1 u ∧
        Spaced phone (c.move fate code p.store).2 u) := by
  subst hphone
  unfold SendCall.move
  simp only [hstage]
  cases hkey : p.store.cooldown c.phone with
  | some e =>
    -- the cooldown is there, so that nothing changes
    have hsame : fate.perform (.acquireCooldown c.phone) p.store = p.store := by
      rcases fate.perform_cases (CodeStore.acquireCooldown c.phone) p.store with heq | heq
      · rw [heq, CodeStore.acquireCooldown, hkey]
        rfl
      · exact heq
    have hdead : ∀ {since : ℕ} {stage : SendStage}, stage = (if fate ≠ .answered then .done .raised
        else if (some e).isNone then .acquired else .done (.refused tooFrequent)) →
        ¬ SendCall.Live ⟨c.phone, since, stage⟩ c.phone := by
      rintro since stage rfl ⟨-, hlive⟩
      revert hlive
      split
      · simp [SendStage.flies]
      · simp [SendStage.flies]
    rw [hsame]
    exact ⟨keepsTime_of_not_live (hdead rfl), fun j u hu => ⟨h.calls.calls j u hu,
      fun hlive => absurd hlive (hdead rfl)⟩⟩
  | none =>
    have hpast : ∀ j u, p.calls j = some u → u.Live c.phone →
        u.stage.flies = false ∧ u.since + cooldownMillis < p.store.now := fun j u hu hlive =>
      (h.calls.calls j u hu).past hlive hkey
    have hnow : (fate.perform (.acquireCooldown c.phone) p.store).now = p.store.now := by
      have : (c.move fate code p.store).1.now = p.store.now := move_now
      unfold SendCall.move at this
      simpa only [hstage] using this
    refine ⟨fun hlive => ?_, fun j u hu => ⟨fun hlive => ?_, fun _ hlive => ?_⟩⟩
    · have hanswered : fate = .answered := by
        by_contra hne
        obtain ⟨-, hlive⟩ := hlive
        simp [hne, SendStage.flies] at hlive
      subst hanswered
      refine ⟨hnow.ge, fun _ => ?_, fun _ => ?_⟩
      · show (CodeStore.acquireCooldown c.phone p.store).cooldown c.phone = _
        rw [CodeStore.acquireCooldown, hkey]
        exact p.store.cooldown.replace_self ..
      · rw [hnow]
        exact Nat.le_add_right _ _
    · obtain ⟨hflies, hlate⟩ := hpast j u hu hlive
      obtain ⟨hsince, -, -⟩ := h.calls.calls j u hu hlive
      rw [hnow]
      exact ⟨hsince, fun hle => absurd (hnow ▸ hle) (by omega), fun hf => by rw [hflies] at hf; cases hf⟩
    · exact .inr (hpast j u hu hlive).2

/-- A call of the phone that has the cooldown goes on. -/
theorem timely_fly (h : Timely phone p) {i : ℕ} (hc : p.calls i = some c) (hphone : c.phone = phone)
    (hflies : c.stage.flies = true) :
    KeepsTime phone (c.move fate code p.store).1 (c.move fate code p.store).2 ∧
      (∀ j u, j ≠ i → p.calls j = some u → KeepsTime phone (c.move fate code p.store).1 u ∧
        Spaced phone (c.move fate code p.store).2 u) := by
  subst hphone
  have hlive : c.Live c.phone := ⟨rfl, .inl hflies⟩
  obtain ⟨hsince, hcools, hwithin⟩ := h.calls.calls i c hc hlive
  have hspaced : ∀ j u, j ≠ i → p.calls j = some u → Spaced c.phone c u := fun j u hj hu =>
    h.spaced i j c u hj.symm hc hu
  -- the same cooldown, and a call that may have sent its code
  have hkept : ∀ {s : CodeStore} {stage : SendStage}, s.now = p.store.now →
      s.cooldown c.phone = p.store.cooldown c.phone →
      KeepsTime c.phone s ⟨c.phone, c.since, stage⟩ ∧
        ∀ j u, j ≠ i → p.calls j = some u → KeepsTime c.phone s u ∧
          Spaced c.phone ⟨c.phone, c.since, stage⟩ u := by
    intro s stage hnow hkey
    have hc' : KeepsTime c.phone s c := (h.calls.calls i c hc).congr hnow hkey
    refine ⟨fun _ => ⟨(hc' hlive).1, (hc' hlive).2.1, fun _ => (hc' hlive).2.2 hflies⟩, fun j u hj hu =>
      ⟨(h.calls.calls j u hu).congr hnow hkey, fun _ hu' => hspaced j u hj hu hlive hu'⟩⟩
  have hperform : ∀ (f : CodeStore → CodeStore), (∀ s, (f s).now = s.now) →
      (∀ s, (f s).cooldown = s.cooldown) → (fate.perform f p.store).now = p.store.now ∧
        (fate.perform f p.store).cooldown c.phone = p.store.cooldown c.phone := by
    intro f hnow hcooldown
    rcases fate.perform_cases f p.store with heq | heq
    · rw [heq, hnow, hcooldown]
      exact ⟨rfl, rfl⟩
    · rw [heq]
      exact ⟨rfl, rfl⟩
  unfold SendCall.move
  cases hstage : c.stage with
  | acquired => exact hkept rfl rfl
  | saving code' =>
    obtain ⟨hnow, hkey⟩ := hperform (.saveCode c.phone code') (fun _ => rfl) fun _ => rfl
    exact hkept hnow hkey
  | releasing =>
    refine ⟨keepsTime_of_not_live ?_, fun j u hj hu => ⟨fun hu' => ?_, fun hdead => ?_⟩⟩
    · rintro ⟨-, hdead⟩
      simp [SendStage.flies] at hdead
    · -- whoever else sent a code did so more than a minute ago
      obtain ⟨husince, hucools, huwithin⟩ := h.calls.calls j u hu hu'
      have hnow : (fate.perform (.releaseCooldown c.phone) p.store).now = p.store.now := by
        rcases fate.perform_cases (CodeStore.releaseCooldown c.phone) p.store with heq | heq
        · rw [heq]
          rfl
        · rw [heq]
      have hnow' := hwithin hflies
      rcases hspaced j u hj hu hlive hu' with hlt | hlt
      · omega
      · rw [hnow]
        refine ⟨husince, fun hle => ?_, fun hf => ?_⟩
        · rw [hnow] at hle
          omega
        · have := huwithin hf
          omega
    · obtain ⟨-, hdead⟩ := hdead
      simp [SendStage.flies] at hdead
  | _ =>
    rw [hstage] at hflies
    cases hflies

/-- **Every step keeps the calls of a phone timely** if time does not pass their cooldowns. -/
theorem Timely.step (h : Timely phone p) {act : CodeAct} (hact : Prompt phone p act) :
    Timely phone (codes.step p act) := by
  have hsymm : ∀ t u : SendCall, Spaced phone t u → Spaced phone u t := fun _ _ hs ht hu => (hs hu ht).symm
  have hmove : ∀ i (d : Fate × String) c, p.calls i = some c →
      KeepsTime phone (c.move d.1 d.2 p.store).1 (c.move d.1 d.2 p.store).2 ∧
        ∀ j u, j ≠ i → p.calls j = some u → KeepsTime phone (c.move d.1 d.2 p.store).1 u ∧
          Spaced phone (c.move d.1 d.2 p.store).2 u := by
    intro i d c hc
    by_cases hphone : c.phone = phone
    · cases hstage : c.stage with
      | asked =>
        obtain ⟨hown, hothers⟩ := timely_acquire d.1 d.2 h hphone hstage
        exact ⟨hown, fun j u _ hu => hothers j u hu⟩
      | done r =>
        have hsame : c.move d.1 d.2 p.store = (p.store, c) := by
          unfold SendCall.move
          rw [hstage]
        rw [hsame]
        exact ⟨h.calls.calls i c hc, fun j u hj hu => ⟨h.calls.calls j u hu, h.spaced i j c u hj.symm hc hu⟩⟩
      | _ => exact timely_fly h hc hphone (by rw [hstage]; rfl)
    · have hother : ∀ {x : SendCall}, x = (c.move d.1 d.2 p.store).2 → ¬ x.Live phone := by
        rintro _ rfl ⟨heq, -⟩
        exact hphone (phone_move.symm.trans heq)
      exact ⟨keepsTime_of_not_live (hother rfl), fun j u _ hu =>
        ⟨(h.calls.calls j u hu).congr move_now (move_cooldown_other hphone),
          fun hlive => absurd hlive (hother rfl)⟩⟩
  have henter : ∀ r : Option String, ¬ (startSending p.store.now r).Live phone := by
    rintro r ⟨-, hlive⟩
    cases r with
    | none => simp [startSending, SendStage.flies] at hlive
    | some x =>
      simp only [startSending] at hlive
      split at hlive
      · simp [SendStage.flies] at hlive
      · simp [SendStage.flies] at hlive
  refine ⟨h.calls.step (fun i r _ => keepsTime_of_not_live (henter r)) (fun i d c _ hc => ?_) fun e he => ?_,
    h.spaced.step hsymm (fun i r _ j u _ _ hlive => absurd hlive (henter r)) fun i d c _ hc j u hj hu =>
      ((hmove i d c hc).2 j u hj hu).2⟩
  · exact ⟨trivial, (hmove i d c hc).1, fun j u hj hu => ((hmove i d c hc).2 j u hj hu).1⟩
  · refine ⟨trivial, fun i c hc hlive => ?_⟩
    obtain ⟨hsince, hcools, hwithin⟩ := h.calls.calls i c hc hlive
    cases e with
    | tick d =>
      subst he
      exact ⟨hsince.trans (Nat.le_add_right _ _), hcools.tick d, fun hf => hact i c hc hlive.1 hf⟩
    | consume other code => exact ⟨hsince, hcools, hwithin⟩

end timely

/-- **Codes are sent at most once a minute** if every call ends within its cooldown: whatever the calls do
and whichever of their store calls fail, two calls that sent a code to one phone took its cooldown more than
a minute apart. -/
theorem codes_spaced (phone : String) (s : CodeStore) (as : List CodeAct)
    (hprompt : Runs.Along (Prompt phone) codes.step (Pool.idle s) as) (i j : ℕ) (c c' : SendCall)
    (hij : i ≠ j) (hc : (Runs.run codes.step (Pool.idle s) as).calls i = some c)
    (hc' : (Runs.run codes.step (Pool.idle s) as).calls j = some c') (hphone : c.phone = phone)
    (hphone' : c'.phone = phone) (hsent : c.stage = .done .sent) (hsent' : c'.stage = .done .sent) :
    c.since + cooldownMillis < c'.since ∨ c'.since + cooldownMillis < c.since := by
  have htimely : Timely phone (Runs.run codes.step (Pool.idle s) as) :=
    Runs.run_invariant_of_along (I := Timely phone) codes.step (fun _ _ hp hact => hp.step hact) as _
      ⟨asserts_idle trivial, pairs_idle⟩ hprompt
  exact htimely.spaced i j c c' hij hc hc' ⟨hphone, .inr hsent⟩ ⟨hphone', .inr hsent'⟩

/-- A call that sends a code, from its start to its end. -/
def sendOnce (i : ℕ) : List CodeAct :=
  [.enter i (some phoneTwo), .move i (.answered, ""), .move i (.answered, "123456"), .move i (.answered, "")]

/-- A second code is sent after a minute. -/
def sendTwice : List CodeAct := sendOnce 0 ++ .drift (.tick 60001) :: sendOnce 1

/-- The two codes are more than a minute apart. -/
theorem sendTwice_spaced : (0 : ℕ) + cooldownMillis < 60001 ∨ 60001 + cooldownMillis < 0 := by
  refine codes_spaced phoneTwo noCodes sendTwice ?_ 0 1 ⟨phoneTwo, 0, .done .sent⟩
    ⟨phoneTwo, 60001, .done .sent⟩ (by decide) (by decide +kernel) (by decide +kernel) rfl rfl rfl rfl
  refine ⟨trivial, trivial, trivial, trivial, fun i c hc _ hflies => ?_, trivial, trivial, trivial, trivial,
    trivial⟩
  by_cases hi : i = 0
  · subst hi
    have hsent : (Runs.run codes.step (Pool.idle noCodes) (sendOnce 0)).calls 0 =
        some ⟨phoneTwo, 0, .done .sent⟩ := by decide +kernel
    obtain rfl := Option.some.inj (hsent.symm.trans hc)
    cases hflies
  · have hnone : (Runs.run codes.step (Pool.idle noCodes) (sendOnce 0)).calls i = none := by
      refine codes.calls_run fun act hact => ?_
      simp only [sendOnce, List.mem_cons, List.not_mem_nil, or_false] at hact
      rcases hact with rfl | rfl | rfl | rfl
      all_goals exact fun heq => hi (Option.some.inj heq).symm
    cases hnone.symm.trans hc

/-! ## Codes that are accepted -/

/-- A call saves the code of the phone. -/
def Saves (phone code : String) (p : CodePool) : CodeAct → Prop
  | .move i d => ∃ c, p.calls i = some c ∧ c.phone = phone ∧ c.stage = .saving code ∧ d.1.happens = true
  | _ => False

/-- A login's code is accepted. -/
def Accepts (phone code : String) (s : CodeStore) : Prop :=
  (Plan.run s.now (loginCodeConsume s.login phone code) s.login).1 = .answer 1

/-- A code of the phone is saved or accepted. -/
def Turns (phone : String) (p : CodePool) (act : CodeAct) : Prop :=
  (∃ code, Saves phone code p act) ∨ ∃ code, act = .drift (.consume phone code) ∧ Accepts phone code p.store

section accepted

variable {phone code : String} {s : CodeStore} {p : CodePool}

/-- **A code is tried**: it is accepted and gone, or nothing changes. -/
theorem consume_cases (ks : Keyspace LoginKey) (now : ℕ) (phone code : String) :
    (ks.get (.code phone) = some code ∧ Plan.run now (loginCodeConsume ks phone code) ks =
        (.answer 1, ks.remove (.code phone))) ∨
      ∃ o, o ≠ .answer 1 ∧ Plan.run now (loginCodeConsume ks phone code) ks = (o, ks) := by
  by_cases htyped : Typed ks (.code phone) .string
  · by_cases hget : ks.get (.code phone) = some code
    · left
      refine ⟨hget, ?_⟩
      have hplan : loginCodeConsume ks phone code = .ok ([.del (.code phone)], 1) := by
        rw [loginCodeConsume, Guards.ensure_of htyped, Guards.ensure_of hget]
      rw [Plan.run_single now hplan]
      rfl
    · right
      have hplan : loginCodeConsume ks phone code = .error (.answer 0) := by
        rw [loginCodeConsume, Guards.ensure_of htyped, Guards.ensure_of_not hget]
      exact ⟨.answer 0, by simp, Plan.run_error now hplan ks⟩
  · right
    have hplan : loginCodeConsume ks phone code = .error (.raised .wrongType) := by
      rw [loginCodeConsume, Guards.ensure_of_not htyped]
    exact ⟨.raised .wrongType, by simp, Plan.run_error now hplan ks⟩

/-- What is under the key of the phone after a step that neither saves nor accepts a code of it. -/
theorem entry_step {act : CodeAct} (hact : ¬ Turns phone p act) {e : Entry}
    (he : (codes.step p act).store.login (.code phone) = some e) : p.store.login (.code phone) = some e := by
  rcases codes.step_cases p act with hstep | ⟨i, r, -, -, hstep⟩ | ⟨i, d, c, rfl, hc, hstep⟩ |
    ⟨ev, rfl, hstep⟩
  · rwa [hstep] at he
  · rwa [hstep] at he
  · rw [hstep] at he
    replace he : (c.move d.1 d.2 p.store).1.login (.code phone) = some e := he
    unfold SendCall.move at he
    split at he
    · rcases d.1.perform_cases (CodeStore.acquireCooldown c.phone) p.store with heq | heq
      · rw [heq] at he
        unfold CodeStore.acquireCooldown at he
        split at he <;> exact he
      · rwa [heq] at he
    · exact he
    · rename_i code' hstage
      unfold Fate.perform at he
      split at he
      · rename_i hhappens
        replace he : p.store.login.replace (.code c.phone) _ (.code phone) = some e := he
        rw [Keyspace.replace_of_ne] at he
        · exact he
        · intro heq
          exact hact (.inl ⟨code', c, hc, (LoginKey.code.inj heq).symm, hstage, hhappens⟩)
      · exact he
    · rcases d.1.perform_cases (CodeStore.releaseCooldown c.phone) p.store with heq | heq
      · rwa [heq] at he
      · rwa [heq] at he
    · exact he
  · rw [hstep] at he
    cases ev with
    | tick d =>
      replace he : p.store.login.purge (p.store.now + d) (.code phone) = some e := he
      rcases p.store.login.purge_eq_or_none (p.store.now + d) (.code phone) with heq | heq
      · rwa [heq] at he
      · rw [heq] at he
        cases he
    | consume other code =>
      replace he : (Plan.run p.store.now (loginCodeConsume p.store.login other code) p.store.login).2
        (.code phone) = some e := he
      rcases consume_cases p.store.login p.store.now other code with ⟨-, hrun⟩ | ⟨o, -, hrun⟩
      · rw [hrun] at he
        replace he : p.store.login.remove (.code other) (.code phone) = some e := he
        rw [Keyspace.remove_apply] at he
        split at he
        · cases he
        · exact he
      · rwa [hrun] at he

/-- What is under the key of the phone after its code was saved, or accepted. -/
theorem entry_turn {act : CodeAct} (hact : Turns phone p act) {e : Entry}
    (he : (codes.step p act).store.login (.code phone) = some e) :
    ∃ code, Saves phone code p act ∧ e = ⟨.str code, some (p.store.now + codeMillis)⟩ := by
  rcases hact with ⟨code, hsaves⟩ | ⟨code, rfl, haccepts⟩
  · refine ⟨code, hsaves, ?_⟩
    cases act with
    | move i d =>
      obtain ⟨c, hc, rfl, hstage, hhappens⟩ := hsaves
      rw [codes.step_move hc] at he
      replace he : (c.move d.1 d.2 p.store).1.login (.code c.phone) = some e := he
      unfold SendCall.move Fate.perform CodeStore.saveCode at he
      simp only [hstage, hhappens, if_true, Keyspace.replace_self, Option.some.injEq] at he
      exact he.symm
    | _ => exact hsaves.elim
  · -- a code that was accepted is gone
    replace he : (Plan.run p.store.now (loginCodeConsume p.store.login phone code) p.store.login).2
      (.code phone) = some e := he
    rcases consume_cases p.store.login p.store.now phone code with ⟨-, hrun⟩ | ⟨o, hne, hrun⟩
    · rw [hrun] at he
      replace he : p.store.login.remove (.code phone) (.code phone) = some e := he
      rw [Keyspace.remove_apply, if_pos rfl] at he
      cases he
    · unfold Accepts at haccepts
      rw [hrun] at haccepts
      exact absurd haccepts hne

/-- An entry has not expired. -/
theorem entry_alive {act : CodeAct} {v : Value} {t : ℕ}
    (hbefore : ∀ v t, p.store.login (.code phone) = some ⟨v, some t⟩ → p.store.now ≤ t)
    (he : (codes.step p act).store.login (.code phone) = some ⟨v, some t⟩) :
    (codes.step p act).store.now ≤ t := by
  by_cases hturn : Turns phone p act
  · obtain ⟨code, hsaves, heq⟩ := entry_turn hturn he
    obtain ⟨-, ht⟩ := Entry.mk.inj heq
    obtain rfl := Option.some.inj ht
    cases act with
    | move i d =>
      obtain ⟨c, hc, -⟩ := hsaves
      rw [codes.step_move hc]
      show (c.move d.1 d.2 p.store).1.now ≤ _
      rw [move_now]
      exact Nat.le_add_right _ _
    | _ => exact hsaves.elim
  · have hold := hbefore v t (entry_step hturn he)
    rcases codes.step_cases p act with hstep | ⟨i, r, -, -, hstep⟩ | ⟨i, d, c, -, -, hstep⟩ |
      ⟨ev, rfl, hstep⟩
    · rwa [hstep]
    · rwa [hstep]
    · rw [hstep]
      show (c.move d.1 d.2 p.store).1.now ≤ t
      rwa [move_now]
    · cases ev with
      | tick d =>
        replace he : p.store.login.purge (p.store.now + d) (.code phone) = some _ := he
        have halive := (Option.filter_eq_some_iff.mp he).2
        show p.store.now + d ≤ t
        simpa [Entry.alive] using halive
      | consume other code => exact hold

/-- What is under the key of the phone was saved last, and nothing happened to it since. -/
theorem entry_run (hnone : p.store.login (.code phone) = none) (as : List CodeAct) {e : Entry}
    (he : (Runs.run codes.step p as).store.login (.code phone) = some e) :
    ∃ bs b cs code, as = bs ++ b :: cs ∧ Saves phone code (Runs.run codes.step p bs) b ∧
      e = ⟨.str code, some ((Runs.run codes.step p bs).store.now + codeMillis)⟩ ∧
      (Runs.run codes.step p as).store.now ≤ (Runs.run codes.step p bs).store.now + codeMillis ∧
      Runs.Along (fun q act => ¬ Turns phone q act) codes.step (Runs.run codes.step p (bs ++ [b])) cs := by
  have halive : ∀ (as : List CodeAct) v t,
      (Runs.run codes.step p as).store.login (.code phone) = some ⟨v, some t⟩ →
      (Runs.run codes.step p as).store.now ≤ t := by
    intro as
    refine Runs.run_invariant (I := fun q : CodePool => ∀ v t,
      q.store.login (.code phone) = some ⟨v, some t⟩ → q.store.now ≤ t) codes.step
      (fun q act hq v t he => entry_alive hq he) as fun v t he => ?_
    rw [hnone] at he
    cases he
  suffices hsaved : ∃ bs b cs code, as = bs ++ b :: cs ∧ Saves phone code (Runs.run codes.step p bs) b ∧
      e = ⟨.str code, some ((Runs.run codes.step p bs).store.now + codeMillis)⟩ ∧
      Runs.Along (fun q act => ¬ Turns phone q act) codes.step (Runs.run codes.step p (bs ++ [b])) cs by
    obtain ⟨bs, b, cs, code, has, hsaves, rfl, hquiet⟩ := hsaved
    exact ⟨bs, b, cs, code, has, hsaves, rfl, halive as _ _ he, hquiet⟩
  -- by the last action
  induction as using List.reverseRecOn with
  | nil =>
    rw [Runs.run_nil, hnone] at he
    cases he
  | append_singleton as act ih =>
    rw [Runs.run_append, Runs.run_cons, Runs.run_nil] at he
    by_cases hturn : Turns phone (Runs.run codes.step p as) act
    · obtain ⟨code, hsaves, rfl⟩ := entry_turn hturn he
      exact ⟨as, act, [], code, rfl, hsaves, rfl, trivial⟩
    · obtain ⟨bs, b, cs, code, rfl, hsaves, hentry, hquiet⟩ := ih (entry_step hturn he)
      refine ⟨bs, b, cs ++ [act], code, by rw [List.append_assoc, List.cons_append], hsaves, hentry, ?_⟩
      refine (Runs.along_append _ cs [act] _).mpr ⟨hquiet, ?_, trivial⟩
      rwa [← Runs.run_append, List.append_assoc, List.singleton_append]

end accepted

/-- **A code is accepted only if it is the last one saved for its phone, at most two minutes ago, and none
was accepted since**: in every run from a state without a code of the phone. So every code that is accepted
was saved for it anew. -/
theorem code_accepted (phone code : String) (p : CodePool) (hnone : p.store.login (.code phone) = none)
    (as : List CodeAct) (haccepts : Accepts phone code (Runs.run codes.step p as).store) :
    ∃ bs b cs, as = bs ++ b :: cs ∧ Saves phone code (Runs.run codes.step p bs) b ∧
      (Runs.run codes.step p as).store.now ≤ (Runs.run codes.step p bs).store.now + codeMillis ∧
      Runs.Along (fun q act => ¬ Turns phone q act) codes.step (Runs.run codes.step p (bs ++ [b])) cs := by
  rcases consume_cases (Runs.run codes.step p as).store.login (Runs.run codes.step p as).store.now phone
    code with ⟨hget, -⟩ | ⟨o, hne, hrun⟩
  · obtain ⟨t, hkey⟩ := Keyspace.exists_of_get hget
    obtain ⟨bs, b, cs, code', has, hsaves, hentry, hnow, hquiet⟩ := entry_run hnone as hkey
    obtain ⟨hvalue, -⟩ := Entry.mk.inj hentry
    obtain rfl := Value.str.inj hvalue
    exact ⟨bs, b, cs, has, hsaves, hnow, hquiet⟩
  · unfold Accepts at haccepts
    rw [hrun] at haccepts
    exact absurd haccepts hne

/-- A call before it saves its code. -/
def oneSaving : CodePool :=
  ⟨noCodes, fun i => if i = 0 then some ⟨phoneTwo, 0, .saving "123456"⟩ else none⟩

/-- The code that is accepted was saved by this call. -/
theorem oneSaving_accepted :
    ∃ bs b cs, [.move 0 (.answered, "")] = bs ++ b :: cs ∧
      Saves phoneTwo "123456" (Runs.run codes.step oneSaving bs) b ∧
      (Runs.run codes.step oneSaving [.move 0 (.answered, "")]).store.now ≤
        (Runs.run codes.step oneSaving bs).store.now + codeMillis ∧
      Runs.Along (fun q act => ¬ Turns phoneTwo q act) codes.step
        (Runs.run codes.step oneSaving (bs ++ [b])) cs :=
  code_accepted phoneTwo "123456" oneSaving rfl [.move 0 (.answered, "")] (by
    unfold Accepts
    decide +kernel)

end CampusHub.Identity
