import CampusHub.Foundations.Runs
import CampusHub.Identity.Login

/-!
# How often a code can be guessed

* `Counts` — the counter of a phone as a number.
* `Login.guessing`, `Login.failing` — the requests that passed the limit and are not counted yet.
* `Uncrowded` — a request passes the limit only while the counter and those requests are below it.
* `Guarded`, `Guarded.step` — then at most five wrong codes are compared.
* `guessing_bounded` — so it is in every state that such a run reaches.
* `guessing_unbounded` — requests that read the counter together compare more.

**Theorem** (`guessing_bounded`). Let every request that passes the limit do so while the counter of its
phone, with the requests of the phone that have passed and are not settled, is below five. Then in every
state at most five wrong codes of a phone were compared while its counter was open; and once there were
five, nobody is about to compare and whoever comes is refused.

**Theorem** (`guessing_unbounded`). Without that condition six were compared in some run: the counter is
read in one call of Redis and raised in another, so five requests that read it after one failure all pass.

**Proof route.** The condition is on the state before a read of the counter. `Guarded` adds up what is
counted and what is under way; each kind of step has its lemma, and `guarded_close` covers all steps after
which the counter is gone.

**Left out.** Limits in front of the application, as a proxy may have them.
-/

namespace CampusHub.Identity

open CampusHub.Redis CampusHub.Domain CampusHub.Foundations CampusHub.Foundations.Guards
open CampusHub.Foundations.Decimal

/-! ## The counter -/

/-- The counter of the phone is at `n`; it is absent at zero. -/
def Counts (ks : Keyspace LoginKey) (phone : String) (n : ℕ) : Prop :=
  (ks (.failure phone) = none ∧ n = 0) ∨ ∃ t, ks (.failure phone) = some ⟨.str (decimal n), t⟩

section counter

variable {ks ks' : Keyspace LoginKey} {phone p code : String} {n : ℕ} {now : ℕ}

/-- The counter is read off its own key. -/
theorem Counts.congr (h : Counts ks p n) (hkey : ks' (.failure p) = ks (.failure p)) :
    Counts ks' p n := by
  rwa [Counts, hkey]

/-- It is a string. -/
theorem Counts.typed (h : Counts ks p n) : Typed ks (.failure p) .string := by
  rcases h with ⟨hnone, -⟩ | ⟨t, hkey⟩
  · exact .inl (by rw [Keyspace.typeOf, hnone])
  · exact .inr (by rw [Keyspace.typeOf, hkey]; rfl)

/-- The counter as it is read. -/
theorem Counts.get (h : Counts ks p n) :
    (ks.get (.failure p) = none ∧ n = 0) ∨ ks.get (.failure p) = some (decimal n) := by
  rcases h with ⟨hnone, hn⟩ | ⟨t, hkey⟩
  · exact .inl ⟨by rw [Keyspace.get, hnone], hn⟩
  · exact .inr (by rw [Keyspace.get, hkey])

/-- A comparison leaves the counters alone. -/
theorem consume_frame (now : ℕ) (ks : Keyspace LoginKey) (phone code p : String) :
    (Plan.run now (loginCodeConsume ks phone code) ks).2 (.failure p) = ks (.failure p) := by
  cases hplan : loginCodeConsume ks phone code with
  | error o => rw [Plan.run_error now rfl]
  | ok r =>
    simp only [loginCodeConsume, ensure_bind_eq_ok] at hplan
    obtain ⟨-, -, hr⟩ := hplan
    obtain rfl := Except.ok.inj hr
    rw [Plan.run_single now rfl]
    show ks.remove (.code phone) (.failure p) = _
    rw [Keyspace.remove_apply, if_neg nofun]

/-- A code that is not the one of the phone is answered with `0`. -/
theorem consume_of_ne (now : ℕ) {stored : String} (hstored : ks.get (.code phone) = some stored)
    (hne : stored ≠ code) :
    (Plan.run now (loginCodeConsume ks phone code) ks).1 = .answer 0 := by
  have hplan : loginCodeConsume ks phone code = .error (.answer 0) := by
    obtain ⟨t, hkey⟩ := Keyspace.exists_of_get hstored
    have htyped : Typed ks (.code phone) .string :=
      .inr (by rw [Keyspace.typeOf, hkey]; rfl)
    rw [loginCodeConsume, ensure_of htyped, hstored]
    exact ensure_of_not fun h => hne (Option.some.inj h)
  rw [hplan]
  rfl

/-- **A failure is counted once.** -/
theorem increment_counts (now : ℕ) (h : Counts ks phone n) (hn : (n : ℤ) + 1 ≤ llongMax) :
    let ks' := (Plan.run now (loginFailureIncrement ks phone "600") ks).2
    Counts ks' phone (n + 1) ∧ ∀ k, k ≠ .failure phone → ks' k = ks k := by
  intro ks'
  have hread : string2ll ((ks.get (.failure phone)).getD "0") = some (n : ℤ) := by
    rcases h.get with ⟨hnone, rfl⟩ | hget
    · rw [hnone]
      rfl
    · rw [hget]
      exact string2ll_decimal (by omega)
  have hplan : loginFailureIncrement ks phone "600" =
      .ok (.incrby (.failure phone) 1 ::
        if (n : ℤ) + 1 = 1 then [.expireIn (.failure phone) "600" 1000] else [], (n : ℤ) + 1) := by
    rw [loginFailureIncrement, ensure_of h.typed, hread]
    rfl
  have hlo : -llongMax - 1 ≤ (n : ℤ) + 1 := by
    have : (0 : ℤ) ≤ llongMax := by decide
    omega
  have hincr : apply now ks (.incrby (.failure phone) 1) =
      .ok (ks.put (.failure phone) (.str (counterText ((n : ℤ) + 1)))) :=
    apply_incrby h.typed rfl hread hlo hn
  set ks₁ := ks.put (.failure phone) (.str (counterText ((n : ℤ) + 1))) with hks₁
  have htext : counterText ((n : ℤ) + 1) = decimal (n + 1) := by
    rw [← Nat.cast_succ, counterText_natCast]
  have hcount : ∀ t, Counts (ks.replace (.failure phone) (some ⟨.str (counterText ((n : ℤ) + 1)), t⟩))
      phone (n + 1) ∧ ∀ k, k ≠ .failure phone →
        ks.replace (.failure phone) (some ⟨.str (counterText ((n : ℤ) + 1)), t⟩) k = ks k := fun t =>
    ⟨.inr ⟨t, by rw [ks.replace_self, htext]⟩, fun k hk => ks.replace_of_ne _ hk⟩
  have hput : Counts ks₁ phone (n + 1) ∧ ∀ k, k ≠ .failure phone → ks₁ k = ks k := hcount _
  show Counts (Plan.run now _ ks).2 phone (n + 1) ∧ ∀ k, _ → (Plan.run now _ ks).2 k = ks k
  rw [hplan]
  split
  · -- the first failure opens the window
    cases hexpire : apply now ks₁ (.expireIn (.failure phone) "600" 1000) with
    | error e =>
      rw [Plan.run, exec_cons hincr, exec_cons_error hexpire]
      exact hput
    | ok ks₂ =>
      rw [Plan.run, exec_cons hincr, exec_cons hexpire, exec_nil]
      obtain rfl := apply_expireIn (d := 600) (by decide) hexpire
      have hself : ks₁.expire (.failure phone) (now + 600 * 1000) =
          ks.replace (.failure phone)
            (some ⟨.str (counterText ((n : ℤ) + 1)), some (now + 600 * 1000)⟩) := by
        show Keyspace.replace _ (LoginKey.failure phone) ((ks₁ (.failure phone)).map _) = _
        rw [hks₁, ks.put_self]
        exact ks.replace_replace ..
      rw [hself]
      exact hcount _
  · rw [Plan.run, exec_cons hincr, exec_nil]
    exact hput

/-- The window opens with a failure and its counter expires or is cleared. -/
theorem Counts.remove (h : Counts ks p n) (phone : String) :
    ∃ m, Counts (ks.remove (.failure phone)) p m ∧ m ≤ n ∧
      (m = n ∨ (ks (.failure p)).isSome ∧ ((ks.remove (.failure phone)) (.failure p)).isNone) := by
  by_cases hp : LoginKey.failure p = .failure phone
  · have hnone : ks.remove (.failure phone) (.failure p) = none := by
      rw [Keyspace.remove_apply, if_pos hp]
    refine ⟨0, .inl ⟨hnone, rfl⟩, Nat.zero_le n, ?_⟩
    rcases h with ⟨-, rfl⟩ | ⟨t, hkey⟩
    · exact .inl rfl
    · exact .inr ⟨by rw [hkey]; rfl, by rw [hnone]; rfl⟩
  · exact ⟨n, h.congr (by rw [Keyspace.remove_apply, if_neg hp]), le_rfl, .inl rfl⟩

/-- It may expire with the time, and else it stays. -/
theorem Counts.purge (h : Counts ks p n) (now : ℕ) :
    ∃ m, Counts (ks.purge now) p m ∧ m ≤ n ∧
      (m = n ∨ (ks (.failure p)).isSome ∧ ((ks.purge now) (.failure p)).isNone) := by
  rcases Keyspace.purge_eq_or_none ks now (.failure p) with hsame | hnone
  · exact ⟨n, h.congr hsame, le_rfl, .inl rfl⟩
  · refine ⟨0, .inl ⟨hnone, rfl⟩, Nat.zero_le n, ?_⟩
    rcases h with ⟨-, rfl⟩ | ⟨t, hkey⟩
    · exact .inl rfl
    · exact .inr ⟨by rw [hkey]; rfl, by rw [hnone]; rfl⟩

end counter

/-! ## Requests under way -/

/-- The failure is not counted yet. -/
def Stage.fails : Stage → Bool
  | .failing => true
  | _ => false

/-- The request passed the limit and has neither succeeded nor been counted. -/
def Stage.guesses : Stage → Bool
  | .admitted | .failing => true
  | _ => false

namespace Login

/-- The requests of a phone at one of the stages. -/
def under (s : Login) (P : Stage → Bool) (phone : String) : ℕ :=
  s.requests.countP fun r => r.phone = phone ∧ P r.stage

/-- The failures of a phone that are not counted yet. -/
def failing (s : Login) (phone : String) : ℕ := s.under Stage.fails phone

/-- The requests of a phone that passed the limit and have neither succeeded nor been counted. -/
def guessing (s : Login) (phone : String) : ℕ := s.under Stage.guesses phone

/-- The failure count of a phone. -/
def failures (s : Login) (phone : String) : ℤ :=
  ((s.redis.get (.failure phone)).bind parseLong).getD 0

section advance

variable {s : Login} {i : ℕ} {r : Request} {p : String} (stage : Stage) (P : Stage → Bool)

/-- A request that comes to another stage is counted there. -/
theorem under_advance (h : s.requests[i]? = some r) :
    (s.advance i r stage).under P r.phone + (P r.stage).toNat =
      s.under P r.phone + (P stage).toNat := by
  obtain ⟨hi, hr⟩ := List.getElem?_eq_some_iff.mp h
  have hle := List.boole_getElem_le_countP (p := fun r' : Request => r'.phone = r.phone ∧ P r'.stage) hi
  unfold under advance
  rw [List.countP_set hi]
  simp only [hr, true_and, Bool.decide_eq_true] at hle ⊢
  generalize s.requests.countP _ = c at hle ⊢
  generalize P r.stage = old at hle ⊢
  cases old <;> cases P stage <;> simp at hle ⊢
  all_goals omega

/-- A request at such a stage is counted there. -/
theorem under_pos (h : s.requests[i]? = some r) (hP : P r.stage = true) : 0 < s.under P r.phone := by
  rw [under, List.countP_pos_iff]
  exact ⟨r, List.mem_of_getElem? h, by simpa using hP⟩

/-- A failure that is not counted yet passed the limit. -/
theorem failing_le_guessing (s : Login) (p : String) : s.failing p ≤ s.guessing p := by
  refine List.countP_mono_left fun r _ h => ?_
  simp only [decide_eq_true_eq] at h ⊢
  refine ⟨h.1, ?_⟩
  cases hstage : r.stage with
  | failing => rfl
  | _ => simp [hstage, Stage.fails] at h

/-- The requests of other phones stay where they are. -/
theorem under_advance_of_ne (h : s.requests[i]? = some r) (hp : r.phone ≠ p) :
    (s.advance i r stage).under P p = s.under P p := by
  obtain ⟨hi, hr⟩ := List.getElem?_eq_some_iff.mp h
  unfold under advance
  rw [List.countP_set hi, hr]
  simp [hp]

/-- A request that passed the limit and did not compare its code yet is no failure. -/
theorem failing_lt_guessing (h : s.requests[i]? = some r) (hstage : r.stage = .admitted) :
    s.failing r.phone < s.guessing r.phone := by
  have hf := under_advance .failing Stage.fails h
  have hg := under_advance .failing Stage.guesses h
  have hle := (s.advance i r .failing).failing_le_guessing r.phone
  rw [hstage] at hf hg
  simp only [Stage.fails, Stage.guesses, Bool.toNat_true, Bool.toNat_false] at hf hg
  unfold failing guessing at *
  omega

end advance

end Login

/-! ## The limit -/

/-- **A request passes the limit only while the counter of its phone and the requests that passed it
before and are not counted yet are below it.** -/
def Uncrowded (s : Login) : LoginAct → Prop
  | .count i => ∀ r, s.requests[i]? = some r → r.stage = .started → s.failures r.phone < failureLimit →
      s.failures r.phone + s.guessing r.phone < failureLimit
  | _ => True

/-- **The counter and the requests that are not counted yet stay within the limit**, and every wrong code
that was compared is counted or about to be. -/
def Guarded (s : Login) (p : String) : Prop :=
  ∃ n, Counts s.redis p n ∧ n + s.guessing p ≤ 5 ∧ s.compared p ≤ n + s.failing p

section guarded

variable {s s' : Login} {p : String} {n : ℕ}

/-- What the source reads is the counter. -/
theorem failures_eq (h : Counts s.redis p n) (hn : (n : ℤ) ≤ llongMax) : s.failures p = n := by
  unfold Login.failures
  rcases h.get with ⟨hnone, rfl⟩ | hget
  · rw [hnone]
    rfl
  · rw [hget, Option.bind_some, parseLong_decimal hn]
    rfl

/-- What a request finds: it is refused at the limit and passes below it. -/
theorem countStage_cases {r : Request} (h : Counts s.redis r.phone n) (hn : (n : ℤ) ≤ llongMax) :
    (5 ≤ n ∧ s.countStage r = .done (.refused loginRateLimited)) ∨
      (n < 5 ∧ (s.countStage r = .admitted ∨ s.countStage r = .failing)) := by
  have hfind : findFailureCount s.redis r.phone = .ok (s.redis.get (.failure r.phone)) :=
    ensure_of h.typed
  have hpass : ∀ c : Bool, (if c then Stage.failing else .admitted) = .admitted ∨
      (if c then Stage.failing else .admitted) = .failing := by decide
  unfold Login.countStage
  rw [hfind]
  rcases h.get with ⟨hnone, rfl⟩ | hget
  · rw [hnone]
    exact .inr ⟨by decide, hpass _⟩
  · rw [hget]
    simp only [parseLong_decimal hn]
    have hlimit : failureLimit = 5 := rfl
    by_cases hle : failureLimit ≤ (n : ℤ)
    · rw [if_pos hle]
      exact .inl ⟨by omega, rfl⟩
    · rw [if_neg hle]
      exact .inr ⟨by omega, hpass _⟩

/-- The phone is guarded after a step that keeps the numbers within the limit, or that closes the
counter. -/
theorem guarded_close {t : Login} (hcount : Counts t.redis p n) (hguess : n + t.guessing p ≤ 5)
    (hcompared : t.compared p ≤ n + t.failing p ∨
      (s.redis (.failure p)).isSome ∧ (t.redis (.failure p)).isNone) :
    Guarded (s.close t) p := by
  refine ⟨n, hcount, hguess, ?_⟩
  show (if _ then 0 else t.compared p) ≤ n + t.failing p
  split
  · exact Nat.zero_le _
  · rename_i hopen
    exact hcompared.resolve_right hopen

/-- A request of another phone. -/
theorem guarded_other {i : ℕ} {r : Request} (h : Guarded s p) (hr : s.requests[i]? = some r)
    (hp : r.phone ≠ p) (stage : Stage) {ks : Keyspace LoginKey} {compared : String → ℕ}
    (hkey : ks (.failure p) = s.redis (.failure p)) (hcompared : compared p = s.compared p) :
    Guarded (s.close
      (({ s with redis := ks, compared := compared } : Login).advance i r stage)) p := by
  obtain ⟨n, hcount, hguess, hle⟩ := h
  refine guarded_close (hcount.congr hkey) ?_ (.inl ?_)
  · show n + (s.advance i r stage).under Stage.guesses p ≤ 5
    rw [Login.under_advance_of_ne stage _ hr hp]
    exact hguess
  · show compared p ≤ n + (s.advance i r stage).under Stage.fails p
    rw [Login.under_advance_of_ne stage _ hr hp, hcompared]
    exact hle

/-- A request of the phone. -/
theorem guarded_same {i : ℕ} {r : Request} (hr : s.requests[i]? = some r) (stage : Stage)
    {ks : Keyspace LoginKey} {compared : String → ℕ} (hcount : Counts ks r.phone n)
    (hguess : n + s.guessing r.phone + stage.guesses.toNat ≤ 5 + r.stage.guesses.toNat)
    (hle : compared r.phone + r.stage.fails.toNat ≤ n + s.failing r.phone + stage.fails.toNat ∨
      (s.redis (.failure r.phone)).isSome ∧ (ks (.failure r.phone)).isNone) :
    Guarded (s.close
      (({ s with redis := ks, compared := compared } : Login).advance i r stage)) r.phone := by
  have hg := Login.under_advance stage Stage.guesses hr
  have hf := Login.under_advance stage Stage.fails hr
  refine guarded_close hcount ?_ (hle.imp_left fun hle => ?_)
  · show n + (s.advance i r stage).under Stage.guesses r.phone ≤ 5
    unfold Login.guessing at hguess
    omega
  · show compared r.phone ≤ n + (s.advance i r stage).under Stage.fails r.phone
    unfold Login.failing at hle
    omega

/-- A step that changes nothing keeps the phone guarded. -/
theorem Guarded.idle (h : Guarded s p) : Guarded (s.close s) p := by
  obtain ⟨n, hcount, hguess, hcompared⟩ := h
  exact guarded_close hcount hguess (.inl hcompared)

/-- A request that begins keeps the phone guarded. -/
theorem Guarded.login (h : Guarded s p) (phone : String) (code : Option String) :
    Guarded (s.step (.login phone code)) p := by
  obtain ⟨n, hcount, hguess, hcompared⟩ := h
  unfold Login.step
  have hstage : (Login.startStage phone).guesses = false ∧ (Login.startStage phone).fails = false := by
    unfold Login.startStage
    split <;> decide
  have hnew : ∀ P : Stage → Bool, P (Login.startStage phone) = false →
      (s.move (.login phone code)).under P p = s.under P p := by
    intro P hP
    simp [Login.under, Login.move, hP]
  refine guarded_close (t := s.move (.login phone code)) hcount ?_ (.inl ?_)
  · rw [Login.guessing, hnew _ hstage.1]
    exact hguess
  · rw [Login.failing, hnew _ hstage.2]
    exact hcompared

/-- A request looks at the counter. -/
theorem Guarded.count (h : Guarded s p) {i : ℕ} (ha : Uncrowded s (.count i)) :
    Guarded (s.step (.count i)) p := by
  have hguarded := h
  obtain ⟨n, hcount, hguess, hcompared⟩ := h
  have hmax : (5 : ℤ) + 1 ≤ llongMax := by decide
  unfold Login.step
  simp only [Login.move]
  split
  · rename_i r hr
    split
    · rename_i hstarted
      by_cases hp : r.phone = p
      · subst hp
        have hlimit : failureLimit = 5 := rfl
        rcases countStage_cases hcount (by omega) with ⟨-, hstage⟩ | ⟨hlt, hstage⟩
        · rw [hstage]
          refine guarded_same hr _ hcount ?_ (.inl ?_)
          · rw [hstarted]
            exact hguess
          · rw [hstarted]
            exact hcompared
        · have hroom := ha r hr hstarted
          rw [failures_eq hcount (by omega)] at hroom
          have hroom := hroom (by omega)
          refine guarded_same hr _ hcount ?_ (.inl ?_)
          · have := (s.countStage r).guesses.toNat_le
            omega
          · rw [hstarted]
            show s.compared r.phone ≤ _
            omega
      · exact guarded_other hguarded hr hp _ rfl rfl
    · exact hguarded.idle
  · exact hguarded.idle

/-- A request consumes its code. -/
theorem Guarded.consume (h : Guarded s p) (i : ℕ) : Guarded (s.step (.consume i)) p := by
  have hguarded := h
  obtain ⟨n, hcount, hguess, hcompared⟩ := h
  unfold Login.step
  simp only [Login.move]
  split
  · rename_i r hr
    split
    · rename_i code hstage hcode
      by_cases hp : r.phone = p
      · subst hp
        generalize ho : Plan.run s.now (loginCodeConsume s.redis r.phone code) s.redis = o
        have hcount' : Counts o.2 r.phone n := by
          rw [← ho]
          exact hcount.congr (consume_frame ..)
        have hnot : Login.consumeStage o.1 ≠ .admitted := by
          unfold Login.consumeStage
          split
          · split <;> simp
          · simp
        have hone := (Login.consumeStage o.1).guesses.toNat_le
        refine guarded_same hr _ hcount' ?_ (.inl ?_)
        · rw [hstage]
          show _ ≤ 5 + 1
          omega
        · rw [hstage]
          split
          · -- a wrong code is compared, and the failure is to be counted
            rename_i hwrong
            have hzero : o.1 = .answer 0 := by
              unfold Login.wrong at hwrong
              split at hwrong
              · rename_i stored hstored
                rw [← ho]
                exact consume_of_ne s.now hstored (by simpa using hwrong)
              · cases hwrong
            rw [hzero, Function.update_self]
            show s.compared r.phone + 1 + 0 ≤ n + s.failing r.phone + 1
            omega
          · show s.compared r.phone + 0 ≤ _
            omega
      · refine guarded_other hguarded hr hp _ (consume_frame ..) ?_
        split
        · exact Function.update_of_ne (Ne.symm hp) ..
        · rfl
    · exact hguarded.idle
  · exact hguarded.idle

/-- A failure is counted. -/
theorem Guarded.record (h : ∀ p, Guarded s p) (i : ℕ) (p : String) :
    Guarded (s.step (.record i)) p := by
  obtain ⟨n, hcount, hguess, hcompared⟩ := h p
  have hmax : (5 : ℤ) + 1 ≤ llongMax := by decide
  unfold Login.step
  simp only [Login.move]
  split
  · rename_i r hr
    split
    · rename_i hfailing
      generalize hstage : Login.recordStage _ = stage
      have hdone : stage.guesses = false ∧ stage.fails = false := by
        rw [← hstage]
        unfold Login.recordStage
        split <;> exact ⟨rfl, rfl⟩
      generalize ho : Plan.run s.now (loginFailureIncrement s.redis r.phone "600") s.redis = o
      by_cases hp : r.phone = p
      · subst hp
        have hone : 0 < s.guessing r.phone := Login.under_pos _ hr (by rw [hfailing]; rfl)
        have hcount' : Counts o.2 r.phone (n + 1) := by
          rw [← ho]
          exact (increment_counts s.now hcount (by omega)).1
        refine guarded_same hr _ hcount' ?_ (.inl ?_)
        · rw [hfailing, hdone.1]
          show n + 1 + s.guessing r.phone + 0 ≤ 5 + 1
          omega
        · rw [hfailing, hdone.2]
          show s.compared r.phone + 1 ≤ n + 1 + s.failing r.phone + 0
          omega
      · obtain ⟨m, hm, hle, -⟩ := h r.phone
        refine guarded_other (h p) hr hp _ ?_ rfl
        rw [← ho]
        exact (increment_counts s.now hm (by omega)).2 _ fun heq => hp (LoginKey.failure.inj heq).symm
    · exact (h p).idle
  · exact (h p).idle

/-- A session is issued, or not. -/
theorem Guarded.issue (h : Guarded s p) (i : ℕ) (status : String) (token : Option String) :
    Guarded (s.step (.issue i status token)) p := by
  have hguarded := h
  obtain ⟨n, hcount, hguess, hcompared⟩ := h
  unfold Login.step
  simp only [Login.move]
  split
  · rename_i r hr
    split
    · rename_i hconsumed
      have hstage : (Login.issueStage status token).guesses = false ∧
          (Login.issueStage status token).fails = false := by
        unfold Login.issueStage
        split
        · exact ⟨rfl, rfl⟩
        · split <;> exact ⟨rfl, rfl⟩
      by_cases hp : r.phone = p
      · subst hp
        refine guarded_same hr _ hcount ?_ (.inl ?_)
        · rw [hconsumed, hstage.1]
          exact hguess
        · rw [hconsumed, hstage.2]
          exact hcompared
      · exact guarded_other hguarded hr hp _ rfl rfl
    · exact hguarded.idle
  · exact hguarded.idle

/-- The counter goes away after a success. -/
theorem Guarded.clear (h : Guarded s p) (i : ℕ) : Guarded (s.step (.clear i)) p := by
  have hguarded := h
  obtain ⟨n, hcount, hguess, hcompared⟩ := h
  unfold Login.step
  simp only [Login.move]
  split
  · rename_i r hr
    split
    · rename_i token hissued
      obtain ⟨m, hcount', hm, hclosed⟩ := hcount.remove r.phone
      by_cases hp : r.phone = p
      · subst hp
        refine guarded_same hr _ hcount' ?_ ?_
        · rw [hissued]
          show m + s.guessing r.phone + 0 ≤ 5 + 0
          omega
        · rw [hissued]
          refine hclosed.imp_left fun hm => ?_
          subst hm
          exact hcompared
      · refine guarded_other hguarded hr hp _ ?_ rfl
        rw [Keyspace.remove_apply, if_neg fun heq => hp (LoginKey.failure.inj heq).symm]
    · exact hguarded.idle
  · exact hguarded.idle

/-- A new code is sent. -/
theorem Guarded.send (h : Guarded s p) (phone code : String) : Guarded (s.step (.send phone code)) p := by
  obtain ⟨n, hcount, hguess, hcompared⟩ := h
  unfold Login.step
  have hother : LoginKey.failure p ≠ .code phone := nofun
  have hstore : s.redis.store (.code phone) (.str code) (.failure p) = s.redis (.failure p) := by
    rw [Keyspace.store_apply, if_neg hother]
  have hexpire := (s.redis.store (.code phone) (.str code)).expire_of_ne (s.now + 120000) hother
  exact guarded_close (t := s.move (.send phone code)) (hcount.congr (hexpire.trans hstore)) hguess
    (.inl hcompared)

/-- Time that passes keeps the phone guarded. -/
theorem Guarded.tick (h : Guarded s p) (d : ℕ) : Guarded (s.step (.tick d)) p := by
  obtain ⟨n, hcount, hguess, hcompared⟩ := h
  unfold Login.step
  obtain ⟨m, hcount', hm, hclosed⟩ := hcount.purge (s.now + d)
  refine guarded_close (t := s.move (.tick d)) hcount' ?_ ?_
  · show m + s.guessing p ≤ 5
    omega
  · refine hclosed.imp_left fun hm => ?_
    subst hm
    exact hcompared

/-- **Every step keeps the phones guarded** if no request passes the limit in a crowd. -/
theorem Guarded.step (h : ∀ p, Guarded s p) {a : LoginAct} (ha : Uncrowded s a) (p : String) :
    Guarded (s.step a) p := by
  cases a with
  | login phone code => exact (h p).login phone code
  | count i => exact (h p).count ha
  | consume i => exact (h p).consume i
  | record i => exact Guarded.record h i p
  | issue i status token => exact (h p).issue i status token
  | clear i => exact (h p).clear i
  | send phone code => exact (h p).send phone code
  | tick d => exact (h p).tick d

end guarded

/-! ## Runs -/

/-- Before the first request nothing was compared. -/
theorem guarded_initial (now : ℕ) (p : String) : Guarded (Login.initial now) p :=
  ⟨0, .inl ⟨rfl, rfl⟩, Nat.zero_le 5, Nat.zero_le _⟩

/-- The phones stay guarded along a run in which no request passes the limit in a crowd. -/
theorem guarded_run {now : ℕ} {as : List LoginAct}
    (huncrowded : Runs.Along Uncrowded Login.step (Login.initial now) as) (p : String) :
    Guarded (Runs.run Login.step (Login.initial now) as) p :=
  Runs.run_invariant_of_along (I := fun s : Login => ∀ p, Guarded s p) _
    (fun _ _ hs ha p => Guarded.step hs ha p) as _ (guarded_initial now) huncrowded p

/-- **What the limit is for**: at most five wrong codes of a phone are compared while its counter is
open, and after the fifth every request is refused without a comparison. -/
structure GuessesBounded (s : Login) (p : String) : Prop where
  compared_le : s.compared p ≤ 5
  /-- Nobody is about to compare a code. -/
  waiting : s.compared p = 5 → ∀ (i : ℕ) (r : Request), s.requests[i]? = some r → r.phone = p → r.stage ≠ .admitted
  /-- Whoever comes is refused. -/
  refused : s.compared p = 5 → ∀ (i : ℕ) (r : Request), s.requests[i]? = some r → r.phone = p → r.stage = .started →
    Uncrowded s (.count i) →
      (s.step (.count i)).requests[i]? = some { r with stage := .done (.refused loginRateLimited) }

/-- A phone that is guarded is not guessed more than five times. -/
theorem Guarded.bounded {s : Login} {p : String} (h : Guarded s p) : GuessesBounded s p := by
  obtain ⟨n, hcount, hguess, hcompared⟩ := h
  have hle := s.failing_le_guessing p
  have hmax : (5 : ℤ) ≤ llongMax := by decide
  have hlimit : failureLimit = 5 := rfl
  refine ⟨by omega, fun hfive i r hr hp hadmitted => ?_, fun hfive i r hr hp hstarted hroom => ?_⟩
  · subst hp
    have hlt := Login.failing_lt_guessing hr hadmitted
    omega
  · subst hp
    have hfull : s.countStage r = .done (.refused loginRateLimited) := by
      rcases countStage_cases hcount (by omega) with ⟨-, hstage⟩ | ⟨hlt, -⟩
      · exact hstage
      · have hroom := hroom r hr hstarted
        rw [failures_eq hcount (by omega)] at hroom
        omega
    have hi := (List.getElem?_eq_some_iff.mp hr).1
    have hmove : s.move (.count i) = s.advance i r (s.countStage r) := by
      simp only [Login.move, hr, hstarted, if_true]
    show (s.move (.count i)).requests[i]? = _
    rw [hmove, hfull]
    exact List.getElem?_set_self hi

/-- **Guessing is bounded when requests do not pass the limit in a crowd.** -/
theorem guessing_bounded (now : ℕ) (as : List LoginAct) (p : String)
    (huncrowded : Runs.Along Uncrowded Login.step (Login.initial now) as) :
    GuessesBounded (Runs.run Login.step (Login.initial now) as) p :=
  (guarded_run huncrowded p).bounded

/-- A phone. -/
def phoneOne : String := "13800000000"

/-- A request with a wrong code, from its start to its end. -/
def failedLogin (i : ℕ) : List LoginAct :=
  [.login phoneOne (some "000000"), .count i, .consume i, .record i]

/-- A code is sent, and two wrong ones are tried one after the other. -/
def guessTwice : List LoginAct := .send phoneOne "123456" :: failedLogin 0 ++ failedLogin 1

/-- Two wrong codes are two. -/
theorem guessTwice_bounded :
    GuessesBounded (Runs.run Login.step (Login.initial 0) guessTwice) phoneOne := by
  refine guessing_bounded 0 guessTwice phoneOne
    ⟨trivial, trivial, ?_, trivial, trivial, trivial, ?_, trivial, trivial, trivial⟩
  all_goals
    intro r hr _ _
    obtain rfl := Option.some.inj hr
    decide +kernel

/-- Five requests read the counter after one failure, and then compare their codes. -/
def crowd : List LoginAct :=
  .send phoneOne "123456" :: failedLogin 0 ++
    [.login phoneOne (some "000001"), .login phoneOne (some "000002"), .login phoneOne (some "000003"),
      .login phoneOne (some "000004"), .login phoneOne (some "000005"),
      .count 1, .count 2, .count 3, .count 4, .count 5,
      .consume 1, .consume 2, .consume 3, .consume 4, .consume 5]

/-- **Requests that pass the limit together are not bounded by it.** -/
theorem guessing_unbounded : ¬ ∀ (now : ℕ) (as : List LoginAct) (p : String),
    (Runs.run Login.step (Login.initial now) as).compared p ≤ 5 := by
  intro hall
  have hsix := hall 0 crowd phoneOne
  revert hsix
  decide +kernel

end CampusHub.Identity
