import CampusHub.Access.Authentication

/-!
# Who writes a shop

* `shops_move` — what a step of a request does to the shops.
* `KeepsMerchants` — no shop changes its merchant.
* `Manages`, `Permitted` — what the guard of a request found.
* `guard_truthful` — a request does its work only if its guard was met during the request.
* `shop_written_by_its_keepers` — a shop is written only for an administrator or for an active member of the
  merchant that it has.

**Theorem** (`guard_truthful`). A request comes past its guard only if its roles alone meet it, or if at
some time after its admission the account was an active member of the merchant that the guard asks for.
Where the guard asks for a shop, the shop still has that merchant.

**Theorem** (`shop_written_by_its_keepers`). Whenever a step changes the row of a shop, it is the step of an
admitted request for an administrator, or for a merchant who was an active member of the merchant of that
row; and a row that was there keeps its merchant.

**Proof route.** The merchant of a shop is read in one step and the membership in another. That they fit
together follows from `keepsMerchants_of_write`: no write changes the merchant of a shop, so what was read
of it stays.

**Left out.** A membership that ends between the guard and the write: the guard is not asked again.
-/

namespace CampusHub.Access

open CampusHub.Domain CampusHub.Redis CampusHub.Identity CampusHub.Foundations
open CampusHub.Foundations.Maps CampusHub.Foundations.Pools

/-! ## What a request does to the shops -/

/-- The shop is there, with the merchant. -/
def AccessStore.Owned (s : AccessStore) (id : ℤ) (merchantId : Option ℤ) : Prop :=
  ∃ row, s.tables.shops id = some row ∧ row.merchantId = merchantId

/-- The merchants of the shops are still theirs. -/
def KeepsMerchants (s s' : AccessStore) : Prop :=
  ∀ id merchantId, s.Owned id merchantId → s'.Owned id merchantId

/-- A request that writes a shop carries the merchant of the shop. Source: `ShopServiceImpl.java` 72–73. -/
def Carries (s : AccessStore) (c : WebCall) : Prop :=
  ∀ who merchantId id columns, c.stage = .writing who merchantId → c.op = .updateShop id columns →
    s.Owned id merchantId

/-- What a step writes into the shops: nothing, a new shop, or the columns of a shop. -/
inductive ShopWrite (c : WebCall) (s : AccessStore) : (ℤ → Option ShopRow) → Prop where
  | nothing : ShopWrite c s s.tables.shops
  | create (who : Principal) (id : ℤ) (merchantId : Option ℤ) (columns : Columns)
      (hstage : c.stage = .executing who) (hop : c.op = .createShop id merchantId columns)
      (hfree : s.tables.shops id = none) :
      ShopWrite c s (Function.update s.tables.shops id (some ⟨merchantId, writeFields ∅ columns⟩))
  | update (who : Principal) (merchantId : Option ℤ) (id : ℤ) (columns : Columns) (row : ShopRow)
      (hstage : c.stage = .writing who merchantId) (hop : c.op = .updateShop id columns)
      (hrow : s.tables.shops id = some row) :
      ShopWrite c s (Function.update s.tables.shops id (some (updateRow merchantId columns row)))

section writes

variable {lib : Hutool} {s s' : AccessStore} {c : WebCall}

/-- **What a step of a request does to the shops.** -/
theorem shops_move (lib : Hutool) (d : Fate × Faults) (s : AccessStore) (c : WebCall) :
    ShopWrite c s (c.move lib d s).1.tables.shops := by
  have hserve : ∀ a, ShopWrite c s (d.1.perform (.serve a) s).tables.shops := by
    intro a
    rcases d.1.perform_cases (.serve a) s with heq | heq
    · rw [heq]
      exact .nothing
    · rw [heq]
      exact .nothing
  have hput : ∀ id row, ShopWrite c s (Function.update s.tables.shops id (some row)) →
      ShopWrite c s (d.1.perform (.putShop id row) s).tables.shops := by
    intro id row h
    rcases d.1.perform_cases (.putShop id row) s with heq | heq
    · rw [heq]
      exact h
    · rw [heq]
      exact .nothing
  unfold WebCall.move
  cases hstage : c.stage with
  | rejecting => exact hserve _
  | granted userId observed authorities => exact hserve _
  | executing who =>
    dsimp only
    unfold WebCall.execute
    cases hop : c.op with
    | logout =>
      dsimp only
      split
      · exact .nothing
      · exact hserve _
    | createShop id merchantId columns =>
      dsimp only
      split
      · exact .nothing
      · rename_i hfree
        exact hput _ _ (.create who id merchantId columns hstage hop (Option.not_isSome_iff_eq_none.mp hfree))
    | _ => exact .nothing
  | writing who merchantId =>
    dsimp only
    cases hop : c.op with
    | updateShop id columns =>
      dsimp only
      split
      · exact .nothing
      · rename_i row hrow
        exact hput _ _ (.update who merchantId id columns row hstage hop hrow)
    | _ => exact .nothing
  | _ => exact .nothing

/-- A row that a step changes is the one that its request is about. -/
theorem ShopWrite.row {shops : ℤ → Option ShopRow} {id : ℤ} (h : ShopWrite c s shops)
    (hne : shops id ≠ s.tables.shops id) :
    (∃ who merchantId columns row, c.stage = .executing who ∧ c.op = .createShop id merchantId columns ∧
      s.tables.shops id = none ∧ shops id = some row ∧ row.merchantId = merchantId) ∨
    ∃ who merchantId columns row, c.stage = .writing who merchantId ∧ c.op = .updateShop id columns ∧
      s.tables.shops id = some row ∧ shops id = some (updateRow merchantId columns row) := by
  cases h with
  | nothing => exact absurd rfl hne
  | create who id' merchantId columns hstage hop hfree =>
    by_cases hid : id = id'
    · subst hid
      exact .inl ⟨who, merchantId, columns, _, hstage, hop, hfree, Function.update_self .., rfl⟩
    · exact absurd (Function.update_of_ne hid ..) hne
  | update who merchantId id' columns row hstage hop hrow =>
    by_cases hid : id = id'
    · subst hid
      exact .inr ⟨who, merchantId, columns, row, hstage, hop, hrow, Function.update_self ..⟩
    · exact absurd (Function.update_of_ne hid ..) hne

/-- Where nothing was written every shop keeps its merchant. -/
theorem KeepsMerchants.refl (s : AccessStore) : KeepsMerchants s s := fun _ _ h => h

/-- What two steps keep their run keeps. -/
theorem KeepsMerchants.trans {s₁ s₂ s₃ : AccessStore} (h : KeepsMerchants s₁ s₂) (h' : KeepsMerchants s₂ s₃) :
    KeepsMerchants s₁ s₃ := fun id merchantId hs => h' id merchantId (h id merchantId hs)

/-- The merchant of a shop is one. -/
theorem AccessStore.Owned.unique {id : ℤ} {m m' : Option ℤ} (h : s.Owned id m) (h' : s.Owned id m') :
    m = m' := by
  obtain ⟨row, hrow, rfl⟩ := h
  obtain ⟨row', hrow', rfl⟩ := h'
  rw [hrow] at hrow'
  rw [Option.some.inj hrow']

/-- A written row has the merchant that it had. -/
theorem merchant_updateRow (columns : Columns) (row : ShopRow) :
    (updateRow row.merchantId columns row).merchantId = row.merchantId := by
  show row.merchantId.or row.merchantId = row.merchantId
  cases row.merchantId <;> rfl

/-- The merchant of a row that a request writes. -/
theorem Carries.merchant (h : Carries s c) {who : Principal} {merchantId : Option ℤ} {id : ℤ}
    {columns : Columns} {row : ShopRow} (hstage : c.stage = .writing who merchantId)
    (hop : c.op = .updateShop id columns) (hrow : s.tables.shops id = some row) :
    merchantId = row.merchantId :=
  (h who merchantId id columns hstage hop).unique ⟨row, hrow, rfl⟩

/-- **No step changes the merchant of a shop.** -/
theorem keepsMerchants_of_write {shops : ℤ → Option ShopRow} (h : ShopWrite c s shops) (hc : Carries s c)
    (hshops : s'.tables.shops = shops) : KeepsMerchants s s' := by
  rintro id' m ⟨row', hrow', rfl⟩
  unfold AccessStore.Owned
  rw [hshops]
  cases h with
  | nothing => exact ⟨row', hrow', rfl⟩
  | create who id merchantId columns hstage hop hfree =>
    refine ⟨row', ?_, rfl⟩
    rw [Function.update_of_ne, hrow']
    rintro rfl
    rw [hfree] at hrow'
    cases hrow'
  | update who merchantId id columns row hstage hop hrow =>
    by_cases hid : id' = id
    · subst hid
      obtain rfl := hc.merchant hstage hop hrow
      obtain rfl := Option.some.inj (hrow.symm.trans hrow')
      exact ⟨_, Function.update_self .., merchant_updateRow columns row⟩
    · exact ⟨row', by rw [Function.update_of_ne hid, hrow'], rfl⟩

/-- A shop that keeps its merchant is carried on. -/
theorem Carries.mono (h : Carries s c) (hkeeps : KeepsMerchants s s') : Carries s' c :=
  fun who merchantId id columns hstage hop => hkeeps _ _ (h who merchantId id columns hstage hop)

/-- A step of a request leaves it carrying the merchant. -/
theorem carries_move (d : Fate × Faults) (h : Carries s c) :
    Carries (c.move lib d s).1 (c.move lib d s).2 := by
  intro who merchantId id columns hstage hop
  rw [op_move] at hop
  have horigin := origin_move lib d s c
  rw [hstage] at horigin
  refine keepsMerchants_of_write (shops_move lib d s c) h rfl id merchantId ?_
  rcases horigin with ⟨-, id', columns', row, hop', hrow, hmerchant⟩ | ⟨-, hother⟩
  · rw [hop] at hop'
    obtain ⟨rfl, rfl⟩ := Operation.updateShop.inj hop'
    exact ⟨row, hrow, hmerchant⟩
  · exact absurd hop (hother id columns)

end writes

section runs

variable {lib : Hutool}

/-- The surroundings write no shop. -/
theorem drift_shops (e : AccessEvent) (s : AccessStore) : (e.apply s).tables.shops = s.tables.shops := by
  cases e <;> rfl

/-- Every request carries the merchant of the shop that it writes. -/
theorem carries_step {p : WebPool} (h : Asserts (fun _ => True) Carries p) (act : WebAct) :
    Asserts (fun _ => True) Carries ((web lib).step p act) ∧
      KeepsMerchants p.store ((web lib).step p act).store := by
  have hmove : ∀ i d c, p.calls i = some c → KeepsMerchants p.store (c.move lib d p.store).1 :=
    fun i d c hc => keepsMerchants_of_write (shops_move lib d p.store c) (h.calls i c hc) rfl
  have hdrift : ∀ e : AccessEvent, KeepsMerchants p.store (e.apply p.store) :=
    fun e => keepsMerchants_of_write (c := ⟨"", .logout, anonymous⟩) .nothing
      (fun _ _ _ _ hstage => by cases hstage) (drift_shops e p.store)
  constructor
  · refine h.step (fun i r _ => ?_) (fun i d c _ hc => ?_) fun e _ => ?_
    · intro who merchantId id columns hstage
      change (startRequest lib r.1 r.2).stage = _ at hstage
      unfold startRequest at hstage
      split at hstage
      · cases hstage
      · dsimp only at hstage
        split at hstage <;> cases hstage
    · exact ⟨trivial, carries_move d (h.calls i c hc),
        fun j u _ hu => (h.calls j u hu).mono (hmove i d c hc)⟩
    · exact ⟨trivial, fun i c hc => (h.calls i c hc).mono (hdrift e)⟩
  · rcases (web lib).step_cases p act with hstep | ⟨i, r, -, -, hstep⟩ | ⟨i, d, c, -, hc, hstep⟩ |
      ⟨e, -, hstep⟩
    · rw [hstep]
      exact .refl _
    · rw [hstep]
      exact .refl _
    · rw [hstep]
      exact hmove i d c hc
    · rw [hstep]
      exact hdrift e

/-- Every request of a run carries the merchant of its shop. -/
theorem carries_run (lib : Hutool) (s : AccessStore) (as : List WebAct) :
    Asserts (fun _ => True) Carries (reached lib s as) := by
  have hstep : ∀ (p : WebPool) act, Asserts (fun _ => True) Carries p →
      Asserts (fun _ => True) Carries ((web lib).step p act) := fun _ act h => (carries_step h act).1
  exact Runs.run_invariant _ hstep as (asserts_idle trivial)

end runs

/-! ## What a guard found -/

section guards

variable (lib : Hutool) (s : AccessStore) (i : ℕ) (token : String) (op : Operation)

/-- After it was admitted, the account of the request is an active member of the merchant. -/
def Manages (who : Principal) (merchantId : ℤ) (as : List WebAct) : Prop :=
  Runs.Once (Admitted lib s i token op who) as ∧ (reached lib s as).store.ActiveMember who merchantId

/-- What met the guard of the request. -/
def Permitted (who : Principal) (as : List WebAct) : Prop :=
  match op.guard.evaluate who with
  | .allow => True
  | .deny => False
  | .member merchantId => Runs.Once (Manages lib s i token op who merchantId) as
  | .shop shopId => ∃ merchantId, (reached lib s as).store.Owned shopId (some merchantId) ∧
      Runs.Once (Manages lib s i token op who merchantId) as

/-- What a request that is past its admission knows of its guard. -/
def Passed (as : List WebAct) : WebStage → Prop
  | .owning who _ shopId => op.guard.evaluate who = .shop shopId
  | .membership who _ merchantId => op.guard.evaluate who = .member merchantId ∨
      ∃ shopId, op.guard.evaluate who = .shop shopId ∧
        (reached lib s as).store.Owned shopId (some merchantId)
  | .executing who | .writing who _ | .done (some who) .returned => Permitted lib s i token op who as
  | _ => True

end guards

section guards

variable {lib : Hutool} {s : AccessStore} {i : ℕ} {token : String} {op : Operation} {as : List WebAct}

/-- A shop keeps its merchant. -/
theorem owned_later {id : ℤ} {merchantId : Option ℤ} (h : (reached lib s as).store.Owned id merchantId)
    (act : WebAct) : (reached lib s (as ++ [act])).store.Owned id merchantId := by
  rw [reached_snoc]
  exact (carries_step (carries_run lib s as) act).2 id merchantId h

/-- What met a guard once did so. -/
theorem Permitted.later {who : Principal} (h : Permitted lib s i token op who as) (act : WebAct) :
    Permitted lib s i token op who (as ++ [act]) := by
  unfold Permitted at h ⊢
  cases hverdict : op.guard.evaluate who with
  | allow => trivial
  | deny =>
    rw [hverdict] at h
    exact h.elim
  | member merchantId =>
    rw [hverdict] at h
    exact Runs.Once.later h [act]
  | shop shopId =>
    rw [hverdict] at h
    obtain ⟨merchantId, howned, hmanages⟩ := h
    exact ⟨merchantId, owned_later howned act, hmanages.later [act]⟩

/-- What a request knows of its guard stays true. -/
theorem Passed.later {stage : WebStage} (h : Passed lib s i token op as stage) (act : WebAct) :
    Passed lib s i token op (as ++ [act]) stage := by
  cases stage with
  | membership who rounds merchantId =>
    rcases h with h | ⟨shopId, hverdict, howned⟩
    · exact .inl h
    · exact .inr ⟨shopId, hverdict, owned_later howned act⟩
  | executing | writing => exact Permitted.later h act
  | done who r =>
    cases who with
    | none => trivial
    | some who =>
      cases r with
      | returned => exact Permitted.later h act
      | _ => trivial
  | owning => exact h
  | _ => trivial

/-- A guard that the roles meet asks for nothing else. -/
theorem permitted_of_allow {who : Principal} (h : op.guard.evaluate who = .allow) :
    Permitted lib s i token op who as := by
  unfold Permitted
  rw [h]
  trivial

/-- The membership that a guard asked for is there. -/
theorem permitted_of_member {who : Principal} {rounds : ℕ} {merchantId : ℤ}
    (h : Passed lib s i token op as (.membership who rounds merchantId))
    (hadmitted : Runs.Once (Admitted lib s i token op who) as)
    (hmember : (reached lib s as).store.ActiveMember who merchantId) :
    Permitted lib s i token op who as := by
  have hmanages : Runs.Once (Manages lib s i token op who merchantId) as :=
    Runs.once_now ⟨hadmitted, hmember⟩
  unfold Permitted
  rcases h with hverdict | ⟨shopId, hverdict, howned⟩
  · rw [hverdict]
    exact hmanages
  · rw [hverdict]
    exact ⟨merchantId, howned, hmanages⟩

/-- A step of a request keeps what it knows of its guard. -/
theorem passed_move {c : WebCall} (d : Fate × Faults) (hstory : Story lib s i c.token c.op as c.stage)
    (h : Passed lib s i c.token c.op as c.stage) :
    Passed lib s i c.token c.op as (c.move lib d (reached lib s as).store).2.stage := by
  have horigin := origin_move lib d (reached lib s as).store c
  have hmember : ∀ who rounds merchantId, c.stage = .membership who rounds merchantId →
      (reached lib s as).store.ActiveMember who merchantId → Permitted lib s i c.token c.op who as := by
    intro who rounds merchantId hbefore hmember
    rw [hbefore] at h
    exact permitted_of_member h (hstory.admitted (by rw [hbefore]; rfl)) hmember
  cases hstage : (c.move lib d (reached lib s as).store).2.stage with
  | owning who rounds shopId =>
    rw [hstage] at horigin
    exact horigin.2
  | membership who rounds merchantId =>
    rw [hstage] at horigin
    rcases horigin with ⟨-, hverdict⟩ | ⟨shopId, row, hbefore, hrow, hmerchant⟩
    · exact .inl hverdict
    · rw [hbefore] at h
      exact .inr ⟨shopId, h, row, hrow, hmerchant⟩
  | executing who =>
    rw [hstage] at horigin
    rcases horigin with ⟨-, hallow⟩ | ⟨merchantId, hbefore, hactive⟩
    · exact permitted_of_allow hallow
    · exact hmember who 0 merchantId hbefore hactive
  | writing who merchantId =>
    rw [hstage] at horigin
    rcases horigin with ⟨hbefore, -⟩ | ⟨hbefore, -⟩
    · rw [hbefore] at h
      exact h
    · rw [hbefore] at h
      exact h
  | done who r =>
    rw [hstage] at horigin
    cases who with
    | none => trivial
    | some who =>
      cases r with
      | returned =>
        rcases horigin.2 rfl with hbefore | ⟨w, hw, hbefore | ⟨merchantId, hbefore⟩⟩
        · rw [hbefore] at h
          exact h
        · rw [hbefore] at h
          obtain rfl := Option.some.inj hw
          exact h
        · rw [hbefore] at h
          obtain rfl := Option.some.inj hw
          exact h
      | _ => trivial
  | _ => trivial

/-- **Every request of a run is past what it passed.** -/
theorem passed_run (lib : Hutool) (s : AccessStore) (as : List WebAct) :
    ∀ i c, (reached lib s as).calls i = some c → Passed lib s i c.token c.op as c.stage := by
  induction as using List.reverseRecOn with
  | nil =>
    intro i c hc
    cases hc
  | append_singleton as act ih =>
    intro i c hc
    rw [reached_snoc] at hc
    rcases (web lib).step_cases (reached lib s as) act with hstep | ⟨j, r, -, -, hstep⟩ |
      ⟨j, d, c', -, hc', hstep⟩ | ⟨e, -, hstep⟩
    · rw [hstep] at hc
      exact (ih i c hc).later act
    · rw [hstep] at hc
      rcases entry_of_update hc with ⟨rfl, rfl⟩ | ⟨-, hold⟩
      · obtain ⟨token, op⟩ := r
        cases token with
        | none => trivial
        | some token =>
          show Passed lib s i token op _ (if lib.isBlank token then anonymous else .loading)
          split <;> trivial
      · exact (ih i c hold).later act
    · rw [hstep] at hc
      rcases entry_of_update hc with ⟨rfl, rfl⟩ | ⟨-, hold⟩
      · have hpassed := (passed_move d (story_run lib s as i c' hc') (ih i c' hc')).later act
        show Passed lib s i (c'.move lib d _).2.token (c'.move lib d _).2.op _ _
        rw [token_move, op_move]
        exact hpassed
      · exact (ih i c hold).later act
    · rw [hstep] at hc
      exact (ih i c hc).later act

end guards

/-- The request is past its guard. -/
def WebStage.Past (who : Principal) (stage : WebStage) : Prop :=
  stage = .executing who ∨ (∃ merchantId, stage = .writing who merchantId) ∨
    stage = .done (some who) .returned

/-- **A guard is met by what was so.** A request is past its guard, or has returned, only if its roles alone
meet the guard, or if after its admission the account was an active member of the merchant that the guard
asks for; where it asks for a shop, the shop has this merchant still. -/
theorem guard_truthful (lib : Hutool) (s : AccessStore) (as : List WebAct) (i : ℕ) (c : WebCall)
    (who : Principal) (hc : (reached lib s as).calls i = some c) (hpast : c.stage.Past who) :
    Permitted lib s i c.token c.op who as := by
  have hpassed := passed_run lib s as i c hc
  rcases hpast with hstage | ⟨merchantId, hstage⟩ | hstage
  · rw [hstage] at hpassed
    exact hpassed
  · rw [hstage] at hpassed
    exact hpassed
  · rw [hstage] at hpassed
    exact hpassed

/-- What a merchant asks for. -/
def openShop : Operation := .createShop 5 (some 3) [("name", "Tea")]

/-- A member of a merchant opens a shop. -/
def openingShop : List WebAct :=
  [.drift (.setStatus 7 (some "ACTIVE")), .drift (.setRoles 7 ["MERCHANT"]),
    .drift (.setMember 3 7 (some "ACTIVE")),
    .drift (.serve (.publish "login:token:a" ["2160000000", "7", "Ann", ""] noFaults)),
    .enter 0 (some "a", openShop)] ++ List.replicate 8 (.move 0 (.answered, noFaults))

/-- The member was permitted to open the shop. -/
theorem openingShop_permitted :
    Permitted plainHutool noAccounts 0 "a" openShop ⟨7, [.merchant]⟩ openingShop :=
  guard_truthful plainHutool noAccounts openingShop 0 ⟨"a", openShop, .executing ⟨7, [.merchant]⟩⟩
    ⟨7, [.merchant]⟩ (by decide +kernel) (.inl rfl)

/-! ## Who writes a shop -/

section keepers

variable {lib : Hutool} {s : AccessStore} {i : ℕ} {token : String} {as : List WebAct} {who : Principal}

/-- The request may write a shop of the merchant. -/
def Keeps (lib : Hutool) (s : AccessStore) (i : ℕ) (token : String) (op : Operation) (who : Principal)
    (merchantId : Option ℤ) (as : List WebAct) : Prop :=
  .admin ∈ who.authorities ∨ .merchant ∈ who.authorities ∧
    ∃ m, merchantId = some m ∧ Runs.Once (Manages lib s i token op who m) as

/-- Who may open a shop may write shops of its merchant. -/
theorem keeps_of_create {id : ℤ} {merchantId : Option ℤ} {columns : Columns}
    (h : Permitted lib s i token (.createShop id merchantId columns) who as) :
    Keeps lib s i token (.createShop id merchantId columns) who merchantId as := by
  unfold Permitted Operation.guard Guard.evaluate at h
  by_cases hadmin : AccountRole.admin ∈ who.authorities
  · exact .inl hadmin
  · simp only [if_neg hadmin] at h
    cases merchantId with
    | none => exact h.elim
    | some m =>
      by_cases hmerchant : AccountRole.merchant ∈ who.authorities
      · simp only [if_pos hmerchant] at h
        exact .inr ⟨hmerchant, m, rfl, h⟩
      · simp only [if_neg hmerchant] at h

/-- Who may change a shop may write shops of its merchant. -/
theorem keeps_of_update {id : ℤ} {merchantId : Option ℤ} {columns : Columns}
    (h : Permitted lib s i token (.updateShop id columns) who as)
    (howned : (reached lib s as).store.Owned id merchantId) :
    Keeps lib s i token (.updateShop id columns) who merchantId as := by
  unfold Permitted Operation.guard Guard.evaluate at h
  by_cases hadmin : AccountRole.admin ∈ who.authorities
  · exact .inl hadmin
  · simp only [if_neg hadmin] at h
    by_cases hmerchant : AccountRole.merchant ∈ who.authorities
    · simp only [if_pos hmerchant] at h
      obtain ⟨m, howned', hmanages⟩ := h
      exact .inr ⟨hmerchant, m, howned.unique howned', hmanages⟩
    · simp only [if_neg hmerchant] at h

end keepers

/-- **A shop is written by its keepers.** Where a step changes the row of a shop, it is a step of a request
that was admitted, for an administrator or for a merchant who after that was an active member of the merchant
of the row; and a row that was there keeps its merchant. -/
theorem shop_written_by_its_keepers (lib : Hutool) (s : AccessStore) (as : List WebAct) (act : WebAct)
    (id : ℤ) (hwritten : (reached lib s (as ++ [act])).store.tables.shops id ≠
      (reached lib s as).store.tables.shops id) :
    ∃ i d c who row, act = .move i d ∧ (reached lib s as).calls i = some c ∧
      (reached lib s (as ++ [act])).store.tables.shops id = some row ∧
      Runs.Once (Admitted lib s i c.token c.op who) as ∧
      Keeps lib s i c.token c.op who row.merchantId as ∧
      ∀ merchantId, (reached lib s as).store.Owned id merchantId → row.merchantId = merchantId := by
  rw [reached_snoc] at hwritten ⊢
  rcases (web lib).step_cases (reached lib s as) act with hstep | ⟨i, r, -, -, hstep⟩ |
    ⟨i, d, c, hact, hc, hstep⟩ | ⟨e, -, hstep⟩
  · exact absurd (by rw [hstep]) hwritten
  · exact absurd (by rw [hstep]) hwritten
  · rw [hstep] at hwritten ⊢
    have hpassed := passed_run lib s as i c hc
    have hstory := story_run lib s as i c hc
    rcases (shops_move lib d (reached lib s as).store c).row hwritten with
      ⟨who, merchantId, columns, row, hstage, hop, hfree, hrow, rfl⟩ |
      ⟨who, merchantId, columns, row, hstage, hop, hrow, hrow'⟩
    · refine ⟨i, d, c, who, row, hact, hc, hrow, hstory.admitted (by rw [hstage]; rfl), ?_, ?_⟩
      · rw [hstage, hop] at hpassed
        rw [hop]
        exact keeps_of_create hpassed
      · rintro merchantId ⟨row', hrow', -⟩
        rw [hfree] at hrow'
        cases hrow'
    · obtain rfl := ((carries_run lib s as).calls i c hc).merchant hstage hop hrow
      have howned : (reached lib s as).store.Owned id row.merchantId := ⟨row, hrow, rfl⟩
      refine ⟨i, d, c, who, _, hact, hc, hrow', hstory.admitted (by rw [hstage]; rfl), ?_, ?_⟩
      · rw [merchant_updateRow, hop]
        rw [hstage, hop] at hpassed
        exact keeps_of_update hpassed howned
      · intro merchantId howned'
        rw [merchant_updateRow]
        exact howned.unique howned'
  · refine absurd ?_ hwritten
    rw [hstep]
    exact congrFun (drift_shops e _) id

/-- The shop that was opened was written by its keeper. -/
theorem openingShop_written :
    let act : WebAct := .move 0 (.lost, noFaults)
    ∃ i d c who row, act = .move i d ∧
      (reached plainHutool noAccounts openingShop).calls i = some c ∧
      (reached plainHutool noAccounts (openingShop ++ [act])).store.tables.shops 5 = some row ∧
      Runs.Once (Admitted plainHutool noAccounts i c.token c.op who) openingShop ∧
      Keeps plainHutool noAccounts i c.token c.op who row.merchantId openingShop ∧
      ∀ merchantId, (reached plainHutool noAccounts openingShop).store.Owned 5 merchantId →
        row.merchantId = merchantId :=
  shop_written_by_its_keepers plainHutool noAccounts openingShop (.move 0 (.lost, noFaults)) 5
    fun heq => absurd (congrArg Option.isSome heq) (by decide +kernel)

end CampusHub.Access
