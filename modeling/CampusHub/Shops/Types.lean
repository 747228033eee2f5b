import CampusHub.Foundations.Pools
import CampusHub.Redis.Keyspace

/-!
# The cached list of shop types

The list is read from Redis, or else from the table and written to Redis, for half an hour; a change of the table
tells Redis nothing. Queries interleave with each other and with the changes.

* `TypeStore`, `TypeStage`, `TypeStage.move` — a query, from its first call to its answer.
* `ReadWithin` — the table was this list, not so long ago.
* `Prompt` — no query writes late what it has read.
* `Dated` — the invariant: when the table was what the cache holds, and what a query is about to write.
* `types_fresh` — how old an answer can be.

**Theorem** (`types_fresh`). Let no query take longer than `d` milliseconds between its two accesses of the
list. Then a query that answers a list answers what the table was, in its order, at some time of the last
half hour and `d` milliseconds, or what Hutool reads of the JSON of that.

**Proof route.** `Dated` is told along the run: what the cache holds was written by a query that had read it
from the table not more than `d` before, and the entry expires half an hour after that write. Each step
either leaves the entry, or writes one that is young (`store_move`, `Dated.young`).

**Why the condition.** A query that sleeps between its read of the table and its write brings an old list
back for another half hour. The source has no check against it.

**Left out.** Ties in `sort`, whose order the database may choose: `Listing` allows them all.
-/

namespace CampusHub.Shops.Types

open CampusHub.Redis CampusHub.Foundations CampusHub.Foundations.Maps CampusHub.Foundations.Pools

/-! ## The list -/

/-- A row of `tb_shop_type`; the times are in seconds. Source: `ShopType.java`. -/
structure ShopType where
  id : ℤ
  name : Option String
  icon : Option String
  sort : Option ℤ
  createTime : Option ℕ
  updateTime : Option ℕ
  deriving DecidableEq

/-- The order of `ORDER BY sort ASC`: `NULL` comes first, and ties come in any order. -/
def ShopType.before (x y : ShopType) : Bool :=
  match x.sort, y.sort with
  | none, _ => true
  | some _, none => false
  | some m, some n => m ≤ n

/-- A list that `findAllOrderBySort` can answer. Source: `MyBatisShopTypeRepository.java` 20–22. -/
def Listing (rows types : List ShopType) : Prop :=
  types.Perm rows ∧ types.Pairwise fun x y => x.before y = true

instance (rows types : List ShopType) : Decidable (Listing rows types) := inferInstanceAs (Decidable (_ ∧ _))

/-- What is used of Hutool: its blank strings, and its JSON of lists, which it may refuse to read or read as `null`. -/
structure TypeJson where
  isBlank : String → Prop
  decidable : DecidablePred isBlank
  toJsonStr : List ShopType → String
  toList : String → Option (Option (List ShopType))

instance (lib : TypeJson) : DecidablePred lib.isBlank := lib.decidable

/-! ## Queries -/

/-- Redis with its clock, and the rows of the table. -/
structure TypeStore where
  redis : Keyspace String
  now : ℕ
  rows : List ShopType

/-- What a query ends with. -/
inductive TypeResult where
  | returned (items : Option (List ShopType))
  | thrown
  deriving DecidableEq

/-- Where a query is: before its read of the cache, its read of the table, its write of the cache.
Source: `ShopTypeQueryService.java` 17–25. -/
inductive TypeStage where
  | reading | loading
  | writing (types : List ShopType)
  | done (r : TypeResult)
  deriving DecidableEq

/-- `CACHE_SHOP_KEY + "type"` -/
def typeKey : String := "cache:shop:type"

/-- `CACHE_SHOP_TTL` in milliseconds. -/
def typeTtl : ℕ := 1800000

/-- Source: `RedisShopTypeCache.java` 31–33. -/
def TypeStore.write (lib : TypeJson) (types : List ShopType) (s : TypeStore) : TypeStore :=
  { s with redis := s.redis.replace typeKey (some ⟨.str (lib.toJsonStr types), some (s.now + typeTtl)⟩) }

/-- After the read of the cache. Source: `RedisShopTypeCache.java` 25–28. -/
def TypeStore.read (lib : TypeJson) (s : TypeStore) : TypeStage :=
  if ¬ Typed s.redis typeKey .string then .done .thrown
  else
    match s.redis.get typeKey with
    | none => .loading
    | some json =>
      if lib.isBlank json then .loading
      else (lib.toList json).elim (.done .thrown) fun items => .done (.returned items)

/-- The next step of a query; `types` is the list that the table answers. -/
def TypeStage.move (lib : TypeJson) (d : Fate × List ShopType) (s : TypeStore) : TypeStage → TypeStore × TypeStage
  | .reading => (s, if d.1 = .answered then s.read lib else .done .thrown)
  | .loading =>
    (s,
      if d.1 ≠ .answered then .done .thrown
      else if Listing s.rows d.2 then .writing d.2
      else .loading)
  | .writing types =>
    (d.1.perform (fun s => s.write lib types) s,
      .done (if d.1 = .answered then .returned (some types) else .thrown))
  | .done r => (s, .done r)

/-- What others do: the table changes, the clock goes on, other keys are written, and the list is evicted. -/
inductive TypeEvent where
  | change (rows : List ShopType)
  | tick (d : ℕ)
  | put (key : String) (e : Option Entry)

/-- What others do to the store; they write no list. -/
def TypeEvent.apply (s : TypeStore) : TypeEvent → TypeStore
  | .change rows => { s with rows := rows }
  | .tick d => { s with redis := s.redis.purge (s.now + d), now := s.now + d }
  | .put key e =>
    if key = typeKey ∧ e.isSome then s else { s with redis := s.redis.replace key e }

/-- Queries over the store. -/
def typeQueries (lib : TypeJson) : System TypeStore Unit TypeStage (Fate × List ShopType) TypeEvent where
  enter _ _ := .reading
  move d s t := t.move lib d s
  drift e s := e.apply s

/-- The steps. -/
abbrev TypeAct := PoolAct Unit (Fate × List ShopType) TypeEvent

/-- The store and the queries after the steps. -/
def after (lib : TypeJson) (s : TypeStore) (as : List TypeAct) : Pool TypeStore TypeStage :=
  Runs.run (typeQueries lib).step (Pool.idle s) as

/-- A run with one step more takes that step last. -/
theorem after_snoc (lib : TypeJson) (s : TypeStore) (as : List TypeAct) (act : TypeAct) :
    after lib s (as ++ [act]) = (typeQueries lib).step (after lib s as) act := Runs.run_append ..

/-! ## Ages -/

section ages

variable (lib : TypeJson) (s : TypeStore)

/-- The time after the steps. -/
def time (as : List TypeAct) : ℕ := (after lib s as).store.now

/-- The table was this list at a time from which on `d` milliseconds last until `t` at least. -/
def ReadWithin (d : ℕ) (t : ℕ) (types : List ShopType) (as : List TypeAct) : Prop :=
  Runs.Once (fun bs => Listing (after lib s bs).store.rows types ∧ t ≤ time lib s bs + d) as

/-- No query takes longer than `d` milliseconds from its read of the table to its write. -/
def Prompt (d : ℕ) (as : List TypeAct) : Prop :=
  ∀ bs cs i types, bs <+: cs → cs <+: as → (after lib s bs).calls i = some (.writing types) →
    (after lib s cs).calls i = some (.writing types) → time lib s cs ≤ time lib s bs + d

/-- **When the table was what the cache holds, and what a query is about to write.** -/
structure Dated (d : ℕ) (as : List TypeAct) : Prop where
  cached : ∀ e, (after lib s as).store.redis typeKey = some e → ∃ types t,
    e = ⟨.str (lib.toJsonStr types), some t⟩ ∧ time lib s as ≤ t ∧ ReadWithin lib s (typeTtl + d) t types as
  writing : ∀ i types, (after lib s as).calls i = some (.writing types) →
    Runs.Once (fun bs => Listing (after lib s bs).store.rows types ∧
      (after lib s bs).calls i = some (.writing types)) as

end ages

section steps

variable {lib : TypeJson} {s store : TypeStore} {d : ℕ} {as : List TypeAct} {types : List ShopType}

/-- What is prompt was so before its last step. -/
theorem Prompt.before {act : TypeAct} (h : Prompt lib s d (as ++ [act])) : Prompt lib s d as :=
  fun bs cs i types hbs hcs => h bs cs i types hbs (hcs.trans (List.prefix_append as [act]))

/-- What a query is about to write is young. -/
theorem Dated.young (h : Dated lib s d as) (hprompt : Prompt lib s d as) {i : ℕ}
    (hi : (after lib s as).calls i = some (.writing types)) : ReadWithin lib s d (time lib s as) types as := by
  obtain ⟨bs, hbs, hlisting, hcall⟩ := h.writing i types hi
  exact ⟨bs, hbs, hlisting, hprompt bs as i types hbs List.prefix_rfl hcall hi⟩

/-- The table was this list, whatever comes after. -/
theorem ReadWithin.later {t : ℕ} (h : ReadWithin lib s d t types as) (act : TypeAct) :
    ReadWithin lib s d t types (as ++ [act]) := Runs.Once.later h [act]

/-- A query writes to the store only what it has read. -/
theorem store_move (store : TypeStore) (d : Fate × List ShopType) (t : TypeStage) : (t.move lib d store).1 = store ∨
    ∃ types, t = .writing types ∧ (t.move lib d store).1 = store.write lib types := by
  cases t with
  | writing types =>
    rcases d.1.perform_cases (fun s : TypeStore => s.write lib types) store with h | h
    · exact .inr ⟨types, rfl, h⟩
    · exact .inl h
  | _ => exact .inl rfl

/-- What a query is about to write is what the table has answered. -/
theorem writing_move {d : Fate × List ShopType} {t : TypeStage} (h : (t.move lib d store).2 = .writing types) :
    Listing store.rows types ∧ (t.move lib d store).1 = store := by
  cases t with
  | reading =>
    replace h : (if d.1 = .answered then store.read lib else .done .thrown) = .writing types := h
    split at h
    · unfold TypeStore.read at h
      split at h
      · cases h
      · split at h
        · cases h
        · rename_i json _
          split at h
          · cases h
          · cases hlist : lib.toList json with
            | none =>
              rw [hlist] at h
              cases h
            | some items =>
              rw [hlist] at h
              cases h
    · cases h
  | loading =>
    replace h : (if d.1 ≠ .answered then .done .thrown
      else if Listing store.rows d.2 then .writing d.2 else .loading) = TypeStage.writing types := h
    split at h
    · cases h
    · split at h
      · rename_i hlisting
        obtain rfl := TypeStage.writing.inj h
        exact ⟨hlisting, rfl⟩
      · cases h
  | writing types' => cases h
  | done r => cases h

/-- Others write no list, and what is there when the clock goes on has not expired. -/
theorem slot_event {e : TypeEvent} {x : Entry} (h : (e.apply store).redis typeKey = some x) :
    store.redis typeKey = some x ∧ ∀ t, x.expireAt = some t → store.now ≤ t → (e.apply store).now ≤ t := by
  cases e with
  | change rows => exact ⟨h, fun _ _ ht => ht⟩
  | tick d =>
    obtain ⟨hslot, halive⟩ := Option.filter_eq_some_iff.mp h
    refine ⟨hslot, fun t ht _ => ?_⟩
    have hle : store.now + d ≤ t := by simpa [Entry.alive, ht] using halive
    exact hle
  | put key entry =>
    unfold TypeEvent.apply at h ⊢
    dsimp only at h ⊢
    by_cases hnot : key = typeKey ∧ entry.isSome
    · rw [if_pos hnot] at h ⊢
      exact ⟨h, fun _ _ ht => ht⟩
    · rw [if_neg hnot] at h ⊢
      replace h : store.redis.replace key entry typeKey = some x := h
      by_cases hkey : key = typeKey
      · rw [hkey, Keyspace.replace_self] at h
        exact absurd ⟨hkey, by rw [h]; rfl⟩ hnot
      · rw [Keyspace.replace_of_ne _ _ (Ne.symm hkey)] at h
        exact ⟨h, fun _ _ ht => ht⟩

/-- A query answers what it has read from the table, or what it reads of the cache. -/
theorem returned_move {d : Fate × List ShopType} {t : TypeStage} {items : Option (List ShopType)}
    (h : (t.move lib d store).2 = .done (.returned items)) : t = .done (.returned items) ∨
      (∃ types, t = .writing types ∧ items = some types) ∨
      ∃ json u, store.redis typeKey = some ⟨.str json, u⟩ ∧ lib.toList json = some items := by
  cases t with
  | reading =>
    replace h : (if d.1 = .answered then store.read lib else .done .thrown) = .done (.returned items) := h
    split at h
    · unfold TypeStore.read at h
      split at h
      · cases h
      · split at h
        · cases h
        · rename_i json hjson
          split at h
          · cases h
          · cases hlist : lib.toList json with
            | none =>
              rw [hlist] at h
              cases h
            | some read =>
              rw [hlist] at h
              cases h
              obtain ⟨u, hslot⟩ := Keyspace.exists_of_get hjson
              exact .inr (.inr ⟨json, u, hslot, hlist⟩)
    · cases h
  | loading =>
    replace h : (if d.1 ≠ .answered then .done .thrown
      else if Listing store.rows d.2 then .writing d.2 else .loading) = TypeStage.done (.returned items) := h
    split at h
    · cases h
    · split at h
      · cases h
      · cases h
  | writing types =>
    replace h : TypeStage.done (if d.1 = .answered then .returned (some types) else .thrown) =
      .done (.returned items) := h
    split at h
    · cases h
      exact .inr (.inl ⟨types, rfl, rfl⟩)
    · cases h
  | done r => exact .inl h

/-- **Every step keeps the dates.** -/
theorem Dated.step (h : Dated lib s d as) (hprompt : Prompt lib s d as) (act : TypeAct) :
    Dated lib s d (as ++ [act]) := by
  have hlast : ∀ {P : List TypeAct → Prop}, P (as ++ [act]) → Runs.Once P (as ++ [act]) := Runs.once_now
  rcases (typeQueries lib).step_cases (after lib s as) act with hstep | ⟨j, r, -, hfree, hstep⟩ |
    ⟨j, choice, t, -, ht, hstep⟩ | ⟨e, -, hstep⟩
  · refine ⟨fun e he => ?_, fun i types hi => ?_⟩
    · rw [after_snoc, hstep] at he
      obtain ⟨types, t, hentry, hle, hread⟩ := h.cached e he
      refine ⟨types, t, hentry, ?_, hread.later act⟩
      rw [time, after_snoc, hstep]
      exact hle
    · rw [after_snoc, hstep] at hi
      exact (h.writing i types hi).later [act]
  · refine ⟨fun e he => ?_, fun i types hi => ?_⟩
    · rw [after_snoc, hstep] at he
      obtain ⟨types, t, hentry, hle, hread⟩ := h.cached e he
      refine ⟨types, t, hentry, ?_, hread.later act⟩
      rw [time, after_snoc, hstep]
      exact hle
    · rw [after_snoc, hstep] at hi
      rcases entry_of_update hi with ⟨-, hnew⟩ | ⟨-, hold⟩
      · cases hnew
      · exact (h.writing i types hold).later [act]
  · refine ⟨fun e he => ?_, fun i types hi => ?_⟩
    · rw [after_snoc, hstep] at he
      have hstore : (after lib s (as ++ [act])).store = (t.move lib choice (after lib s as).store).1 := by
        rw [after_snoc, hstep]
        rfl
      rcases store_move (after lib s as).store choice t with hsame | ⟨types, rfl, hwrite⟩
      · rw [show ((typeQueries lib).move choice (after lib s as).store t).1 = _ from hsame] at he
        obtain ⟨types, u, hentry, hle, hread⟩ := h.cached e he
        refine ⟨types, u, hentry, ?_, hread.later act⟩
        rw [time, hstore, hsame]
        exact hle
      · rw [show ((typeQueries lib).move choice (after lib s as).store _).1 = _ from hwrite] at he
        replace he : ((after lib s as).store.redis.replace typeKey _) typeKey = some e := he
        rw [Keyspace.replace_self] at he
        obtain rfl := Option.some.inj he
        refine ⟨types, _, rfl, ?_, ?_⟩
        · rw [time, hstore, hwrite]
          exact Nat.le_add_right _ _
        · obtain ⟨bs, hbs, hlisting, hle⟩ := h.young hprompt ht
          refine ⟨bs, hbs.trans (List.prefix_append as [act]), hlisting, ?_⟩
          have hnow : (after lib s as).store.now ≤ time lib s bs + d := hle
          omega
    · rw [after_snoc, hstep] at hi
      rcases entry_of_update hi with ⟨rfl, hnew⟩ | ⟨-, hold⟩
      · obtain ⟨hlisting, hsame⟩ := writing_move hnew.symm
        refine hlast ⟨?_, ?_⟩
        · rw [after_snoc, hstep]
          show Listing (TypeStage.move lib choice (after lib s as).store t).1.rows types
          rw [hsame]
          exact hlisting
        · rw [after_snoc, hstep]
          exact hi
      · exact (h.writing i types hold).later [act]
  · refine ⟨fun x hx => ?_, fun i types hi => ?_⟩
    · rw [after_snoc, hstep] at hx
      obtain ⟨hslot, hlater⟩ := slot_event hx
      obtain ⟨types, t, hentry, hle, hread⟩ := h.cached x hslot
      refine ⟨types, t, hentry, ?_, hread.later act⟩
      rw [time, after_snoc, hstep]
      exact hlater t (by rw [hentry]) hle
    · rw [after_snoc, hstep] at hi
      exact (h.writing i types hi).later [act]

end steps

/-- Every prompt run keeps the dates. -/
theorem dated_run {lib : TypeJson} {s : TypeStore} (hnone : s.redis typeKey = none) {d : ℕ} (as : List TypeAct)
    (hprompt : Prompt lib s d as) : Dated lib s d as := by
  induction as using List.reverseRecOn with
  | nil =>
    refine ⟨fun e he => ?_, fun i types hi => by cases hi⟩
    replace he : s.redis typeKey = some e := he
    rw [hnone] at he
    cases he
  | append_singleton as act ih => exact (ih hprompt.before).step hprompt.before act

/-- **How old an answer can be.** If no query takes longer than `d` milliseconds between its two accesses of the
list, then a query that answers a list answers what the table was, in its order, at some time of the last half hour
and `d` milliseconds, or what Hutool reads of the JSON of that. -/
theorem types_fresh {lib : TypeJson} {s : TypeStore} (hnone : s.redis typeKey = none) {d : ℕ} {as : List TypeAct}
    {act : TypeAct} (hprompt : Prompt lib s d (as ++ [act])) {i : ℕ} {items : Option (List ShopType)}
    (hbefore : (after lib s as).calls i ≠ some (.done (.returned items)))
    (hdone : (after lib s (as ++ [act])).calls i = some (.done (.returned items))) :
    ∃ types, (items = some types ∨ lib.toList (lib.toJsonStr types) = some items) ∧
      ReadWithin lib s (typeTtl + d) (time lib s as) types as := by
  have hdated := dated_run hnone as hprompt.before
  rw [after_snoc] at hdone
  rcases (typeQueries lib).step_cases (after lib s as) act with hstep | ⟨j, r, -, -, hstep⟩ |
    ⟨j, choice, t, -, ht, hstep⟩ | ⟨e, -, hstep⟩
  · rw [hstep] at hdone
    exact absurd hdone hbefore
  · rw [hstep] at hdone
    rcases entry_of_update hdone with ⟨-, hnew⟩ | ⟨-, hold⟩
    · cases hnew
    · exact absurd hold hbefore
  · rw [hstep] at hdone
    rcases entry_of_update hdone with ⟨rfl, hnew⟩ | ⟨-, hold⟩
    · rcases returned_move hnew.symm with rfl | ⟨types, rfl, rfl⟩ | ⟨json, u, hslot, hread⟩
      · exact absurd ht hbefore
      · -- a miss: the list was read from the table
        obtain ⟨bs, hbs, hlisting, hle⟩ := hdated.young hprompt.before ht
        exact ⟨types, .inl rfl, bs, hbs, hlisting, by omega⟩
      · -- a hit: the entry has not expired
        obtain ⟨types, v, hentry, halive, bs, hbs, hlisting, hle⟩ := hdated.cached _ hslot
        obtain ⟨hjson, -⟩ := Entry.mk.inj hentry
        obtain rfl := Value.str.inj hjson
        exact ⟨types, .inr hread, bs, hbs, hlisting, by omega⟩
    · exact absurd hold hbefore
  · rw [hstep] at hdone
    exact absurd hdone hbefore

/-- JSON of the empty list. -/
def emptyJson : TypeJson where
  isBlank text := text.toList.all Char.isWhitespace = true
  decidable _ := inferInstance
  toJsonStr _ := "[]"
  toList text := if text = "[]" then some (some []) else none

/-- Nothing in Redis, and no type. -/
def noTypes : TypeStore := ⟨fun _ => none, 0, []⟩

/-- The first type comes a minute before the second query. -/
def firstType : List TypeAct :=
  [.enter 0 (), .move 0 (.answered, []), .move 0 (.answered, []), .move 0 (.answered, []),
    .drift (.change [⟨1, some "美食", some "/types/ms.png", some 1, some 1640138400, some 1640258520⟩]),
    .drift (.tick 60000), .enter 1 ()]

/-- No query of the run is late. -/
theorem firstType_prompt (act : TypeAct) (h : time emptyJson noTypes (firstType ++ [act]) ≤ 60000) :
    Prompt emptyJson noTypes 60000 (firstType ++ [act]) := by
  intro bs cs i types _ hcs _ _
  have htimes : ∀ n < 8, time emptyJson noTypes (firstType.take n) ≤ 60000 := by decide +kernel
  rcases List.prefix_concat_iff.mp hcs with rfl | hcs
  · exact h.trans (Nat.le_add_left _ _)
  · rw [List.prefix_iff_eq_take.mp hcs]
    exact (htimes _ (Nat.lt_succ_of_le hcs.length_le)).trans (Nat.le_add_left _ _)

/-- The list that is answered, without the type, was right a minute before. -/
theorem firstType_fresh : ∃ types, (some [] = some types ∨
    emptyJson.toList (emptyJson.toJsonStr types) = some (some [])) ∧
      ReadWithin emptyJson noTypes (typeTtl + 60000) (time emptyJson noTypes firstType) types firstType :=
  types_fresh rfl (firstType_prompt (.move 1 (.answered, [])) (by decide +kernel)) (i := 1) (by decide +kernel)
    (by decide +kernel)

end CampusHub.Shops.Types
