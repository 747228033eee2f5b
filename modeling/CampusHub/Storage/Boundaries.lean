import CampusHub.Storage.Images

/-!
# What calls of the image storage do to the file system

* `ImageStorage.at` — the directories of an image and its file.
* `Sound` — the invariant of the tree and of the files.
* `Moves` — what a call may rely on while others are at work: nothing that it has found is taken from it.
* `Guarantee` — what each step of a call does: a directory of an image, or the file of its own request.
* `guarantee_mkdir`, `guarantee_create`, `guarantee_write`, `guarantee_remove`, `moves_drift` — the steps.

The file system belongs to everybody: calls of the storage, and others, work on it at the same time. This
module says what one step may do to the rest, in the manner of rely and guarantee. `Moves` is what a call
may rely on between two of its steps; `Guarantee` is what its own steps do, and it implies `Moves` for the
others.

**Proof route.** Each step changes the node at one path, or the bytes of one file. `moves_of_node` reduces
the first kind to four conditions on that path. What lies on the way to the root is never touched, because
the places of images are strictly below it (`not_prefix_root`, `real_of_node`).

**Others.** `moves_drift` is the step of everybody else. They may do what they like outside of the root,
links included, and nothing below it or on the way to it, where `DiskEvent.apply` has no effect.

**Left out.** Permissions and quotas: a call of the file system may fail at any time, without a reason.
-/

namespace CampusHub.Storage

open CampusHub.Foundations.Files CampusHub.Foundations.Maps CampusHub.Foundations.Programs

/-! ## Directories and files of images -/

/-- The path down to the directory number `k` of an image; number `4` is its file. -/
def ImageStorage.at (cfg : ImageStorage) (n : ImageName) (k : ℕ) : Path := cfg.root ++ n.path.take k

/-- A directory of images. -/
def IsShard (cfg : ImageStorage) (p : Path) : Prop := ∃ n k, 1 ≤ k ∧ k ≤ 3 ∧ p = cfg.at n k

section paths

variable {cfg : ImageStorage} {n : ImageName} {k : ℕ} {p q : Path}

/-- An image lies four names below the root. -/
@[simp] theorem path_length (n : ImageName) : n.path.length = 4 := rfl

/-- The first place on the way is the root. -/
theorem at_zero : cfg.at n 0 = cfg.root := by simp [ImageStorage.at]

/-- The last place on the way is the image. -/
theorem at_four : cfg.at n 4 = cfg.root ++ n.path := by
  rw [ImageStorage.at, List.take_of_length_le (by simp)]

/-- Each place is one name longer. -/
theorem length_at (hk : k ≤ 4) : (cfg.at n k).length = cfg.root.length + k := by
  simp [ImageStorage.at, hk]

/-- All of them are below the root. -/
theorem root_prefix_at : cfg.root <+: cfg.at n k := List.prefix_append _ _

/-- No place on the way leads elsewhere. -/
theorem plain_at : Plain (cfg.at n k) := by
  intro c hc
  rcases List.mem_append.mp hc with hc | hc
  · exact cfg.root_plain c hc
  · exact n.plain_path c (List.mem_of_mem_take hc)

/-- A directory of images is not the file of one. -/
theorem IsShard.ne_image (h : IsShard cfg p) (n : ImageName) : p ≠ cfg.at n 4 := by
  obtain ⟨m, k, -, hk, rfl⟩ := h
  intro heq
  have hlen := congrArg List.length heq
  rw [length_at (by omega), length_at (by omega)] at hlen
  omega

/-- Nothing below the root is on the way to the root. -/
theorem not_prefix_root (hk : 1 ≤ k) (hk' : k ≤ 4) : ¬ cfg.at n k <+: cfg.root := by
  intro h
  have hlen := h.length_le
  rw [length_at hk'] at hlen
  omega

/-- The directories on the way to a directory of an image. -/
theorem between_at (hk : k ≤ 4) (h : Between (cfg.at n k) q) :
    (q ≠ [] ∧ q <+: cfg.root) ∨ ∃ j, 1 ≤ j ∧ j < k ∧ q = cfg.at n j := by
  obtain ⟨hne, hbegin, hneq⟩ := h
  rcases List.prefix_or_prefix_of_prefix hbegin root_prefix_at with hbefore | ⟨t, rfl⟩
  · exact .inl ⟨hne, hbefore⟩
  · have ht : t <+: n.path.take k := (List.prefix_append_right_inj cfg.root).mp hbegin
    have hlen : t.length ≤ k := by simpa [hk] using ht.length_le
    have htake : t = n.path.take t.length := by
      have heq := List.prefix_iff_eq_take.mp ht
      rwa [List.take_take, Nat.min_eq_left hlen] at heq
    by_cases hzero : t = []
    · subst hzero
      rw [List.append_nil] at hne ⊢
      exact .inl ⟨hne, List.prefix_rfl⟩
    · refine .inr ⟨t.length, List.length_pos_iff.mpr hzero, lt_of_le_of_ne hlen fun heq => hneq ?_, ?_⟩
      · rw [ImageStorage.at, ← heq, ← htake]
      · rw [ImageStorage.at, ← htake]

/-- The directory above a directory of an image. -/
theorem at_succ (hk : k < n.path.length) : cfg.at n (k + 1) = cfg.at n k ++ [n.path[k]] := by
  rw [ImageStorage.at, ImageStorage.at, List.append_assoc, List.take_append_getElem]

/-- What is above a place is the place before it. -/
theorem parent_at (hk : k < 4) {c : String} (h : p ++ [c] = cfg.at n (k + 1)) : p = cfg.at n k := by
  rw [at_succ (by simpa using hk)] at h
  exact (List.append_inj' h rfl).1

end paths

/-! ## The invariant -/

/-- **The tree and the files are in order**: the root is there, what is there is in a directory, a file has no
bytes but those of its plan, and the plan of an image is one that is owned. -/
structure Sound (cfg : ImageStorage) (own : Path → Bytes → Prop) (fs : Disk) : Prop where
  real : fs.Real cfg.root
  closed : fs.Closed cfg.root
  planned : ∀ i < fs.next, fs.data i <+: fs.plan i
  numbered : ∀ p i, fs.node p = some (.file i) → i < fs.next
  owned : ∀ n i, fs.node (cfg.at n 4) = some (.file i) → own (cfg.at n 4) (fs.plan i)

/-- **What others leave alone**: a directory stays, where nothing was a directory of images or an image may
come to be and nothing else, an image is no directory and no link, no file is another, and no image that is
kept goes. -/
structure Moves (cfg : ImageStorage) (own : Path → Bytes → Prop) (keep : Path → Prop) (s s' : Disk) : Prop where
  sound : Sound cfg own s → Sound cfg own s'
  next : s.next ≤ s'.next
  plan : ∀ i < s.next, s'.plan i = s.plan i
  data : ∀ i < s.next, s.data i <+: s'.data i
  dir : ∀ p, IsShard cfg p → s.node p = some .dir → s'.node p = some .dir
  shard : ∀ p, IsShard cfg p → s.node p = none → s'.node p = none ∨ s'.node p = some .dir
  image : ∀ n, (∀ x, s.node (cfg.at n 4) = some x → ∃ i, x = .file i) →
    ∀ x, s'.node (cfg.at n 4) = some x → ∃ i, x = .file i
  kept : ∀ p i, keep p → s.node p = some (.file i) → s'.node p = some (.file i)

/-- The request is going to store the bytes under the name. -/
def Plans (cfg : ImageStorage) (readers : ImageReaders) (r : ImageRequest) (n : ImageName) (b : Bytes) : Prop :=
  ∃ image id, r = .store image id ∧ prepare cfg readers image id = .ok (n, b)

/-- What a step does to the node at a path: nothing, a directory of images is made, the image of the request is
created, or that of the request is deleted. -/
inductive NodeStep (cfg : ImageStorage) (readers : ImageReaders) (r : ImageRequest) (s s' : Disk) (p : Path) :
    Prop where
  | same (h : s'.node p = s.node p)
  | mkdir (hshard : IsShard cfg p) (hbefore : s.node p = none) (hafter : s'.node p = some .dir)
  | create (n : ImageName) (b : Bytes) (hplans : Plans cfg readers r n b) (hp : p = cfg.at n 4)
      (hbefore : s.node p = none) (hafter : s'.node p = some (.file s.next))
  | delete (n : ImageName) (hdelete : r = .delete n.text) (hp : p = cfg.at n 4) (i : ℕ)
      (hbefore : s.node p = some (.file i)) (hafter : s'.node p = none)

/-- **What a step of a call does.** -/
structure Guarantee (cfg : ImageStorage) (readers : ImageReaders) (own : Path → Bytes → Prop) (keep : Path → Prop)
    (r : ImageRequest) (s s' : Disk) : Prop extends Moves cfg own keep s s' where
  node : ∀ p, NodeStep cfg readers r s s' p

section rely

variable {cfg : ImageStorage} {own : Path → Bytes → Prop} {keep : Path → Prop} {s s' : Disk}

/-- A step that does nothing leaves everything alone. -/
theorem moves_refl (s : Disk) : Moves cfg own keep s s where
  sound h := h
  next := le_rfl
  plan _ _ := rfl
  data _ _ := List.prefix_rfl
  dir _ _ h := h
  shard _ _ h := .inl h
  image _ h := h
  kept _ _ _ h := h

/-- One step after another. -/
theorem moves_trans (s₁ s₂ s₃ : Disk) (h : Moves cfg own keep s₁ s₂) (h' : Moves cfg own keep s₂ s₃) :
    Moves cfg own keep s₁ s₃ where
  sound hs := h'.sound (h.sound hs)
  next := h.next.trans h'.next
  plan i hi := (h'.plan i (lt_of_lt_of_le hi h.next)).trans (h.plan i hi)
  data i hi := (h.data i hi).trans (h'.data i (lt_of_lt_of_le hi h.next))
  dir p hp hdir := h'.dir p hp (h.dir p hp hdir)
  shard p hp hnone := by
    rcases h.shard p hp hnone with hnone | hdir
    · exact h'.shard p hp hnone
    · exact .inr (h'.dir p hp hdir)
  image n hn := h'.image n (h.image n hn)
  kept p i hp hi := h'.kept p i hp (h.kept p i hp hi)

/-- A step that changes one node and takes nothing away that others have found. -/
theorem moves_of_node {p : Path} (hnode : ∀ q, q ≠ p → s'.node q = s.node q)
    (hsound : Sound cfg own s → Sound cfg own s') (hnext : s.next ≤ s'.next)
    (hplan : ∀ i < s.next, s'.plan i = s.plan i) (hdata : ∀ i < s.next, s.data i <+: s'.data i)
    (hshard : IsShard cfg p → s.node p = none ∧ s'.node p = some .dir)
    (himage : ∀ n, p = cfg.at n 4 → ∀ x, s'.node p = some x → ∃ i, x = .file i)
    (hkept : ∀ i, keep p → s.node p = some (.file i) → s'.node p = some (.file i)) :
    Moves cfg own keep s s' where
  sound := hsound
  next := hnext
  plan := hplan
  data := hdata
  dir q hq hdir := by
    by_cases heq : q = p
    · subst heq
      exact (hshard hq).2
    · rw [hnode q heq, hdir]
  shard q hq hnone := by
    by_cases heq : q = p
    · subst heq
      exact .inr (hshard hq).2
    · exact .inl (by rw [hnode q heq, hnone])
  image n hn x hx := by
    by_cases heq : cfg.at n 4 = p
    · exact himage n heq.symm x (heq ▸ hx)
    · rw [hnode _ heq] at hx
      exact hn x hx
  kept q i hq hi := by
    by_cases heq : q = p
    · subst heq
      exact hkept i hq hi
    · rw [hnode q heq, hi]

end rely

/-! ## The steps -/

section steps

variable {cfg : ImageStorage} {readers : ImageReaders} {own : Path → Bytes → Prop} {keep : Path → Prop}
  {r : ImageRequest} {s : Disk} {p : Path} {n : ImageName} {k : ℕ}

/-- The nodes after one was put there. -/
theorem node_put {x : Node} (q : Path) : (s.put p x).node q = if q = p then some x else s.node q :=
  lookup_insert_eq ..

/-- The nodes after a file was created. -/
theorem node_create {b : Bytes} (q : Path) :
    (s.create p b).node q = if q = p then some (.file s.next) else s.node q := lookup_insert_eq ..

/-- The nodes after one was removed. -/
theorem node_remove (q : Path) : (s.remove p).node q = if q = p then none else s.node q := lookup_erase_eq ..

/-- What is put below a root changes nothing on the way to it. -/
theorem real_of_node {s' : Disk} (h : s.Real cfg.root) (hp : ¬ p <+: cfg.root)
    (hnode : ∀ q, q ≠ p → s'.node q = s.node q) : s'.Real cfg.root := by
  intro q hne hq
  rw [hnode q fun heq => hp (heq ▸ hq)]
  exact h q hne hq

/-- A node in a directory, where nothing was, leaves the tree closed. -/
theorem closed_of_put {s' : Disk} (h : s.Closed cfg.root) (hnode : ∀ q, q ≠ p → s'.node q = s.node q)
    (hnone : s.node p = none) (hparent : ∀ q c, q ++ [c] = p → s.node q = some .dir) : s'.Closed cfg.root := by
  intro q c hq hsome
  by_cases heq : q ++ [c] = p
  · have hdir := hparent q c heq
    rw [hnode q fun hqp => by rw [hqp, hnone] at hdir; cases hdir]
    exact hdir
  · rw [hnode _ heq] at hsome
    have hdir := h q c hq hsome
    rw [hnode q fun hqp => by rw [hqp, hnone] at hdir; cases hdir]
    exact hdir

/-- A step may do nothing. -/
theorem guarantee_refl (s : Disk) : Guarantee cfg readers own keep r s s :=
  { moves_refl s with node := fun _ => .same rfl }

/-- A directory of images keeps the tree in order. -/
theorem mkdir_sound (hsound : Sound cfg own s) (hk : 1 ≤ k) (hk' : k ≤ 3) (hnone : s.node (cfg.at n k) = none)
    (hparent : ∀ q c, q ++ [c] = cfg.at n k → s.node q = some .dir) :
    Sound cfg own (s.put (cfg.at n k) .dir) := by
  have hnode : ∀ q, q ≠ cfg.at n k → (s.put (cfg.at n k) .dir).node q = s.node q := fun q hq => by
    rw [node_put, if_neg hq]
  have hfile : ∀ q i, (s.put (cfg.at n k) .dir).node q = some (.file i) → s.node q = some (.file i) := by
    intro q i hq
    rw [node_put] at hq
    split at hq
    · cases hq
    · exact hq
  exact
    { real := real_of_node hsound.real (not_prefix_root hk (by omega)) hnode
      closed := closed_of_put hsound.closed hnode hnone hparent
      planned := hsound.planned
      numbered := fun q i hq => hsound.numbered q i (hfile q i hq)
      owned := fun m i hm => hsound.owned m i (hfile _ i hm) }

/-- A directory of images is made. -/
theorem guarantee_mkdir (hsound : Sound cfg own s) (hk : 1 ≤ k) (hk' : k ≤ 3)
    (hnone : s.node (cfg.at n k) = none) (hparent : ∀ q c, q ++ [c] = cfg.at n k → s.node q = some .dir) :
    Guarantee cfg readers own keep r s (s.put (cfg.at n k) .dir) := by
  have hshard : IsShard cfg (cfg.at n k) := ⟨n, k, hk, hk', rfl⟩
  have hself : (s.put (cfg.at n k) .dir).node (cfg.at n k) = some .dir := by rw [node_put, if_pos rfl]
  have hnode : ∀ q, q ≠ cfg.at n k → (s.put (cfg.at n k) .dir).node q = s.node q := fun q hq => by
    rw [node_put, if_neg hq]
  have hmoves : Moves cfg own keep s (s.put (cfg.at n k) .dir) := by
    refine moves_of_node hnode (fun _ => mkdir_sound hsound hk hk' hnone hparent) le_rfl (fun _ _ => rfl)
      (fun _ _ => List.prefix_rfl) (fun _ => ⟨hnone, hself⟩) (fun m hm => absurd hm (hshard.ne_image m)) ?_
    intro i _ hi
    rw [hnone] at hi
    cases hi
  refine { hmoves with node := fun q => ?_ }
  by_cases hq : q = cfg.at n k
  · subst hq
    exact .mkdir hshard hnone hself
  · exact .same (hnode q hq)

/-- The file of an image keeps it in order, if its bytes are owned. -/
theorem create_sound {b : Bytes} (hsound : Sound cfg own s) (hown : own (cfg.at n 4) b)
    (hnone : s.node (cfg.at n 4) = none) (hparent : s.node (cfg.at n 3) = some .dir) :
    Sound cfg own (s.create (cfg.at n 4) b) := by
  have hnode : ∀ q, q ≠ cfg.at n 4 → (s.create (cfg.at n 4) b).node q = s.node q := fun q hq => by
    rw [node_create, if_neg hq]
  have hplan : ∀ i < s.next, (s.create (cfg.at n 4) b).plan i = s.plan i := fun i hi =>
    Function.update_of_ne hi.ne ..
  exact
    { real := real_of_node hsound.real (not_prefix_root (by omega) le_rfl) hnode
      closed := closed_of_put hsound.closed hnode hnone fun q c hq => by
        rw [parent_at (by omega) hq]
        exact hparent
      planned := fun i hi => by
        rcases Nat.lt_succ_iff_lt_or_eq.mp hi with hi | rfl
        · rw [hplan i hi]
          show Function.update s.data s.next [] i <+: s.plan i
          rw [Function.update_of_ne hi.ne]
          exact hsound.planned i hi
        · show Function.update s.data s.next [] s.next <+: _
          rw [Function.update_self]
          exact List.nil_prefix
      numbered := fun q i hq => by
        rw [node_create] at hq
        split at hq
        · cases hq
          exact Nat.lt_succ_self _
        · exact Nat.lt_succ_of_lt (hsound.numbered q i hq)
      owned := fun m i hm => by
        rw [node_create] at hm
        split at hm
        · rename_i heq
          cases hm
          show own _ (Function.update s.plan s.next b s.next)
          rw [Function.update_self, heq]
          exact hown
        · rw [hplan i (hsound.numbered _ i hm)]
          exact hsound.owned m i hm }

/-- The file of an image is created. -/
theorem guarantee_create {b : Bytes} (hsound : Sound cfg own s) (hplans : Plans cfg readers r n b)
    (hown : own (cfg.at n 4) b) (hnone : s.node (cfg.at n 4) = none)
    (hparent : s.node (cfg.at n 3) = some .dir) :
    Guarantee cfg readers own keep r s (s.create (cfg.at n 4) b) := by
  have hself : (s.create (cfg.at n 4) b).node (cfg.at n 4) = some (.file s.next) := by
    rw [node_create, if_pos rfl]
  have hnode : ∀ q, q ≠ cfg.at n 4 → (s.create (cfg.at n 4) b).node q = s.node q := fun q hq => by
    rw [node_create, if_neg hq]
  have hmoves : Moves cfg own keep s (s.create (cfg.at n 4) b) := by
    refine moves_of_node hnode (fun _ => create_sound hsound hown hnone hparent) (Nat.le_succ _)
      (fun i hi => Function.update_of_ne hi.ne ..) (fun i hi => ?_) (fun hshard => ?_) (fun m _ x hx => ?_) ?_
    · show s.data i <+: Function.update s.data s.next [] i
      rw [Function.update_of_ne hi.ne]
    · exact absurd rfl (hshard.ne_image n)
    · rw [hself] at hx
      exact ⟨s.next, (Option.some.inj hx).symm⟩
    · intro i _ hi
      rw [hnone] at hi
      cases hi
  refine { hmoves with node := fun q => ?_ }
  by_cases hq : q = cfg.at n 4
  · subst hq
    exact .create n b hplans rfl hnone hself
  · exact .same (hnode q hq)

/-- A part of its plan is written into a file. -/
theorem guarantee_write {b : Bytes} {i offset m : ℕ} (hsound : Sound cfg own s) (hplan : s.plan i = b)
    (hi : i < s.next) (hoffset : offset ≤ (s.data i).length) :
    Guarantee cfg readers own keep r s (s.store i offset ((b.drop offset).take m)) := by
  have hbegin := splice_begins (n := m) (hplan ▸ hsound.planned i hi) hoffset
  have hdata : ∀ j < s.next, s.data j <+: (s.store i offset ((b.drop offset).take m)).data j ∧
      (s.store i offset ((b.drop offset).take m)).data j <+: s.plan j := by
    intro j hj
    by_cases heq : j = i
    · subst heq
      show s.data j <+: Function.update s.data j _ j ∧ Function.update s.data j _ j <+: s.plan j
      rw [Function.update_self, hplan]
      exact ⟨hbegin.2.1, hbegin.1⟩
    · show s.data j <+: Function.update s.data i _ j ∧ Function.update s.data i _ j <+: s.plan j
      rw [Function.update_of_ne heq]
      exact ⟨List.prefix_rfl, hsound.planned j hj⟩
  exact
    { sound := fun h =>
        { real := h.real
          closed := h.closed
          planned := fun j hj => (hdata j hj).2
          numbered := h.numbered
          owned := h.owned }
      next := le_rfl
      plan := fun _ _ => rfl
      data := fun j hj => (hdata j hj).1
      dir := fun _ _ h => h
      shard := fun _ _ h => .inl h
      image := fun _ h => h
      kept := fun _ _ _ h => h
      node := fun _ => .same rfl }

/-- The file of an image is deleted. -/
theorem guarantee_remove {i : ℕ} (hsound : Sound cfg own s) (hdelete : r = .delete n.text)
    (hkeep : ¬ keep (cfg.at n 4)) (hfile : s.node (cfg.at n 4) = some (.file i)) :
    Guarantee cfg readers own keep r s (s.remove (cfg.at n 4)) := by
  have hself : (s.remove (cfg.at n 4)).node (cfg.at n 4) = none := by rw [node_remove, if_pos rfl]
  have hnode : ∀ q, q ≠ cfg.at n 4 → (s.remove (cfg.at n 4)).node q = s.node q := fun q hq => by
    rw [node_remove, if_neg hq]
  have hbefore : ∀ q x, (s.remove (cfg.at n 4)).node q = some x → s.node q = some x := by
    intro q x hq
    rw [node_remove] at hq
    split at hq
    · cases hq
    · exact hq
  have hsound' : Sound cfg own (s.remove (cfg.at n 4)) :=
    { real := real_of_node hsound.real (not_prefix_root (by omega) le_rfl) hnode
      closed := by
        intro q c hq hsome
        obtain ⟨x, hx⟩ := Option.ne_none_iff_exists'.mp hsome
        have hdir := hsound.closed q c hq (by rw [hbefore _ x hx]; exact Option.some_ne_none x)
        rw [hnode q fun heq => by rw [heq, hfile] at hdir; cases hdir]
        exact hdir
      planned := hsound.planned
      numbered := fun q j hq => hsound.numbered q j (hbefore q _ hq)
      owned := fun m j hm => hsound.owned m j (hbefore _ _ hm) }
  have hmoves : Moves cfg own keep s (s.remove (cfg.at n 4)) := by
    refine moves_of_node hnode (fun _ => hsound') le_rfl (fun _ _ => rfl) (fun _ _ => List.prefix_rfl)
      (fun hshard => absurd rfl (hshard.ne_image n)) (fun m _ x hx => ?_) fun j hkept => absurd hkept hkeep
    rw [hself] at hx
    cases hx
  refine { hmoves with node := fun q => ?_ }
  by_cases hq : q = cfg.at n 4
  · subst hq
    exact .delete n hdelete rfl i hfile hself
  · exact .same (hnode q hq)

/-- A node of others, away from the root. -/
theorem moves_elsewhere {s' : Disk} (hbelow : ¬ cfg.root <+: p) (habove : ¬ p <+: cfg.root)
    (hkeep : ∀ q, keep q → cfg.root <+: q) (hnode : ∀ q, q ≠ p → s'.node q = s.node q)
    (hnext : s.next ≤ s'.next) (hplan : ∀ i < s.next, s'.plan i = s.plan i)
    (hdata : ∀ i < s.next, s'.data i = s.data i)
    (hnew : ∀ i, s.next ≤ i → i < s'.next → s'.data i <+: s'.plan i)
    (hfile : ∀ i, s'.node p = some (.file i) → i < s'.next) : Moves cfg own keep s s' := by
  have hroot : ∀ q, cfg.root <+: q → s'.node q = s.node q := fun q hq => hnode q fun heq => hbelow (heq ▸ hq)
  have hshard : ∀ q, IsShard cfg q → s'.node q = s.node q := by
    rintro q ⟨m, j, -, -, rfl⟩
    exact hroot _ root_prefix_at
  exact
    { sound := fun h =>
        { real := real_of_node h.real habove hnode
          closed := fun q c hq hsome => by
            rw [hroot q hq]
            rw [hroot _ (hq.trans (List.prefix_append q [c]))] at hsome
            exact h.closed q c hq hsome
          planned := fun i hi => by
            by_cases hold : i < s.next
            · rw [hdata i hold, hplan i hold]
              exact h.planned i hold
            · exact hnew i (not_lt.mp hold) hi
          numbered := fun q i hq => by
            by_cases heq : q = p
            · exact hfile i (heq ▸ hq)
            · rw [hnode q heq] at hq
              exact lt_of_lt_of_le (h.numbered q i hq) hnext
          owned := fun m i hm => by
            rw [hroot _ root_prefix_at] at hm
            rw [hplan i (h.numbered _ i hm)]
            exact h.owned m i hm }
      next := hnext
      plan := hplan
      data := fun i hi => (hdata i hi).symm ▸ List.prefix_rfl
      dir := fun q hq hdir => by rw [hshard q hq, hdir]
      shard := fun q hq hnone => .inl (by rw [hshard q hq, hnone])
      image := fun m hm x hx => hm x (by rwa [hroot _ root_prefix_at] at hx)
      kept := fun q i hq hi => by rw [hroot q (hkeep q hq), hi] }

/-- What others do outside of the root leaves the images alone. -/
theorem moves_drift (hkeep : ∀ q, keep q → cfg.root <+: q) (e : DiskEvent) (s : Disk) :
    Moves cfg own keep s (e.apply cfg s) := by
  unfold DiskEvent.apply
  split
  · exact moves_refl s
  · rename_i hplace
    rw [not_or, List.isPrefixOf_iff_prefix, List.isPrefixOf_iff_prefix] at hplace
    obtain ⟨hbelow, habove⟩ := hplace
    cases e with
    | directory p =>
      refine moves_elsewhere (p := p) hbelow habove hkeep (fun q hq => by rw [node_put, if_neg hq]) le_rfl
        (fun _ _ => rfl) (fun _ _ => rfl) (fun i h h' => absurd h' (not_lt.mpr h)) fun i hi => ?_
      rw [node_put, if_pos rfl] at hi
      cases hi
    | link p absolute target =>
      refine moves_elsewhere (p := p) hbelow habove hkeep (fun q hq => by rw [node_put, if_neg hq]) le_rfl
        (fun _ _ => rfl) (fun _ _ => rfl) (fun i h h' => absurd h' (not_lt.mpr h)) fun i hi => ?_
      rw [node_put, if_pos rfl] at hi
      cases hi
    | file p bytes =>
      have hnode : ∀ q, (addFile p bytes s).node q = if q = p then some (.file s.next) else s.node q :=
        fun q => node_create (b := bytes) q
      have hdata : ∀ i, (addFile p bytes s).data i = if i = s.next then bytes else s.data i := by
        intro i
        show Function.update (Function.update s.data s.next []) s.next
          (Disk.splice (Function.update s.data s.next [] s.next) 0 bytes) i = _
        by_cases hi : i = s.next
        · rw [hi, Function.update_self, Function.update_self, if_pos rfl]
          simp [Disk.splice]
        · rw [Function.update_of_ne hi, Function.update_of_ne hi, if_neg hi]
      have hplan : ∀ i, (addFile p bytes s).plan i = if i = s.next then bytes else s.plan i := by
        intro i
        show Function.update s.plan s.next bytes i = _
        by_cases hi : i = s.next
        · rw [hi, Function.update_self, if_pos rfl]
        · rw [Function.update_of_ne hi, if_neg hi]
      refine moves_elsewhere (p := p) hbelow habove hkeep (fun q hq => by rw [hnode, if_neg hq]) (Nat.le_succ _)
        (fun i hi => by rw [hplan, if_neg hi.ne]) (fun i hi => by rw [hdata, if_neg hi.ne]) (fun i h h' => ?_)
        fun i hi => ?_
      · obtain rfl : i = s.next := le_antisymm (Nat.lt_succ_iff.mp h') h
        rw [hdata, hplan, if_pos rfl, if_pos rfl]
      · rw [hnode, if_pos rfl] at hi
        cases hi
        exact Nat.lt_succ_self _
    | remove p =>
      refine moves_elsewhere (p := p) hbelow habove hkeep (fun q hq => by rw [node_remove, if_neg hq]) le_rfl
        (fun _ _ => rfl) (fun _ _ => rfl) (fun i h h' => absurd h' (not_lt.mpr h)) fun i hi => ?_
      rw [node_remove, if_pos rfl] at hi
      cases hi

end steps

end CampusHub.Storage
