import CampusHub.Storage.Boundaries

/-!
# The calls of the image storage, one by one

* `Careful` — no query of an attribute fails; other calls may.
* `Checked`, `Made` — the directories of an image are not links, or are there.
* `Complete`, `Known` — an image with all its bytes, and what a call may know of it.
* `safe_verifyParents`, `safe_ensureParents`, `safe_writeAll`, `safe_boundedFile` — the parts of a call, each
  with what is known after it.

Every lemma `safe_…` is the specification of one part of the source, in the form of `Foundations.Programs`:
started in a state that meets its precondition, each of its steps keeps the guarantee of its request,
whatever the others do between them, and its result meets the postcondition. A caller uses the lemma and
never unfolds the program.

**Proof route.** The loops are recursions over the directories or over a number of calls that suffices. Over
the directories the invariant is `Checked` or `Made` down to the one at hand, and `find_at` says what a
query finds there: with no link on the way, it is the node itself. Over the bytes the invariant is `Writing`
or `Reading`, with the offset.

**Left out.** A query that fails to see what is there: `Careful` excludes it, since the source takes a file
that it cannot query as missing.
-/

namespace CampusHub.Storage

open CampusHub.Foundations.Files CampusHub.Foundations.Programs CampusHub.Foundations.Guards

/-- No query is blind, and unless calls may fail none does. -/
def Careful (mayFail : Bool) (d : Chance) : Prop := d.blind = false ∧ (mayFail = false → d.fails = false)

/-- A call of the request is safe among the others. -/
abbrev SafeCall (cfg : ImageStorage) (readers : ImageReaders) (own : Path → Bytes → Prop) (keep : Path → Prop)
    (mayFail : Bool) (r : ImageRequest) {α : Type} (Q : α → Disk → Prop) (p : Prog FileCall FileCall.Answer α)
    (s : Disk) : Prop :=
  Safe FileCall.exec (Careful mayFail) (Guarantee cfg readers own keep r) (Moves cfg own keep) Q p s

/-- The directories down to number `k` are directories, or nothing is there. -/
def Checked (cfg : ImageStorage) (n : ImageName) (k : ℕ) (s : Disk) : Prop :=
  ∀ j, 1 ≤ j → j ≤ k → s.node (cfg.at n j) = some .dir ∨ s.node (cfg.at n j) = none

/-- The directories down to number `k` are there. -/
def Made (cfg : ImageStorage) (n : ImageName) (k : ℕ) (s : Disk) : Prop :=
  ∀ j, 1 ≤ j → j ≤ k → s.node (cfg.at n j) = some .dir

section directories

variable {cfg : ImageStorage} {own : Path → Bytes → Prop} {keep : Path → Prop} {s s' : Disk} {n : ImageName}
  {k : ℕ}

/-- Directories that are there are no links. -/
theorem Made.checked (h : Made cfg n k s) : Checked cfg n k s := fun j hj hjk => .inl (h j hj hjk)

/-- Others keep what was checked. -/
theorem Checked.moves (h : Checked cfg n k s) (hk : k ≤ 3) (hs : Moves cfg own keep s s') :
    Checked cfg n k s' := by
  intro j hj hjk
  have hshard : IsShard cfg (cfg.at n j) := ⟨n, j, hj, hjk.trans hk, rfl⟩
  rcases h j hj hjk with hdir | hnone
  · exact .inl (hs.dir _ hshard hdir)
  · exact (hs.shard _ hshard hnone).symm

/-- Others keep what was made. -/
theorem Made.moves (h : Made cfg n k s) (hk : k ≤ 3) (hs : Moves cfg own keep s s') : Made cfg n k s' :=
  fun j hj hjk => hs.dir _ ⟨n, j, hj, hjk.trans hk, rfl⟩ (h j hj hjk)

/-- One directory more is checked. -/
theorem Checked.snoc (h : Checked cfg n k s)
    (hnext : s.node (cfg.at n (k + 1)) = some .dir ∨ s.node (cfg.at n (k + 1)) = none) :
    Checked cfg n (k + 1) s := by
  intro j hj hjk
  rcases Nat.le_succ_iff.mp hjk with hle | rfl
  · exact h j hj hle
  · exact hnext

/-- One directory more is made. -/
theorem Made.snoc (h : Made cfg n k s) (hnext : s.node (cfg.at n (k + 1)) = some .dir) :
    Made cfg n (k + 1) s := by
  intro j hj hjk
  rcases Nat.le_succ_iff.mp hjk with hle | rfl
  · exact h j hj hle
  · exact hnext

/-- On the way to a directory that was checked there is no link. -/
theorem tame_at (hsound : Sound cfg own s) (h : Checked cfg n k s) (hk : k ≤ 3) {j : ℕ} (hj : j ≤ k + 1) :
    s.Tame (cfg.at n j) := by
  intro q hq
  rcases between_at (by omega) hq with ⟨hne, hroot⟩ | ⟨i, hi, hij, rfl⟩
  · exact .inl (hsound.real q hne hroot)
  · exact h i hi (by omega)

/-- **What is found of an image is what is there.** -/
theorem find_at (hsound : Sound cfg own s) (h : Checked cfg n k s) (hk : k ≤ 3) {j : ℕ} (hj : j ≤ k + 1) :
    s.find (cfg.at n j) = s.node (cfg.at n j) :=
  find_tame hsound.real hsound.closed root_prefix_at plain_at (tame_at hsound h hk hj)

/-- Where the directories are there, the path of an image is its own real path. -/
theorem resolve_at (hsound : Sound cfg own s) (h : Made cfg n k s) (hk : k ≤ 3) :
    s.resolve (cfg.at n (k + 1)) = some (cfg.at n (k + 1)) := by
  refine resolve_rooted plain_at fun q hq => ?_
  rcases between_at (by omega) hq with ⟨hne, hroot⟩ | ⟨i, hi, hij, rfl⟩
  · exact hsound.real q hne hroot
  · exact h i hi (by omega)

/-- The directory above is there. -/
theorem parent_of_made (hsound : Sound cfg own s) (h : Made cfg n k s) (hk : k ≤ 3) :
    s.node (cfg.at n k) = some .dir := by
  rcases Nat.eq_zero_or_pos k with rfl | hpos
  · rw [at_zero]
    exact hsound.real _ cfg.root_ne List.prefix_rfl
  · exact h k hpos le_rfl

/-- Where the image is there its directories are. -/
theorem made_of_image (hsound : Sound cfg own s) (h : s.node (cfg.at n 4) ≠ none) : Made cfg n 3 s := by
  have hup : ∀ k, k < 4 → s.node (cfg.at n (k + 1)) ≠ none → s.node (cfg.at n k) = some .dir := by
    intro k hk hsome
    rw [at_succ (by simpa using hk)] at hsome
    exact hsound.closed _ _ root_prefix_at hsome
  have h3 := hup 3 (by omega) h
  have h2 := hup 2 (by omega) (by rw [h3]; exact Option.some_ne_none _)
  have h1 := hup 1 (by omega) (by rw [h2]; exact Option.some_ne_none _)
  intro j hj hj3
  interval_cases j
  · exact h1
  · exact h2
  · exact h3

/-- The image has the bytes that were planned. -/
def Complete (cfg : ImageStorage) (n : ImageName) (b : Bytes) (s : Disk) : Prop :=
  ∃ i, s.node (cfg.at n 4) = some (.file i) ∧ s.plan i = b ∧ s.data i = b

/-- What is planned and written stays, where the image is kept. -/
theorem Complete.moves {b : Bytes} (h : Complete cfg n b s) (hkeep : keep (cfg.at n 4)) (hsound : Sound cfg own s)
    (hs : Moves cfg own keep s s') : Complete cfg n b s' := by
  obtain ⟨i, hnode, hplan, hdata⟩ := h
  have hi : i < s.next := hsound.numbered _ i hnode
  have hplan' : s'.plan i = b := by rw [hs.plan i hi, hplan]
  have hplanned := (hs.sound hsound).planned i (lt_of_lt_of_le hi hs.next)
  have hgrown := hs.data i hi
  rw [hplan'] at hplanned
  rw [hdata] at hgrown
  exact ⟨i, hs.kept _ i hkeep hnode, hplan', hplanned.eq_of_length_le hgrown.length_le⟩

/-- The bytes that an image is known to have, if they are known. -/
def Known (cfg : ImageStorage) (keep : Path → Prop) (n : ImageName) (full : Option Bytes) (s : Disk) : Prop :=
  ∀ b, full = some b → keep (cfg.at n 4) ∧ Complete cfg n b s ∧ b.length ≤ cfg.maxBytes

/-- Nothing has to be known of an image. -/
theorem known_none : Known cfg keep n none s := fun b h => by cases h

/-- What is known of an image stays. -/
theorem Known.moves {full : Option Bytes} (h : Known cfg keep n full s) (hsound : Sound cfg own s)
    (hs : Moves cfg own keep s s') : Known cfg keep n full s' := by
  intro b hb
  obtain ⟨hkeep, hcomplete, hlen⟩ := h b hb
  exact ⟨hkeep, hcomplete.moves hkeep hsound hs, hlen⟩

/-- The directories of an image that is known are there. -/
theorem Known.made {full : Option Bytes} (h : Known cfg keep n full s) (hsound : Sound cfg own s)
    (hfull : full ≠ none) : Made cfg n 3 s := by
  obtain ⟨b, hb⟩ := Option.ne_none_iff_exists'.mp hfull
  obtain ⟨-, ⟨i, hnode, -, -⟩, -⟩ := h b hb
  refine made_of_image hsound ?_
  rw [hnode]
  exact Option.some_ne_none _

/-- The next directory on the way to an image. -/
theorem dirs_drop (cfg : ImageStorage) (n : ImageName) (hk : k < 3) :
    ∃ x, (n.path.take 3).drop k = x :: (n.path.take 3).drop (k + 1) ∧ cfg.at n k ++ [x] = cfg.at n (k + 1) := by
  have hlen : k < (n.path.take 3).length := by simpa using hk
  refine ⟨(n.path.take 3)[k], List.drop_eq_getElem_cons hlen, ?_⟩
  rw [at_succ (by rw [path_length]; omega), List.getElem_take]

end directories

/-! ## The parts of a call -/

section parts

variable {cfg : ImageStorage} {readers : ImageReaders} {own : Path → Bytes → Prop} {keep : Path → Prop}
  {mayFail : Bool} {r : ImageRequest} {n : ImageName}

/-- **The rule of a query.** -/
theorem safe_query {α : Type} {Q : Except Thrown α → Disk → Prop} {a : Attribute} {p : Path}
    {f : Bool → FileCode α} {s : Disk}
    (h : ∀ s', Moves cfg own keep s s' → s'.find p = s'.node p ∧
      SafeCall cfg readers own keep mayFail r Q (f ((s'.node p).any a.holds)).run s') :
    SafeCall cfg readers own keep mayFail r Q ((Code.ask (FileCall.query a p) : FileCode Bool) >>= f).run s := by
  refine safe_ask fun s' hs d hd => ⟨guarantee_refl s', ?_⟩
  obtain ⟨hfind, hsafe⟩ := h s' hs
  show SafeCall cfg readers own keep mayFail r Q (f (!d.blind && (s'.find p).any a.holds)).run s'
  rw [hd.1, hfind]
  exact hsafe

/-- What a call of the storage throws, it throws whatever happens. -/
theorem safe_throw {ε α : Type} {Q : Except ε α → Disk → Prop} {e : ε} {s : Disk} (h : ∀ s', Q (.error e) s') :
    SafeCall cfg readers own keep mayFail r Q (throw e : Code FileCall FileCall.Answer ε α).run s :=
  safe_ret fun s' _ => h s'

/-- After the check of the directories. -/
structure Verified (cfg : ImageStorage) (own : Path → Bytes → Prop) (keep : Path → Prop) (n : ImageName)
    (full : Option Bytes) (r : Except Thrown Unit) (s : Disk) : Prop where
  sound : Sound cfg own s
  known : Known cfg keep n full s
  checked : r = .ok () → Checked cfg n 3 s
  passed : full ≠ none → r = .ok ()

/-- The check has failed, which it does for no image that is known. -/
theorem safe_refused {full : Option Bytes} {e : Thrown} {s : Disk} (hsound : Sound cfg own s)
    (hknown : Known cfg keep n full s) (hfull : full = none) :
    SafeCall cfg readers own keep mayFail r (Verified cfg own keep n full)
      (throw e : FileCode Unit).run s := by
  subst hfull
  exact safe_ret fun s' hs => ⟨hs.sound hsound, hknown.moves hsound hs, fun h => (by cases h), fun h => absurd rfl h⟩

/-- The check goes down one directory after another. -/
theorem safe_verifyParts {full : Option Bytes} : ∀ (m k : ℕ), k + m = 3 → ∀ s, Sound cfg own s →
    Known cfg keep n full s → Checked cfg n k s →
    SafeCall cfg readers own keep mayFail r (Verified cfg own keep n full)
      (verifyParts (cfg.at n k) ((n.path.take 3).drop k)).run s
  | 0, k, hk, s, hsound, hknown, hchecked => by
    obtain rfl : k = 3 := hk
    exact safe_ret fun s' hs =>
      ⟨hs.sound hsound, hknown.moves hsound hs, fun _ => hchecked.moves le_rfl hs, fun _ => rfl⟩
  | m + 1, k, hk, s, hsound, hknown, hchecked => by
    obtain ⟨x, hdrop, hat⟩ := dirs_drop cfg n (k := k) (by omega)
    rw [hdrop, verifyParts, hat]
    have hfind : ∀ s', Moves cfg own keep s s' → s'.find (cfg.at n (k + 1)) = s'.node (cfg.at n (k + 1)) :=
      fun s' hs => find_at (hs.sound hsound) (hchecked.moves (by omega) hs) (by omega) le_rfl
    -- where the image is known its directories are there
    have hdir : ∀ s', Moves cfg own keep s s' → s'.node (cfg.at n (k + 1)) ≠ some .dir → full = none := by
      intro s' hs hnot
      by_contra hfull
      exact hnot ((hknown.moves hsound hs).made (hs.sound hsound) hfull (k + 1) (by omega) (by omega))
    refine safe_query fun s₁ h₁ => ⟨hfind s₁ h₁, ?_⟩
    split
    · rename_i hlink
      refine safe_refused (h₁.sound hsound) (hknown.moves hsound h₁) (hdir s₁ h₁ fun h => ?_)
      obtain ⟨absolute, target, hnode⟩ := any_symbolicLink.mp hlink
      rw [h] at hnode
      cases hnode
    · refine safe_query fun s₂ h₂ => ⟨hfind s₂ (moves_trans _ _ _ h₁ h₂), ?_⟩
      have hs₂ := moves_trans _ _ _ h₁ h₂
      split
      · refine safe_query fun s₃ h₃ => ⟨hfind s₃ (moves_trans _ _ _ hs₂ h₃), ?_⟩
        have hs₃ := moves_trans _ _ _ hs₂ h₃
        split
        · rename_i hisdir
          refine safe_verifyParts m (k + 1) (by omega) s₃ (hs₃.sound hsound) (hknown.moves hsound hs₃) ?_
          exact (hchecked.moves (by omega) hs₃).snoc (.inl (any_directory.mp hisdir))
        · rename_i hisdir
          refine safe_refused (hs₃.sound hsound) (hknown.moves hsound hs₃) (hdir s₃ hs₃ fun h => ?_)
          exact hisdir (any_directory.mpr h)
      · rename_i hexists
        refine safe_verifyParts m (k + 1) (by omega) s₂ (hs₂.sound hsound) (hknown.moves hsound hs₂) ?_
        refine (hchecked.moves (by omega) hs₂).snoc (.inr ?_)
        by_contra hsome
        exact hexists (any_exists.mpr hsome)

/-- The directories of an image, as the program takes them. -/
theorem parts_at (cfg : ImageStorage) (n : ImageName) :
    Storage.parts cfg (cfg.at n 4) = (n.path.take 3).drop 0 := by
  rw [at_four, parts_path]
  rfl

/-- **After the check of the directories** there is no link on the way; and it passes for an image that is
known. -/
theorem safe_verifyParents {full : Option Bytes} {s : Disk} (hsound : Sound cfg own s)
    (hknown : Known cfg keep n full s) :
    SafeCall cfg readers own keep mayFail r (Verified cfg own keep n full)
      (verifyParents cfg (cfg.at n 4)).run s := by
  have hnone : ∀ s', Checked cfg n 0 s' := fun s' j hj hj0 => by omega
  have hroot : ∀ s', Moves cfg own keep s s' → s'.node cfg.root = some .dir := fun s' hs =>
    (hs.sound hsound).real _ cfg.root_ne List.prefix_rfl
  have hfind : ∀ s', Moves cfg own keep s s' → s'.find cfg.root = s'.node cfg.root := by
    intro s' hs
    have hroot := find_at (hs.sound hsound) (hnone s') (n := n) (by omega) (j := 0) (by omega)
    rwa [at_zero] at hroot
  unfold verifyParents
  rw [parts_at]
  refine safe_query fun s₁ h₁ => ⟨hfind s₁ h₁, ?_⟩
  rw [hroot s₁ h₁, if_neg (by simp [Attribute.holds])]
  refine safe_query fun s₂ h₂ => ⟨hfind s₂ (moves_trans _ _ _ h₁ h₂), ?_⟩
  have hs₂ := moves_trans _ _ _ h₁ h₂
  rw [hroot s₂ hs₂, if_pos (by simp [Attribute.holds])]
  have hverify : SafeCall cfg readers own keep mayFail r (Verified cfg own keep n full)
      (verifyParts (cfg.at n 0) ((n.path.take 3).drop 0)).run s₂ :=
    safe_verifyParts 3 0 rfl s₂ (hs₂.sound hsound) (hknown.moves hsound hs₂) (hnone s₂)
  rwa [at_zero] at hverify

/-- After the directories were made. -/
def Ensured (cfg : ImageStorage) (own : Path → Bytes → Prop) (n : ImageName) (r : Except Thrown Unit)
    (s : Disk) : Prop := r = .ok () → Sound cfg own s ∧ Made cfg n 3 s

/-- What the program does with an answer of the file system. -/
theorem run_createDirectory {α : Type} (p : Path) (f : Bool → FileCode α) :
    (createDirectory p >>= f).run = Prog.call (FileCall.createDirectory p) fun r : Except IoException Unit =>
      (match r with
        | .ok () => f true
        | .error .fileAlreadyExists => f false
        | .error .other => (throw Thrown.io : FileCode α)).run := by
  refine congrArg (Prog.call (FileCall.createDirectory p)) (funext fun r => ?_)
  rcases r with (- | -) | - <;> rfl

/-- What `createDirectory` does where the directories above are there. -/
theorem safe_createDirectory {α : Type} {Q : Except Thrown α → Disk → Prop} {f : Bool → FileCode α} {s : Disk}
    {k : ℕ} (hk : k < 3) (hsound : Sound cfg own s) (hmade : Made cfg n k s)
    (htrue : ∀ s', Moves cfg own keep s s' → Made cfg n (k + 1) s' →
      SafeCall cfg readers own keep mayFail r Q (f true).run s')
    (hfalse : ∀ s', Moves cfg own keep s s' → SafeCall cfg readers own keep mayFail r Q (f false).run s')
    (hio : ∀ s', Q (.error .io) s') :
    SafeCall cfg readers own keep mayFail r Q (createDirectory (cfg.at n (k + 1)) >>= f).run s := by
  rw [run_createDirectory]
  intro s' hs d hd
  have hsound' := hs.sound hsound
  have hmade' := hmade.moves (by omega) hs
  have hne : cfg.at n (k + 1) ≠ [] := fun h => cfg.root_ne (List.append_eq_nil_iff.mp h).1
  rw [exec_createDirectory d (resolve_at hsound' hmade' (by omega)) hne]
  by_cases hfails : d.fails = true
  · rw [if_pos hfails]
    exact ⟨guarantee_refl s', safe_throw hio⟩
  · rw [if_neg hfails]
    cases hnode : s'.node (cfg.at n (k + 1)) with
    | some x => exact ⟨guarantee_refl s', hfalse s' hs⟩
    | none =>
      have hmkdir : Guarantee cfg readers own keep r s' (s'.put (cfg.at n (k + 1)) .dir) :=
        guarantee_mkdir hsound' (by omega) (by omega) hnode fun q c hq => by
          rw [parent_at (by omega) hq]
          exact parent_of_made hsound' hmade' (by omega)
      refine ⟨hmkdir, htrue _ (moves_trans _ _ _ hs hmkdir.toMoves) ?_⟩
      refine (hmade'.moves (by omega) hmkdir.toMoves).snoc ?_
      show (s'.put (cfg.at n (k + 1)) .dir).node (cfg.at n (k + 1)) = some .dir
      rw [node_put, if_pos rfl]

/-- The directories are made one after another. -/
theorem safe_ensureParts : ∀ (m k : ℕ), k + m = 3 → ∀ s, Sound cfg own s → Made cfg n k s →
    SafeCall cfg readers own keep mayFail r (Ensured cfg own n)
      (ensureParts (cfg.at n k) ((n.path.take 3).drop k)).run s
  | 0, k, hk, s, hsound, hmade => by
    obtain rfl : k = 3 := hk
    exact safe_ret fun s' hs _ => ⟨hs.sound hsound, hmade.moves le_rfl hs⟩
  | m + 1, k, hk, s, hsound, hmade => by
    obtain ⟨x, hdrop, hat⟩ := dirs_drop cfg n (k := k) (by omega)
    rw [hdrop, ensureParts, hat]
    have hfind : ∀ s', Moves cfg own keep s s' → s'.find (cfg.at n (k + 1)) = s'.node (cfg.at n (k + 1)) :=
      fun s' hs => find_at (hs.sound hsound) (hmade.moves (by omega) hs).checked (by omega) le_rfl
    refine safe_query fun s₁ h₁ => ⟨hfind s₁ h₁, ?_⟩
    split
    · exact safe_throw fun s' h => by cases h
    · refine safe_createDirectory (by omega) (h₁.sound hsound) (hmade.moves (by omega) h₁) (fun s₂ h₂ hnext => ?_)
        (fun s₂ h₂ => ?_) fun s' h => by cases h
      · exact safe_ensureParts m (k + 1) (by omega) s₂ (h₂.sound (h₁.sound hsound)) hnext
      · -- somebody else has made it, or something else is there
        have hs₂ := moves_trans _ _ _ h₁ h₂
        refine safe_query fun s₃ h₃ => ⟨hfind s₃ (moves_trans _ _ _ hs₂ h₃), ?_⟩
        have hs₃ := moves_trans _ _ _ hs₂ h₃
        split
        · rename_i hdir
          refine safe_ensureParts m (k + 1) (by omega) s₃ (hs₃.sound hsound) ?_
          exact (hmade.moves (by omega) hs₃).snoc (any_directory.mp hdir)
        · exact safe_throw fun s' h => by cases h

/-- **The directories of an image are there afterwards**, if nothing was thrown. -/
theorem safe_ensureParents {s : Disk} (hsound : Sound cfg own s) :
    SafeCall cfg readers own keep mayFail r (Ensured cfg own n) (ensureParents cfg (cfg.at n 4)).run s := by
  refine safe_code moves_refl (safe_verifyParents hsound known_none (n := n)) (fun _ s' hs' => ?_)
    fun e s' _ s'' _ h => by cases h
  have hensure : SafeCall cfg readers own keep mayFail r (Ensured cfg own n)
      (ensureParts (cfg.at n 0) ((n.path.take 3).drop 0)).run s' :=
    safe_ensureParts 3 0 rfl s' hs'.sound fun j hj hj0 => by omega
  rwa [at_zero, ← parts_at] at hensure

/-- A file that a call is writing its plan into; where its image is kept it is the file of the image. -/
structure Writing (cfg : ImageStorage) (own : Path → Bytes → Prop) (keep : Path → Prop) (n : ImageName) (i : ℕ)
    (b : Bytes) (offset : ℕ) (s : Disk) : Prop where
  sound : Sound cfg own s
  numbered : i < s.next
  plan : s.plan i = b
  written : b.take offset <+: s.data i
  kept : keep (cfg.at n 4) → s.node (cfg.at n 4) = some (.file i)

/-- Others leave alone what was written. -/
theorem Writing.moves {i offset : ℕ} {b : Bytes} {s s' : Disk} (h : Writing cfg own keep n i b offset s)
    (hs : Moves cfg own keep s s') : Writing cfg own keep n i b offset s' where
  sound := hs.sound h.sound
  numbered := lt_of_lt_of_le h.numbered hs.next
  plan := by rw [hs.plan i h.numbered, h.plan]
  written := h.written.trans (hs.data i h.numbered)
  kept hkeep := hs.kept _ i hkeep (h.kept hkeep)

/-- What is written to the end is all of the plan. -/
theorem Writing.data {i offset : ℕ} {b : Bytes} {s : Disk} (h : Writing cfg own keep n i b offset s)
    (hend : b.length ≤ offset) : s.data i = b := by
  have hplanned := h.sound.planned i h.numbered
  have hwritten := h.written
  rw [h.plan] at hplanned
  rw [List.take_of_length_le hend] at hwritten
  exact hplanned.eq_of_length_le hwritten.length_le

/-- No more is moved than there is. -/
theorem moved_le (d : Chance) (m : ℕ) : d.moved m ≤ m := Nat.min_le_left ..

/-- Something is moved, if there is anything. -/
theorem moved_pos (d : Chance) {m : ℕ} (hm : 0 < m) : 0 < d.moved m := by
  unfold Chance.moved bufferSize
  omega

/-- After all was written. -/
def Written (cfg : ImageStorage) (own : Path → Bytes → Prop) (keep : Path → Prop) (n : ImageName) (i : ℕ)
    (b : Bytes) (r : Except Thrown Unit) (s : Disk) : Prop :=
  r = .ok () → Writing cfg own keep n i b b.length s

/-- A call at the end of its bytes has written all of them. -/
theorem Writing.written_of_le {i offset : ℕ} {b : Bytes} {s : Disk}
    (h : Writing cfg own keep n i b offset s) (hend : b.length ≤ offset) :
    SafeCall cfg readers own keep mayFail r (Written cfg own keep n i b) (.ret (.ok ())) s := by
  refine safe_ret fun s' hs _ => ?_
  have hwritten := h.moves hs
  refine { hwritten with written := ?_ }
  rw [hwritten.data hend]
  exact List.take_prefix _ _

/-- The bytes are written part by part, each call after what was written. -/
theorem safe_writeAll {i : ℕ} {b : Bytes} : ∀ (fuel offset : ℕ) (s : Disk),
    Writing cfg own keep n i b offset s → (b.drop offset).length ≤ fuel →
    SafeCall cfg readers own keep mayFail r (Written cfg own keep n i b)
      (writeAll i fuel offset (b.drop offset)).run s
  | 0, offset, s, h, hfuel => h.written_of_le (by simpa [Nat.sub_eq_zero_iff_le] using hfuel)
  | fuel + 1, offset, s, h, hfuel => by
    rw [writeAll]
    split
    · rename_i hnil
      exact h.written_of_le (List.drop_eq_nil_iff.mp hnil)
    · rename_i hnil
      have hoffset : offset < b.length := by
        by_contra hle
        exact hnil (List.drop_eq_nil_of_le (not_lt.mp hle))
      refine safe_ask fun s' hs d _ => ?_
      have hwriting := h.moves hs
      by_cases hfails : d.fails = true
      · rw [FileCall.exec, if_pos hfails]
        exact ⟨guarantee_refl s', safe_throw fun _ h => by cases h⟩
      · rw [FileCall.exec, if_neg hfails]
        set m := d.moved (b.drop offset).length
        have hlong : offset ≤ (s'.data i).length := by
          have hlen := hwriting.written.length_le
          rw [List.length_take] at hlen
          omega
        have hstore : Guarantee cfg readers own keep r s' (s'.store i offset ((b.drop offset).take m)) :=
          guarantee_write hwriting.sound hwriting.plan hwriting.numbered hlong
        refine ⟨hstore, ?_⟩
        have hm : m ≤ (b.drop offset).length := moved_le d _
        have hpos : 0 < m := moved_pos d (List.length_pos_iff.mpr hnil)
        have hnext : Writing cfg own keep n i b (offset + m) (s'.store i offset ((b.drop offset).take m)) := by
          refine { hwriting.moves hstore.toMoves with written := ?_ }
          have hsplice := (splice_begins (n := m) (hwriting.plan ▸ hwriting.sound.planned i hwriting.numbered)
            hlong).2.2
          rw [List.length_take, Nat.min_eq_left hm] at hsplice
          show _ <+: Function.update s'.data i _ i
          rwa [Function.update_self]
        have hrest := safe_writeAll fuel (offset + m) _ hnext (by simp only [List.length_drop] at *; omega)
        rwa [← List.drop_drop] at hrest

/-- A file that a call is reading. -/
structure Reading (cfg : ImageStorage) (own : Path → Bytes → Prop) (i : ℕ) (b : Bytes) (whole : Prop)
    (output : Bytes) (s : Disk) : Prop where
  sound : Sound cfg own s
  numbered : i < s.next
  plan : s.plan i = b
  read : output <+: s.data i
  short : output.length ≤ cfg.maxBytes
  whole : whole → s.data i = b ∧ b.length ≤ cfg.maxBytes

/-- Others leave alone what was read. -/
theorem Reading.moves {i : ℕ} {b output : Bytes} {whole : Prop} {s s' : Disk}
    (h : Reading cfg own i b whole output s) (hs : Moves cfg own keep s s') :
    Reading cfg own i b whole output s' := by
  have hplan : s'.plan i = b := by rw [hs.plan i h.numbered, h.plan]
  have hnext : i < s'.next := lt_of_lt_of_le h.numbered hs.next
  refine ⟨hs.sound h.sound, hnext, hplan, h.read.trans (hs.data i h.numbered), h.short, fun hwhole => ?_⟩
  obtain ⟨hdata, hlen⟩ := h.whole hwhole
  have hplanned := (hs.sound h.sound).planned i hnext
  have hgrown := hs.data i h.numbered
  rw [hplan] at hplanned
  rw [hdata] at hgrown
  exact ⟨hplanned.eq_of_length_le hgrown.length_le, hlen⟩

/-- What the bytes of a file are answered with. -/
structure ReadEnd (cfg : ImageStorage) (b : Bytes) (whole : Prop) (mayFail : Bool) (r : Except Thrown Bytes)
    (_ : Disk) : Prop where
  bytes : ∀ out, r = .ok out → out <+: b ∧ out ≠ [] ∧ out.length ≤ cfg.maxBytes
  whole : whole → r = finish b ∨ mayFail = true ∧ r = .error .io

/-- The bytes are read part by part, up to one more than the limit. -/
theorem safe_boundedFile {i : ℕ} {b : Bytes} {whole : Prop} : ∀ (fuel : ℕ) (output : Bytes) (s : Disk),
    Reading cfg own i b whole output s → cfg.maxBytes + 1 ≤ fuel + output.length →
    SafeCall cfg readers own keep mayFail r (ReadEnd cfg b whole mayFail) (boundedFile cfg i fuel output).run s
  | 0, output, s, h, hfuel => by
    have hshort := h.short
    omega
  | fuel + 1, output, s, h, hfuel => by
    rw [boundedFile]
    refine safe_ask fun s' hs d hd => ⟨guarantee_refl s', ?_⟩
    have hreading := h.moves hs
    rw [FileCall.exec]
    by_cases hfails : d.fails = true
    · rw [if_pos hfails]
      refine safe_throw fun _ => ⟨fun out h => (by cases h), fun _ => .inr ⟨?_, rfl⟩⟩
      by_contra hmay
      rw [hd.2 (Bool.not_eq_true _ ▸ hmay)] at hfails
      cases hfails
    · rw [if_neg hfails]
      set rest := (s'.data i).drop output.length
      set chunk := rest.take (d.moved rest.length)
      show SafeCall cfg readers own keep mayFail r _ (if chunk = [] then _ else _ : FileCode Bytes).run s'
      split
      · rename_i hchunk
        -- the end of the file: all that is there has been read
        have hnil : rest = [] := by
          by_contra hrest
          have hpos := moved_pos d (List.length_pos_iff.mpr hrest)
          rcases List.take_eq_nil_iff.mp hchunk with hzero | hrest'
          · omega
          · exact hrest hrest'
        have hall : output = s'.data i :=
          hreading.read.eq_of_length_le (List.drop_eq_nil_iff.mp hnil)
        have hfinish : ReadEnd cfg b whole mayFail (finish output) s' := by
          refine ⟨fun out hout => ?_, fun hwhole => .inl ?_⟩
          · simp only [finish, ensure_bind_eq_ok, Except.ok.injEq] at hout
            obtain ⟨hne, rfl⟩ := hout
            refine ⟨?_, hne, hreading.short⟩
            rw [← hreading.plan]
            exact hreading.read.trans (hreading.sound.planned i hreading.numbered)
          · rw [hall, (hreading.whole hwhole).1]
        cases hend : finish output with
        | ok out =>
          rw [hend] at hfinish
          exact safe_ret fun _ _ => ⟨hfinish.bytes, hfinish.whole⟩
        | error e =>
          rw [hend] at hfinish
          exact safe_ret fun _ _ => ⟨hfinish.bytes, hfinish.whole⟩
      · rename_i hchunk
        have hmore : output ++ chunk <+: s'.data i := by
          obtain ⟨tail, htail⟩ := hreading.read
          refine ⟨rest.drop (d.moved rest.length), ?_⟩
          have hrest : tail = rest := by
            show tail = (s'.data i).drop output.length
            rw [← htail, List.drop_left]
          rw [List.append_assoc, List.take_append_drop, ← hrest, htail]
        unfold append
        by_cases hfits : (output.length : ℤ) ≤ cfg.maxBytes - chunk.length
        · rw [ensure_of hfits]
          have hlen : (output ++ chunk).length ≤ cfg.maxBytes := by
            rw [List.length_append]
            omega
          have hpos := List.length_pos_iff.mpr hchunk
          refine safe_boundedFile fuel (output ++ chunk) s' { hreading with read := hmore, short := hlen } ?_
          rw [List.length_append]
          omega
        · rw [ensure_of_not hfits]
          refine safe_throw fun _ => ⟨fun out h => (by cases h), fun hwhole => ?_⟩
          obtain ⟨hdata, hlen⟩ := hreading.whole hwhole
          have hle := hmore.length_le
          rw [hdata, List.length_append] at hle
          omega

end parts

end CampusHub.Storage
