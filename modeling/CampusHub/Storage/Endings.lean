import CampusHub.Storage.Calls

/-!
# What calls of the image storage end with

* `safe_readTarget`, `safe_deleteTarget`, `safe_write` — the three calls, within their `try`.
* `Ends`, `safe_start` — what a call ends with, and that each call is safe among the others and ends so.
* `safe_read_known` — a read of an image whose bytes are known.
* `within_start` — every call is over after so many of its own calls of the file system.

**Theorem** (`safe_start`). Every call is safe among the others. One that stores, once it has answered, has
left all bytes under the name that it answers, as long as the image is kept; one that reads answers a
beginning of what was planned for its image.

**Theorem** (`within_start`). No call waits for another: each is over after a number of its own calls of the
file system that depends on the limits only, whatever the others do.

**Proof route.** The first is put together from the parts in `Storage.Calls`, with `catch` translated by
`Thrown.caught`. The second is a recursion over the programs: the loops over directories have three rounds,
and a call that moves bytes moves at least one.

**Left out.** How long a call of the file system itself takes.
-/

namespace CampusHub.Storage

open CampusHub.Foundations.Files CampusHub.Foundations.Programs CampusHub.Foundations.Guards

section calls

variable {cfg : ImageStorage} {readers : ImageReaders} {own : Path → Bytes → Prop} {keep : Path → Prop}
  {mayFail : Bool} {r : ImageRequest} {n : ImageName}

/-- What a read ends with. -/
structure TargetRead (cfg : ImageStorage) (own : Path → Bytes → Prop) (n : ImageName) (full : Option Bytes)
    (mayFail : Bool) (a : Except Thrown ImageAnswer) (_ : Disk) : Prop where
  answer : ∀ ans, a = .ok ans → ∃ out b, ans = .bytes out ∧ own (cfg.at n 4) b ∧ out <+: b ∧ out ≠ [] ∧
    out.length ≤ cfg.maxBytes
  known : ∀ b, full = some b → a = (finish b).map .bytes ∨ mayFail = true ∧ a = .error .io

/-- An image that is not there is not one that is known. -/
theorem safe_targetMissing {full : Option Bytes} {e : Thrown} {s : Disk} (hfull : full = none) :
    SafeCall cfg readers own keep mayFail r (TargetRead cfg own n full mayFail)
      (throw e : FileCode ImageAnswer).run s := by
  subst hfull
  exact safe_throw fun _ => ⟨fun ans h => (by cases h), fun b h => (by cases h)⟩

/-- A call that has opened the file of an image reads it. -/
theorem safe_readFile {full : Option Bytes} {i : ℕ} {b : Bytes} {s : Disk}
    (h : Reading cfg own i b (full ≠ none) [] s) (hfull : ∀ b', full = some b' → b' = b)
    (hown : own (cfg.at n 4) b) :
    SafeCall cfg readers own keep mayFail r (TargetRead cfg own n full mayFail)
      (do return .bytes (← boundedFile cfg i (cfg.maxBytes + 1) []) : FileCode ImageAnswer).run s := by
  refine safe_code moves_refl (safe_boundedFile _ [] s h (by simp)) (fun out s' hout => ?_) fun e s' he s'' _ => ?_
  · refine safe_ret fun _ _ => ⟨fun ans hans => ?_, fun b' hb' => ?_⟩
    · cases hans
      obtain ⟨hbegin, hne, hlen⟩ := hout.bytes out rfl
      exact ⟨out, b, rfl, hown, hbegin, hne, hlen⟩
    · obtain rfl := hfull b' hb'
      rcases hout.whole (by rw [hb']; exact Option.some_ne_none _) with hfinish | ⟨-, hio⟩
      · refine .inl ?_
        rw [← hfinish]
        rfl
      · cases hio
  · refine ⟨fun ans h => (by cases h), fun b' hb' => ?_⟩
    obtain rfl := hfull b' hb'
    rcases he.whole (by rw [hb']; exact Option.some_ne_none _) with hfinish | ⟨hmay, hio⟩
    · refine .inl ?_
      rw [← hfinish]
      rfl
    · cases hio
      exact .inr ⟨hmay, rfl⟩

/-- **A read answers a beginning of what the image was planned to be**, and all of an image that is known. -/
theorem safe_readTarget {full : Option Bytes} {s : Disk} (hsound : Sound cfg own s)
    (hknown : Known cfg keep n full s) :
    SafeCall cfg readers own keep mayFail r (TargetRead cfg own n full mayFail)
      (readTarget cfg (cfg.at n 4)).run s := by
  refine safe_code moves_refl (safe_verifyParents hsound hknown) (fun _ s' h => ?_) fun e s' h s'' _ => ?_
  · have hfind : ∀ s'', Moves cfg own keep s' s'' → s''.find (cfg.at n 4) = s''.node (cfg.at n 4) :=
      fun s'' hs => find_at (hs.sound h.sound) ((h.checked rfl).moves le_rfl hs) le_rfl le_rfl
    have hfile : ∀ s'', Moves cfg own keep s' s'' → (∀ i, s''.node (cfg.at n 4) ≠ some (.file i)) →
        full = none := by
      intro s'' hs hnot
      by_contra hfull
      obtain ⟨b, hb⟩ := Option.ne_none_iff_exists'.mp hfull
      obtain ⟨-, ⟨i, hnode, -, -⟩, -⟩ := h.known.moves h.sound hs b hb
      exact hnot i hnode
    refine safe_query fun s₁ h₁ => ⟨hfind s₁ h₁, ?_⟩
    split
    · refine safe_query fun s₂ h₂ => ⟨hfind s₂ (moves_trans _ _ _ h₁ h₂), ?_⟩
      have hs₂ := moves_trans _ _ _ h₁ h₂
      split
      · refine safe_ask fun s₃ h₃ d hd => ?_
        have hs₃ := moves_trans _ _ _ hs₂ h₃
        have hsound₃ := hs₃.sound h.sound
        rcases exec_newInputStream d s₃ (cfg.at n 4) with ⟨i, hopen, hexec⟩ | ⟨hnot, hexec⟩
        · rw [hexec]
          refine ⟨guarantee_refl s₃, ?_⟩
          rw [hfind s₃ hs₃] at hopen
          by_cases hfails : d.fails = true
          · rw [if_pos hfails]
            refine safe_throw fun _ => ⟨fun ans h => (by cases h), fun b _ => .inr ⟨?_, rfl⟩⟩
            by_contra hmay
            rw [hd.2 (Bool.not_eq_true _ ▸ hmay)] at hfails
            cases hfails
          · rw [if_neg hfails]
            have hknown₃ := h.known.moves h.sound hs₃
            refine safe_readFile (i := i) (b := s₃.plan i) ?_ (fun b hb => ?_) (hsound₃.owned n i hopen)
            · refine ⟨hsound₃, hsound₃.numbered _ i hopen, rfl, List.nil_prefix, Nat.zero_le _, fun hfull => ?_⟩
              obtain ⟨b, hb⟩ := Option.ne_none_iff_exists'.mp hfull
              obtain ⟨-, ⟨j, hnode, hplan, hdata⟩, hlen⟩ := hknown₃ b hb
              obtain rfl : j = i := by
                rw [hopen] at hnode
                exact (Node.file.inj (Option.some.inj hnode)).symm
              rw [hplan]
              exact ⟨hdata, hlen⟩
            · obtain ⟨-, ⟨j, hnode, hplan, -⟩, -⟩ := hknown₃ b hb
              rw [hopen] at hnode
              cases hnode
              exact hplan.symm
        · rw [hexec]
          refine ⟨guarantee_refl s₃, safe_targetMissing (hfile s₃ hs₃ ?_)⟩
          rwa [hfind s₃ hs₃] at hnot
      · rename_i hregular
        exact safe_targetMissing (hfile s₂ hs₂ fun i hi => hregular (any_regularFile.mpr ⟨i, hi⟩))
    · rename_i hexists
      refine safe_targetMissing (hfile s₁ h₁ fun i hi => hexists (any_exists.mpr ?_))
      rw [hi]
      exact Option.some_ne_none _
  · refine ⟨fun ans h => (by cases h), fun b hb => ?_⟩
    have hpassed := h.passed (by rw [hb]; exact Option.some_ne_none b)
    cases hpassed

/-- What a deletion ends with. -/
def Deleted (a : Except Thrown ImageAnswer) (_ : Disk) : Prop := ∀ ans, a = .ok ans → ans = .deleted

/-- A call that has found a file or nothing deletes it. -/
theorem safe_deleteFile {s : Disk} (hsound : Sound cfg own s) (hchecked : Checked cfg n 3 s)
    (hfile : ∀ x, s.node (cfg.at n 4) = some x → ∃ i, x = .file i) (hdelete : r = .delete n.text)
    (hkeep : ¬ keep (cfg.at n 4)) :
    SafeCall cfg readers own keep mayFail r Deleted
      (do let _ ← FileCode.io (← Code.ask (FileCall.deleteIfExists (cfg.at n 4)))
          return .deleted : FileCode ImageAnswer).run s := by
  refine safe_ask fun s' hs d _ => ?_
  have hsound' := hs.sound hsound
  have hresolve : s'.resolve (cfg.at n 4) = some (cfg.at n 4) ∨ s'.resolve (cfg.at n 4) = none := by
    rcases resolve_tame plain_at (tame_at hsound' (hchecked.moves le_rfl hs) le_rfl le_rfl) with h | h
    · exact .inl h.1
    · exact .inr h.1
  constructor
  · rcases exec_deleteIfExists d hresolve (hs.image n hfile) with hsame | ⟨⟨i, hi⟩, hremove⟩
    · rw [hsame]
      exact guarantee_refl s'
    · rw [hremove]
      exact guarantee_remove hsound' hdelete hkeep hi
  · cases (FileCall.exec d s' (.deleteIfExists (cfg.at n 4))).1 with
    | ok _ => exact safe_ret fun _ _ ans h => (by cases h; rfl)
    | error _ => exact safe_throw fun _ ans h => (by cases h)

/-- **A deletion removes the file of its image and nothing else.** -/
theorem safe_deleteTarget {s : Disk} (hsound : Sound cfg own s) (hdelete : r = .delete n.text)
    (hkeep : ¬ keep (cfg.at n 4)) :
    SafeCall cfg readers own keep mayFail r Deleted (deleteTarget cfg (cfg.at n 4)).run s := by
  refine safe_code moves_refl (safe_verifyParents hsound known_none) (fun _ s' h => ?_)
    fun e s' _ s'' _ ans h => (by cases h)
  have hfind : ∀ s'', Moves cfg own keep s' s'' → s''.find (cfg.at n 4) = s''.node (cfg.at n 4) :=
    fun s'' hs => find_at (hs.sound h.sound) ((h.checked rfl).moves le_rfl hs) le_rfl le_rfl
  refine safe_query fun s₁ h₁ => ⟨hfind s₁ h₁, ?_⟩
  split
  · refine safe_query fun s₂ h₂ => ⟨hfind s₂ (moves_trans _ _ _ h₁ h₂), ?_⟩
    have hs₂ := moves_trans _ _ _ h₁ h₂
    split
    · rename_i hregular
      obtain ⟨i, hi⟩ := any_regularFile.mp hregular
      refine safe_deleteFile (hs₂.sound h.sound) ((h.checked rfl).moves le_rfl hs₂) (fun x hx => ?_) hdelete hkeep
      rw [hi] at hx
      exact ⟨i, (Option.some.inj hx).symm⟩
    · exact safe_throw fun _ ans h => (by cases h)
  · rename_i hexists
    refine safe_deleteFile (h₁.sound h.sound) ((h.checked rfl).moves le_rfl h₁) (fun x hx => ?_) hdelete hkeep
    refine absurd (any_exists.mpr ?_) hexists
    rw [hx]
    exact Option.some_ne_none x

/-- What the storing of an image ends with. -/
def ImageStored (cfg : ImageStorage) (own : Path → Bytes → Prop) (keep : Path → Prop) (n : ImageName) (b : Bytes)
    (a : Except Thrown ImageAnswer) (s : Disk) : Prop :=
  ∀ ans, a = .ok ans → ans = .stored n.text ∧ Sound cfg own s ∧ (keep (cfg.at n 4) → Complete cfg n b s)

/-- A call that has created the file of its image writes it. -/
theorem safe_writeFile {i : ℕ} {b : Bytes} {s : Disk} (h : Writing cfg own keep n i b 0 s) :
    SafeCall cfg readers own keep mayFail r (ImageStored cfg own keep n b)
      (do writeAll i b.length 0 b
          return .stored n.text : FileCode ImageAnswer).run s := by
  have hwrite : SafeCall cfg readers own keep mayFail r (Written cfg own keep n i b) (writeAll i b.length 0 b).run s :=
    safe_writeAll b.length 0 s h le_rfl
  refine safe_code moves_refl hwrite (fun _ s' hwritten => ?_) fun e s' _ s'' _ ans h => (by cases h)
  refine safe_ret fun s'' hs ans hans => ?_
  cases hans
  have hend := (hwritten rfl).moves hs
  exact ⟨rfl, hend.sound, fun hkeep => ⟨i, hend.kept hkeep, hend.plan, hend.data le_rfl⟩⟩

/-- **Storing creates the file of the image and writes all of it.** -/
theorem safe_write {b : Bytes} {s : Disk} (hsound : Sound cfg own s) (hplans : Plans cfg readers r n b)
    (hown : own (cfg.at n 4) b) :
    SafeCall cfg readers own keep mayFail r (ImageStored cfg own keep n b) (write cfg n b (cfg.at n 4)).run s := by
  refine safe_code moves_refl (safe_ensureParents hsound) (fun _ s' h => ?_)
    fun e s' _ s'' _ ans h => (by cases h)
  obtain ⟨hsound₁, hmade⟩ := h rfl
  refine safe_ask fun s₂ h₂ d _ => ?_
  have hsound₂ := h₂.sound hsound₁
  have hmade₂ := hmade.moves le_rfl h₂
  have hne : cfg.at n 4 ≠ [] := fun h => cfg.root_ne (List.append_eq_nil_iff.mp h).1
  rw [exec_createNew d (resolve_at hsound₂ hmade₂ le_rfl) hne]
  by_cases hfails : d.fails = true
  · rw [if_pos hfails]
    exact ⟨guarantee_refl s₂, safe_throw fun _ ans h => (by cases h)⟩
  · rw [if_neg hfails]
    cases hnode : s₂.node (cfg.at n 4) with
    | some x => exact ⟨guarantee_refl s₂, safe_throw fun _ ans h => (by cases h)⟩
    | none =>
      have hcreate : Guarantee cfg readers own keep r s₂ (s₂.create (cfg.at n 4) b) :=
        guarantee_create hsound₂ hplans hown hnode (hmade₂ 3 (by omega) le_rfl)
      refine ⟨hcreate, safe_writeFile ⟨hcreate.sound hsound₂, Nat.lt_succ_self _, Function.update_self .., ?_, ?_⟩⟩
      · exact List.nil_prefix
      · intro _
        show (s₂.create (cfg.at n 4) b).node (cfg.at n 4) = some (.file s₂.next)
        rw [node_create, if_pos rfl]

/-- What a call ends with: what is stored is there to the last byte, where it is kept, and what is read is a
beginning of what is owned. -/
structure Ends (cfg : ImageStorage) (readers : ImageReaders) (own : Path → Bytes → Prop) (keep : Path → Prop)
    (r : ImageRequest) (a : Except ImageException ImageAnswer) (s : Disk) : Prop where
  stored : ∀ text, a = .ok (.stored text) → ∃ n b, Plans cfg readers r n b ∧ text = n.text ∧
    (keep (cfg.at n 4) → Complete cfg n b s)
  bytes : ∀ out, a = .ok (.bytes out) → ∃ n b, r = .read (some n.text) ∧ own (cfg.at n 4) b ∧ out <+: b ∧
    out ≠ [] ∧ out.length ≤ cfg.maxBytes

/-- An error answers nothing. -/
theorem ends_error {e : ImageException} {s : Disk} : Ends cfg readers own keep r (.error e) s :=
  ⟨fun _ h => (by cases h), fun _ h => (by cases h)⟩

/-- A name that is refused touches no file. -/
theorem safe_path_error {e : ImageException} {s : Disk} :
    SafeCall cfg readers own keep mayFail r (Ends cfg readers own keep r) (throw e : ImageCode).run s :=
  safe_throw fun _ => ends_error

/-- Storing, from the start. -/
theorem safe_store {image : Option Upload} {id : Uuid} {s : Disk} (hsound : Sound cfg own s)
    (hr : r = .store image id) (hown : ∀ n b, Plans cfg readers r n b → own (cfg.at n 4) b) :
    SafeCall cfg readers own keep mayFail r (Ends cfg readers own keep r) (store cfg readers image id).run s := by
  unfold store
  cases hprepare : prepare cfg readers image id with
  | error e => exact safe_path_error
  | ok named =>
    obtain ⟨n, b⟩ := named
    have hplans : Plans cfg readers r n b := ⟨image, id, hr, hprepare⟩
    simp only [path_text]
    rw [← at_four]
    refine safe_rethrow moves_refl (safe_write hsound hplans (hown n b hplans)) fun a s' ha s'' hs => ?_
    cases a with
    | error e => exact ends_error
    | ok ans =>
      obtain ⟨rfl, hsound', hcomplete⟩ := ha ans rfl
      refine ⟨fun text htext => ?_, fun out h => (by cases h)⟩
      cases htext
      exact ⟨n, b, hplans, rfl, fun hkeep => (hcomplete hkeep).moves hkeep hsound' hs⟩

/-- Reading, from the start. -/
theorem safe_read {name : Option String} {s : Disk} (hsound : Sound cfg own s) (hr : r = .read name) :
    SafeCall cfg readers own keep mayFail r (Ends cfg readers own keep r) (read cfg name).run s := by
  unfold read
  cases hpath : path cfg name with
  | error e => exact safe_path_error
  | ok target =>
    obtain ⟨n, rfl, rfl⟩ := exists_of_path hpath
    rw [← at_four]
    refine safe_rethrow moves_refl (safe_readTarget hsound known_none) fun a s' ha s'' _ => ?_
    cases a with
    | error e => exact ends_error
    | ok ans =>
      obtain ⟨out, b, rfl, hown, hbegin, hne, hlen⟩ := ha.answer ans rfl
      refine ⟨fun text h => (by cases h), fun out' h => ?_⟩
      cases h
      exact ⟨n, b, hr, hown, hbegin, hne, hlen⟩

/-- Deleting, from the start. -/
theorem safe_delete {name : Option String} {s : Disk} (hsound : Sound cfg own s) (hr : r = .delete name)
    (hkeep : ∀ n : ImageName, name = some n.text → ¬ keep (cfg.at n 4)) :
    SafeCall cfg readers own keep mayFail r (Ends cfg readers own keep r) (delete cfg name).run s := by
  unfold delete
  cases hpath : path cfg name with
  | error e => exact safe_path_error
  | ok target =>
    obtain ⟨n, rfl, rfl⟩ := exists_of_path hpath
    rw [← at_four]
    refine safe_rethrow moves_refl (safe_deleteTarget hsound hr (hkeep n rfl)) fun a s' ha s'' _ => ?_
    cases a with
    | error e => exact ends_error
    | ok ans =>
      obtain rfl := ha ans rfl
      exact ⟨fun text h => (by cases h), fun out h => (by cases h)⟩

/-- What is asked of a request: its image is owned, and it deletes no image that is kept. -/
structure Asked (cfg : ImageStorage) (readers : ImageReaders) (own : Path → Bytes → Prop) (keep : Path → Prop)
    (r : ImageRequest) : Prop where
  owned : ∀ n b, Plans cfg readers r n b → own (cfg.at n 4) b
  deletes : ∀ n : ImageName, r = .delete n.text → ¬ keep (cfg.at n 4)

/-- **Every call is safe among the others**, and ends as it should. -/
theorem safe_start {s : Disk} (hasked : Asked cfg readers own keep r) (hsound : Sound cfg own s) :
    SafeCall cfg readers own keep mayFail r (Ends cfg readers own keep r) (start cfg readers r) s := by
  cases r with
  | store image id => exact safe_store hsound rfl hasked.owned
  | read name => exact safe_read hsound rfl
  | delete name =>
    exact safe_delete hsound rfl fun n hname => hasked.deletes n (by rw [hname])

/-- What an image is read back as. -/
def readBack (b : Bytes) : Except ImageException ImageAnswer :=
  if b = [] then .error invalid else .ok (.bytes b)

/-- **A read of an image that is known answers its bytes**, or that a call has failed. -/
theorem safe_read_known {b : Bytes} {s : Disk} (hr : r = .read n.text) (hsound : Sound cfg own s)
    (hknown : Known cfg keep n (some b) s) :
    SafeCall cfg readers own keep mayFail r (fun a _ => a = readBack b ∨ mayFail = true ∧ a = .error unavailable)
      (start cfg readers r) s := by
  subst hr
  show SafeCall cfg readers own keep mayFail (.read n.text) _ (read cfg (some n.text)).run s
  unfold read
  rw [path_text]
  dsimp only
  rw [← at_four]
  refine safe_rethrow moves_refl (safe_readTarget hsound hknown) fun a s' ha s'' _ => ?_
  rcases ha.known b rfl with rfl | ⟨hmay, rfl⟩
  · refine .inl ?_
    unfold finish readBack
    by_cases hb : b = []
    · rw [ensure_of_not (not_not.mpr hb), if_pos hb]
      rfl
    · rw [ensure_of hb, if_neg hb]
      rfl
  · exact .inr ⟨hmay, rfl⟩

end calls

/-! ## How many calls of the file system -/

section counts

variable {cfg : ImageStorage}

/-- What is thrown takes no call. -/
theorem within_throw {ε α : Type} {e : ε} (m : ℕ) : Within m (throw e : Code FileCall FileCall.Answer ε α).run :=
  .ret m _

/-- An answer takes no call. -/
theorem within_pure {ε α : Type} {a : α} (m : ℕ) : Within m (pure a : Code FileCall FileCall.Answer ε α).run :=
  .ret m _

/-- An answer that may be an exception, and what follows. -/
theorem within_io {α β : Type} {m : ℕ} {r : Except IoException α} {f : α → FileCode β}
    (h : ∀ a, Within m (f a).run) : Within m (FileCode.io r >>= f).run := by
  cases r with
  | ok a => exact h a
  | error e => exact .ret m _

/-- A computation that may throw, and what follows. -/
theorem within_pureCode {α β : Type} {m : ℕ} {r : Except Thrown α} {f : α → FileCode β}
    (h : ∀ a, Within m (f a).run) : Within m (FileCode.pureCode r >>= f).run := by
  cases r with
  | ok a => exact h a
  | error e => exact .ret m _

/-- The check of a directory takes three calls at most. -/
theorem within_verifyParts : ∀ (parts : List String) (current : Path),
    Within (3 * parts.length) (verifyParts current parts).run
  | [], _ => within_pure _
  | part :: parts, current => by
    have hrest := within_verifyParts parts (current ++ [part])
    rw [verifyParts, List.length_cons, Nat.mul_succ]
    refine within_ask fun link => ?_
    split
    · exact within_throw _
    · refine within_ask fun found => ?_
      split
      · refine within_ask fun directory => ?_
        split
        · exact hrest
        · exact within_throw _
      · exact hrest.mono (Nat.le_succ _)

/-- The check takes eleven calls: two at the root, and nine below it. -/
theorem within_verifyParents (n : ImageName) : Within 11 (verifyParents cfg (cfg.at n 4)).run := by
  have hparts := within_verifyParts ((n.path.take 3).drop 0) cfg.root
  rw [verifyParents, parts_at]
  refine within_ask fun link => ?_
  split
  · exact within_throw _
  · refine within_ask fun directory => ?_
    split
    · exact hparts
    · exact within_throw _

/-- A directory is made in three calls at most. -/
theorem within_ensureParts : ∀ (parts : List String) (current : Path),
    Within (3 * parts.length) (ensureParts current parts).run
  | [], _ => within_pure _
  | part :: parts, current => by
    have hrest := within_ensureParts parts (current ++ [part])
    rw [ensureParts, List.length_cons, Nat.mul_succ]
    refine within_ask fun link => ?_
    split
    · exact within_throw _
    · rw [run_createDirectory]
      refine .call fun r => ?_
      rcases r with (- | -) | -
      · refine within_ask fun directory => ?_
        split
        · exact hrest
        · exact within_throw _
      · exact within_throw _
      · exact hrest.mono (Nat.le_succ _)

/-- With the check of the directories it takes twenty calls. -/
theorem within_ensureParents (n : ImageName) : Within 20 (ensureParents cfg (cfg.at n 4)).run := by
  have hparts := within_ensureParts ((n.path.take 3).drop 0) cfg.root
  rw [ensureParents, parts_at]
  exact within_code (within_verifyParents n) fun _ => hparts

/-- Every call writes at least a byte. -/
theorem within_writeAll (i : ℕ) : ∀ (fuel offset : ℕ) (bytes : Bytes),
    Within fuel (writeAll i fuel offset bytes).run
  | 0, _, _ => within_pure _
  | fuel + 1, offset, bytes => by
    rw [writeAll]
    split
    · exact within_pure _
    · exact within_ask fun r => within_io fun count => within_writeAll i fuel _ _

/-- Every call reads at least a byte, or finds the end. -/
theorem within_boundedFile (i : ℕ) : ∀ (fuel : ℕ) (output : Bytes),
    Within fuel (boundedFile cfg i fuel output).run
  | 0, _ => within_throw _
  | fuel + 1, output => by
    rw [boundedFile]
    refine within_ask fun r => within_io fun chunk => ?_
    split
    · cases finish output with
      | ok _ => exact .ret _ _
      | error _ => exact .ret _ _
    · exact within_pureCode fun more => within_boundedFile i fuel more

/-- Storing takes a call for each byte, and those for the directories and the file. -/
theorem within_write (n : ImageName) (b : Bytes) : Within (21 + b.length) (write cfg n b (cfg.at n 4)).run := by
  rw [Nat.add_right_comm 20 1 b.length, Nat.add_assoc]
  refine within_code (within_ensureParents n) fun _ => within_ask fun r => within_io fun i => ?_
  exact within_code (within_writeAll i b.length 0 b) fun _ => within_pure 0

/-- Reading takes a call for each byte up to the limit, and those for the directories and the file. -/
theorem within_readTarget (n : ImageName) : Within (15 + cfg.maxBytes) (readTarget cfg (cfg.at n 4)).run := by
  have hread : 15 + cfg.maxBytes = 11 + (cfg.maxBytes + 1 + 3) := by omega
  rw [hread]
  refine within_code (within_verifyParents n) fun _ => within_ask fun found => ?_
  split
  · refine within_ask fun regular => ?_
    split
    · refine within_ask fun r => within_io fun i => ?_
      exact within_code (n := 0) (within_boundedFile i (cfg.maxBytes + 1) []) fun _ => within_pure 0
    · exact within_throw _
  · exact within_throw _

/-- Deleting takes no more than fourteen calls. -/
theorem within_deleteTarget (n : ImageName) : Within 14 (deleteTarget cfg (cfg.at n 4)).run := by
  refine within_code (m := 11) (n := 3) (within_verifyParents n) fun _ => within_ask fun found => ?_
  split
  · refine within_ask fun regular => ?_
    split
    · exact within_ask fun r => within_io fun _ => within_pure 0
    · exact within_throw _
  · exact within_ask fun r => within_io fun _ => within_pure 1

/-- What is encoded is no longer than the limit. -/
theorem encode_length {readers : ImageReaders} {input b : Bytes} {jpeg : Bool}
    (h : encode cfg readers input = .ok (jpeg, b)) : b.length ≤ cfg.maxBytes := by
  unfold encode at h
  simp only [getOr_bind_eq_ok, ensure_bind_eq_ok, Except.ok.injEq, Prod.mk.injEq] at h
  obtain ⟨_, -, _, -, -, _, -, _, -, -, _, -, encoded, -, hlen, -, rfl⟩ := h
  exact hlen

/-- What is going to be stored is no longer than the limit. -/
theorem prepare_length {readers : ImageReaders} {image : Option Upload} {id : Uuid} {n : ImageName} {b : Bytes}
    (h : prepare cfg readers image id = .ok (n, b)) : b.length ≤ cfg.maxBytes := by
  unfold prepare at h
  simp only [getOr_bind_eq_ok, ensure_bind_eq_ok] at h
  obtain ⟨upload, -, -, h⟩ := h
  obtain ⟨input, -, h⟩ := exists_of_bind_eq_ok h
  obtain ⟨⟨jpeg, encoded⟩, hencode, h⟩ := exists_of_bind_eq_ok h
  cases h
  exact encode_length hencode

/-- A call of the file system below the path of a name. -/
theorem within_target {name : Option String} {target : Path} {m : ℕ} {p : Path → FileCode ImageAnswer}
    (hname : path cfg name = .ok target) (hp : ∀ n : ImageName, Within m (p (cfg.at n 4)).run)
    (hm : m ≤ 21 + cfg.maxBytes) : Within (21 + cfg.maxBytes) (tried (p target)).run := by
  obtain ⟨n, -, rfl⟩ := exists_of_path hname
  rw [← at_four]
  exact within_rethrow ((hp n).mono hm)

/-- **Every call of the storage is over after so many of its own calls of the file system.** -/
theorem within_start (readers : ImageReaders) (r : ImageRequest) :
    Within (21 + cfg.maxBytes) (start cfg readers r) := by
  cases r with
  | store image id =>
    show Within _ (store cfg readers image id).run
    unfold store
    cases hprepare : prepare cfg readers image id with
    | error e => exact within_throw _
    | ok named =>
      obtain ⟨n, b⟩ := named
      simp only [path_text]
      rw [← at_four]
      exact within_rethrow ((within_write n b).mono (Nat.add_le_add_left (prepare_length hprepare) 21))
  | read name =>
    show Within _ (read cfg name).run
    unfold read
    cases hname : path cfg name with
    | error e => exact within_throw _
    | ok target => exact within_target hname within_readTarget (by omega)
  | delete name =>
    show Within _ (delete cfg name).run
    unfold delete
    cases hname : path cfg name with
    | error e => exact within_throw _
    | ok target => exact within_target hname within_deleteTarget (by omega)

end counts

end CampusHub.Storage
