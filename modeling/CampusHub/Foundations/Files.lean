import CampusHub.Foundations.Maps

/-!
# A file system

* `Node`, `Disk` — directories, files and symbolic links by their paths; the bytes of a file by its number.
* `Disk.walk`, `Disk.resolve` — the path that a path leads to, links in its directories followed.
* `FileCall`, `FileCall.exec` — the calls of a program, which may fail.
* `resolve_tame` — a path whose directories are directories, or are not there, leads to itself or nowhere.
* `find_tame` — below a root whose tree is closed, what is found at a tame path is what is there.
* `splice_begins` — what a program writes piece by piece stays a beginning of its text.

The calls are those that a Java program makes through `java.nio.file.Files` with `NOFOLLOW_LINKS`: the
option concerns the last name of a path only, so the directories on the way are still followed, and a link
put there by somebody else can lead anywhere. The lemmas say when this cannot happen. Below a root whose
tree is closed, a path whose directories are directories or are missing leads to itself or nowhere
(`resolve_tame`), and what is found there is what is there (`find_tame`); the induction is on the names of
the path.

A write is cut into parts by the system, and each part is spliced into what is there; `splice_begins` keeps
the bytes of a file a beginning of the text that its creator planned.

Not modelled: permissions, hard links, renames, open files that were deleted, and the times of files.
-/

namespace CampusHub.Foundations.Files

open CampusHub.Foundations.Maps

/-- The names from the root of the file system. -/
abbrev Path := List String

abbrev Bytes := List UInt8

/-- What is at a path. The target of a link starts at the root, or at the directory of the link. -/
inductive Node where
  | dir
  | file (i : ℕ)
  | link (absolute : Bool) (target : Path)
  deriving DecidableEq

/-- The tree, and the files by their numbers. `plan` is what the creator of a file is going to write; no
call asks for it. Beyond `limit` names a path with links is too long. -/
structure Disk where
  tree : FiniteMap Path Node
  data : ℕ → Bytes
  plan : ℕ → Bytes
  next : ℕ
  limit : ℕ

namespace Disk

variable (fs : Disk)

/-- What is at the path. -/
def node (p : Path) : Option Node := fs.tree.lookup p

/-- From a directory, the path that the names lead to. The last of them is not followed. -/
def walk : ℕ → Path → Path → Option Path
  | _, here, [] => some here
  | 0, _, _ :: _ => none
  | n + 1, here, c :: rest =>
    if c = "." then walk n here rest
    else if c = ".." then walk n here.dropLast rest
    else if rest = [] then some (here ++ [c])
    else
      match fs.node (here ++ [c]) with
      | some .dir => walk n (here ++ [c]) rest
      | some (.link absolute target) => walk n (if absolute then [] else here) (target ++ rest)
      | _ => none

/-- The path that a path leads to. -/
def resolve (p : Path) : Option Path := fs.walk (p.length + fs.limit) [] p

/-- What the path leads to. -/
def find (p : Path) : Option Node := (fs.resolve p).bind fs.node

/-- Nothing is in the directory. -/
def isEmpty (p : Path) : Bool := ∀ q ∈ fs.tree.keys, q = [] ∨ q.dropLast ≠ p

end Disk

/-- `IOException` -/
inductive IoException where
  | fileAlreadyExists | other
  deriving DecidableEq

/-- What is asked of what is at a path. -/
inductive Attribute where
  | exists | symbolicLink | directory | regularFile
  deriving DecidableEq

/-- The attribute of a node. -/
def Attribute.holds : Attribute → Node → Bool
  | .exists, _ => true
  | .symbolicLink, .link _ _ => true
  | .directory, .dir => true
  | .regularFile, .file _ => true
  | _, _ => false

/-- Something is at the path. -/
@[simp] theorem any_exists {o : Option Node} : o.any Attribute.exists.holds = true ↔ o ≠ none := by
  cases o <;> simp [Attribute.holds]

/-- A directory is at the path. -/
@[simp] theorem any_directory {o : Option Node} : o.any Attribute.directory.holds = true ↔ o = some .dir := by
  rcases o with - | (- | - | -) <;> simp [Attribute.holds]

/-- A file is at the path. -/
@[simp] theorem any_regularFile {o : Option Node} :
    o.any Attribute.regularFile.holds = true ↔ ∃ i, o = some (.file i) := by
  rcases o with - | (- | - | -) <;> simp [Attribute.holds]

/-- A link is at the path. -/
@[simp] theorem any_symbolicLink {o : Option Node} :
    o.any Attribute.symbolicLink.holds = true ↔ ∃ absolute target, o = some (.link absolute target) := by
  rcases o with - | (- | - | -) <;> simp [Attribute.holds]

/-- The calls; all of them are told not to follow links. -/
inductive FileCall where
  | query (a : Attribute) (p : Path)
  | createDirectory (p : Path)
  | createNew (p : Path) (plan : Bytes)
  | write (i offset : ℕ) (bytes : Bytes)
  | newInputStream (p : Path)
  | read (i offset : ℕ)
  | deleteIfExists (p : Path)

/-- What a call answers; `read` answers no bytes at the end of the file. -/
abbrev FileCall.Answer : FileCall → Type
  | .query _ _ => Bool
  | .createDirectory _ => Except IoException Unit
  | .createNew _ _ | .newInputStream _ | .write _ _ _ => Except IoException ℕ
  | .read _ _ => Except IoException Bytes
  | .deleteIfExists _ => Except IoException Bool

/-- What may happen in a call: it fails, a query sees nothing, or a write or read is shorter than asked,
though not of length zero. -/
structure Chance where
  fails : Bool
  blind : Bool
  count : ℕ
  deriving DecidableEq

/-- The length of a buffer. -/
def bufferSize : ℕ := 8192

/-- How many bytes are moved of so many. -/
def Chance.moved (d : Chance) (n : ℕ) : ℕ := min n (min (d.count + 1) bufferSize)

namespace Disk

variable (fs : Disk)

/-- Another node at a path. -/
def put (p : Path) (n : Node) : Disk := { fs with tree := fs.tree.insert p n }

/-- A new file. -/
def create (p : Path) (plan : Bytes) : Disk :=
  { fs with
    tree := fs.tree.insert p (.file fs.next)
    data := Function.update fs.data fs.next []
    plan := Function.update fs.plan fs.next plan
    next := fs.next + 1 }

/-- Bytes at an offset. -/
def splice (old : Bytes) (offset : ℕ) (bytes : Bytes) : Bytes :=
  old.take offset ++ bytes ++ old.drop (offset + bytes.length)

/-- Bytes written into a file. -/
def store (i offset : ℕ) (bytes : Bytes) : Disk :=
  { fs with data := Function.update fs.data i (splice (fs.data i) offset bytes) }

/-- Nothing at a path. -/
def remove (p : Path) : Disk := { fs with tree := fs.tree.erase p }

end Disk

/-- A call. -/
def FileCall.exec (d : Chance) (fs : Disk) : (c : FileCall) → c.Answer × Disk
  | .query a p => (!d.blind && (fs.find p).any a.holds, fs)
  | .createDirectory p =>
    match fs.resolve p with
    | none => (.error .other, fs)
    | some q =>
      if d.fails then (.error .other, fs)
      else if (fs.node q).isSome ∨ q = [] then (.error .fileAlreadyExists, fs)
      else (.ok (), fs.put q .dir)
  | .createNew p plan =>
    match fs.resolve p with
    | none => (.error .other, fs)
    | some q =>
      if d.fails then (.error .other, fs)
      else if (fs.node q).isSome ∨ q = [] then (.error .fileAlreadyExists, fs)
      else (.ok fs.next, fs.create q plan)
  | .write i offset bytes =>
    if d.fails then (.error .other, fs)
    else (.ok (d.moved bytes.length), fs.store i offset (bytes.take (d.moved bytes.length)))
  | .newInputStream p =>
    match fs.find p with
    | some (.file i) => (if d.fails then .error .other else .ok i, fs)
    | _ => (.error .other, fs)
  | .read i offset =>
    (if d.fails then .error .other
      else .ok (((fs.data i).drop offset).take (d.moved ((fs.data i).drop offset).length)), fs)
  | .deleteIfExists p =>
    match fs.resolve p with
    | none => (if d.fails then .error .other else .ok false, fs)
    | some q =>
      if d.fails then (.error .other, fs)
      else
        match fs.node q with
        | none => (.ok false, fs)
        | some .dir => if fs.isEmpty q then (.ok true, fs.remove q) else (.error .other, fs)
        | some _ => (.ok true, fs.remove q)

section calls

variable {fs : Disk} {p : Path} (d : Chance)

/-- A directory is made where its path leads to itself. -/
theorem exec_createDirectory (hresolve : fs.resolve p = some p) (hne : p ≠ []) :
    FileCall.exec d fs (.createDirectory p) =
      if d.fails then (.error .other, fs)
      else if (fs.node p).isSome then (.error .fileAlreadyExists, fs)
      else (.ok (), fs.put p .dir) := by
  simp only [FileCall.exec, hresolve, hne, or_false]

/-- A file is made where its path leads to itself and nothing is. -/
theorem exec_createNew (hresolve : fs.resolve p = some p) (hne : p ≠ []) (plan : Bytes) :
    FileCall.exec d fs (.createNew p plan) =
      if d.fails then (.error .other, fs)
      else if (fs.node p).isSome then (.error .fileAlreadyExists, fs)
      else (.ok fs.next, fs.create p plan) := by
  simp only [FileCall.exec, hresolve, hne, or_false]

/-- What is opened is a file that is found. -/
theorem exec_newInputStream (fs : Disk) (p : Path) :
    (∃ i, fs.find p = some (.file i) ∧
        FileCall.exec d fs (.newInputStream p) = (if d.fails then .error .other else .ok i, fs)) ∨
      (∀ i, fs.find p ≠ some (.file i)) ∧ FileCall.exec d fs (.newInputStream p) = (.error .other, fs) := by
  unfold FileCall.exec
  dsimp only
  split
  · rename_i i h
    exact .inl ⟨i, h, rfl⟩
  · rename_i h
    exact .inr ⟨h, rfl⟩

/-- A file is deleted where its path leads to itself or nowhere, and only a file can be there. -/
theorem exec_deleteIfExists (hresolve : fs.resolve p = some p ∨ fs.resolve p = none)
    (hfile : ∀ x, fs.node p = some x → ∃ i, x = .file i) :
    (FileCall.exec d fs (.deleteIfExists p)).2 = fs ∨
      (∃ i, fs.node p = some (.file i)) ∧ (FileCall.exec d fs (.deleteIfExists p)).2 = fs.remove p := by
  rcases hresolve with hresolve | hresolve
  · by_cases hfails : d.fails = true
    · exact .inl (by simp only [FileCall.exec, hresolve, hfails, if_true])
    · cases hnode : fs.node p with
      | none => exact .inl (by simp only [FileCall.exec, hresolve, hfails, hnode]; rfl)
      | some x =>
        obtain ⟨i, rfl⟩ := hfile x hnode
        exact .inr ⟨⟨i, rfl⟩, by simp only [FileCall.exec, hresolve, hfails, hnode]; rfl⟩
  · exact .inl (by simp only [FileCall.exec, hresolve])

end calls

/-! ## Paths without surprises -/

section paths

variable {fs : Disk}

/-- A path without `.` and `..`. -/
def Plain (p : Path) : Prop := ∀ c ∈ p, c ≠ "." ∧ c ≠ ".."

/-- The directories on the way to a path. -/
def Between (p q : Path) : Prop := q ≠ [] ∧ q <+: p ∧ q ≠ p

/-- The directories of the path are there. -/
def Disk.Rooted (fs : Disk) (p : Path) : Prop := ∀ q, Between p q → fs.node q = some .dir

/-- The directories of the path are there or nothing is. -/
def Disk.Tame (fs : Disk) (p : Path) : Prop :=
  ∀ q, Between p q → fs.node q = some .dir ∨ fs.node q = none

/-- Where the directories of a path are there, it is tame. -/
theorem Disk.Rooted.tame {p : Path} (h : fs.Rooted p) : fs.Tame p := fun q hq => .inl (h q hq)

/-- The walk from a directory along a tame path. -/
theorem walk_tame (rest : Path) (hplain : Plain rest) :
    ∀ (n : ℕ) (here : Path), rest.length ≤ n →
      (∀ q, Between rest q → fs.node (here ++ q) = some .dir ∨ fs.node (here ++ q) = none) →
      (fs.walk n here rest = some (here ++ rest) ∧ ∀ q, Between rest q → fs.node (here ++ q) = some .dir) ∨
        (fs.walk n here rest = none ∧ ∃ q, Between rest q ∧ fs.node (here ++ q) = none) := by
  induction rest with
  | nil =>
    intro n here _ _
    refine .inl ⟨by cases n <;> simp [Disk.walk], fun q hq => ?_⟩
    exact absurd (List.prefix_nil.mp hq.2.1) hq.1
  | cons c rest ih =>
    intro n here hn htame
    obtain ⟨n, rfl⟩ : ∃ m, n = m + 1 := ⟨n - 1, by simp at hn; omega⟩
    obtain ⟨hdot, hdots⟩ := hplain c List.mem_cons_self
    unfold Disk.walk
    rw [if_neg hdot, if_neg hdots]
    by_cases hrest : rest = []
    · subst hrest
      rw [if_pos rfl]
      refine .inl ⟨rfl, fun q hq => ?_⟩
      obtain ⟨hq, hbegin, hne⟩ := hq
      rcases List.prefix_cons_iff.mp hbegin with rfl | ⟨t, rfl, ht⟩
      · exact absurd rfl hq
      · exact absurd (by rw [List.prefix_nil.mp ht]) hne
    · rw [if_neg hrest]
      have hfirst : Between (c :: rest) [c] :=
        ⟨List.cons_ne_nil _ _, ⟨rest, rfl⟩, fun heq => hrest (List.cons.inj heq).2.symm⟩
      have hlift : ∀ q, Between rest q → Between (c :: rest) (c :: q) := fun q hq =>
        ⟨List.cons_ne_nil _ _, (List.prefix_cons_inj c).mpr hq.2.1, fun heq => hq.2.2 (List.cons.inj heq).2⟩
      rcases htame [c] hfirst with hdir | hnone
      · rw [hdir]
        have hsub : ∀ q, here ++ [c] ++ q = here ++ c :: q := fun q => by
          rw [List.append_assoc, List.singleton_append]
        rcases ih (fun x hx => hplain x (List.mem_cons_of_mem c hx)) n (here ++ [c]) (by simpa using hn)
          (fun q hq => by rw [hsub]; exact htame _ (hlift q hq)) with ⟨hwalk, hdirs⟩ | ⟨hwalk, q, hq, hgone⟩
        · refine .inl ⟨by rw [hsub] at hwalk; exact hwalk, fun q hq => ?_⟩
          obtain ⟨hne, hbegin, hneq⟩ := hq
          rcases List.prefix_cons_iff.mp hbegin with rfl | ⟨t, rfl, ht⟩
          · exact absurd rfl hne
          · by_cases htnil : t = []
            · subst htnil
              exact hdir
            · rw [← hsub]
              exact hdirs t ⟨htnil, ht, fun heq => hneq (by rw [heq])⟩
        · exact .inr ⟨hwalk, c :: q, hlift q hq, by rw [← hsub]; exact hgone⟩
      · rw [hnone]
        exact .inr ⟨rfl, [c], hfirst, hnone⟩

/-- **A tame path leads to itself, or nowhere.** -/
theorem resolve_tame {p : Path} (hplain : Plain p) (htame : fs.Tame p) :
    (fs.resolve p = some p ∧ fs.Rooted p) ∨ (fs.resolve p = none ∧ ∃ q, Between p q ∧ fs.node q = none) :=
  walk_tame p hplain _ [] (Nat.le_add_right _ _) htame

/-- A path whose directories are there leads to itself. -/
theorem resolve_rooted {p : Path} (hplain : Plain p) (h : fs.Rooted p) : fs.resolve p = some p := by
  rcases resolve_tame hplain h.tame with ⟨hresolve, -⟩ | ⟨-, q, hq, hnone⟩
  · exact hresolve
  · rw [h q hq] at hnone
    cases hnone

/-- The directories down to the root of a storage are there. -/
def Disk.Real (fs : Disk) (root : Path) : Prop := ∀ q, q ≠ [] → q <+: root → fs.node q = some .dir

/-- Below the root, what is there is in a directory. -/
def Disk.Closed (fs : Disk) (root : Path) : Prop :=
  ∀ p c, root <+: p → fs.node (p ++ [c]) ≠ none → fs.node p = some .dir

/-- Where nothing is, nothing is below. -/
theorem Disk.Closed.none_below {root p q : Path} (h : fs.Closed root) (hroot : root <+: q)
    (hq : q <+: p) (hnone : fs.node q = none) : fs.node p = none := by
  obtain ⟨t, rfl⟩ := hq
  induction t using List.reverseRecOn with
  | nil => rwa [List.append_nil]
  | append_singleton t c ih =>
    by_contra hsome
    rw [← List.append_assoc] at hsome
    have hdir := h (q ++ t) c (hroot.trans (List.prefix_append q t)) hsome
    rw [ih] at hdir
    cases hdir

/-- **What is found at a tame path below the root is what is there.** -/
theorem find_tame {root p : Path} (hreal : fs.Real root) (hclosed : fs.Closed root) (hroot : root <+: p)
    (hplain : Plain p) (htame : fs.Tame p) : fs.find p = fs.node p := by
  unfold Disk.find
  rcases resolve_tame hplain htame with ⟨hresolve, -⟩ | ⟨hresolve, q, hq, hnone⟩
  · rw [hresolve]
    rfl
  · rw [hresolve]
    rcases List.prefix_or_prefix_of_prefix hq.2.1 hroot with hbefore | hafter
    · rw [hreal q hq.1 hbefore] at hnone
      cases hnone
    · exact (hclosed.none_below hafter hq.2.1 hnone).symm

end paths

/-! ## What is written -/

section splices

/-- A part of a text, written where it belongs into a beginning of the text, gives a beginning of the text
that is no shorter and reaches to the end of the part. -/
theorem splice_begins {text old : Bytes} {offset n : ℕ} (hold : old <+: text) (hoffset : offset ≤ old.length) :
    let part := (text.drop offset).take n
    Disk.splice old offset part <+: text ∧ old <+: Disk.splice old offset part ∧
      text.take (offset + part.length) <+: Disk.splice old offset part := by
  intro part
  have htake : ∀ k, k ≤ old.length → old.take k = text.take k := by
    obtain ⟨rest, rfl⟩ := hold
    exact fun k hk => (List.take_append_of_le_length hk).symm
  have hpart : part = (text.drop offset).take part.length := by
    refine List.take_eq_take_iff.mpr ?_
    simp [part]
  have hfront : old.take offset ++ part = text.take (offset + part.length) := by
    rw [htake offset hoffset, List.take_add, ← hpart]
  unfold Disk.splice
  rw [hfront]
  by_cases hlong : old.length ≤ offset + part.length
  · rw [List.drop_eq_nil_of_le hlong, List.append_nil]
    refine ⟨List.take_prefix _ _, ?_, List.prefix_rfl⟩
    rw [List.prefix_take_iff]
    exact ⟨hold, hlong⟩
  · rw [← htake _ (by omega), List.take_append_drop]
    exact ⟨hold, List.prefix_rfl, List.take_prefix _ _⟩

end splices

end CampusHub.Foundations.Files
