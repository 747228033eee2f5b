import CampusHub.Storage.Endings

/-!
# Runs of the image storage

Any number of calls store, read and delete images over one file system, step by step, while others change what
is outside the root. A call of the file system may fail anywhere; only a query is taken to see what is there.

* `images_contained` — what a step changes.
* `images_truthful` — what is read was stored under that name.
* `image_read_back` — what was stored is read back.

**Proof route.** `safe_images` puts together what the modules before prove: each call is safe among the
others (`safe_start`), guarantees and relies fit together (`compatible`), and so every run keeps all calls
safe, by `Foundations.Programs`. The three theorems are read off: what a step does is in its `Guarantee`;
what an answer means is in `Ends`; and a read of an image that is known has its own specification
(`safe_read_known`), with the bound on its calls from `within_start`.

**Keeping an image.** `image_read_back` runs the judgement with the one image kept. Nobody may be asked to
delete it; all else may happen, also that others store and delete images, and that calls fail.

**Left out.** Crashes of the machine, after which a file system may have lost what was written.
-/

namespace CampusHub.Storage

open CampusHub.Foundations CampusHub.Foundations.Files CampusHub.Foundations.Pools
open CampusHub.Foundations.Programs

/-- The file system before the first call: the root is there, what is there below it is in a directory, and the
files are written. -/
structure Orderly (cfg : ImageStorage) (fs : Disk) : Prop where
  real : fs.Real cfg.root
  closed : fs.Closed cfg.root
  numbered : ∀ p i, fs.node p = some (.file i) → i < fs.next
  written : ∀ i < fs.next, fs.plan i = fs.data i

/-- What an image may be: what it was before the first call, or what a request of the run stores under its
name. -/
def Sources (cfg : ImageStorage) (readers : ImageReaders) (fs : Disk) (as : List ImageAct) (n : ImageName) (b : Bytes) :
    Prop :=
  (∃ i, fs.node (cfg.at n 4) = some (.file i) ∧ fs.data i = b) ∨
    ∃ j image id, .enter j (.store image id) ∈ as ∧ prepare cfg readers image id = .ok (n, b)

section runs

variable {cfg : ImageStorage} {readers : ImageReaders} {own : Path → Bytes → Prop} {keep : Path → Prop} {fs : Disk}

/-- No two images share a file. -/
theorem at_injective {n m : ImageName} (h : cfg.at n 4 = cfg.at m 4) : n = m := by
  rw [at_four, at_four] at h
  exact path_injective (List.append_cancel_left h)

/-- Guarantees and relies fit together. -/
theorem compatible : Compatible (Guarantee cfg readers own keep) (Moves cfg own keep) (Sound cfg own) where
  refl := moves_refl
  trans := moves_trans
  guarantee _ _ _ _ h := h.toMoves
  keeps _ _ h hs := hs.sound h

/-- The images before the first call and those of the requests are owned. -/
def Owned (cfg : ImageStorage) (readers : ImageReaders) (fs : Disk) (as : List ImageAct) (p : Path) (b : Bytes) :
    Prop :=
  ∃ n, p = cfg.at n 4 ∧ Sources cfg readers fs as n b

/-- An orderly file system meets the invariant, where its own images and those of the requests are owned. -/
theorem Orderly.sound (h : Orderly cfg fs) (as : List ImageAct) : Sound cfg (Owned cfg readers fs as) fs where
  real := h.real
  closed := h.closed
  planned i hi := by rw [h.written i hi]
  numbered := h.numbered
  owned n i hi := by
    refine ⟨n, rfl, .inl ⟨i, hi, ?_⟩⟩
    rw [h.written i (h.numbered _ i hi)]

/-- A request of the run is one that a call may be asked. -/
theorem asked_of_mem {as : List ImageAct} {r : ImageRequest} {i : ℕ} (hr : .enter i r ∈ as)
    (hdelete : ∀ n : ImageName, r = .delete n.text → ¬ keep (cfg.at n 4)) :
    Asked cfg readers (Owned cfg readers fs as) keep r where
  owned n b h := by
    obtain ⟨image, id, rfl, hprepare⟩ := h
    exact ⟨n, rfl, .inr ⟨i, image, id, hr, hprepare⟩⟩
  deletes := hdelete

/-- What a run may be assumed to do is within what the judgement is about. -/
theorem along_images (readers : ImageReaders) (hkeep : ∀ q, keep q → cfg.root <+: q) {as cs : List ImageAct}
    (p : ImagePool) (hmem : ∀ act ∈ as, act ∈ cs) (hblind : ∀ i d, .move i d ∈ cs → d.blind = false)
    (hdelete : ∀ i (n : ImageName), .enter i (.delete n.text) ∈ cs → ¬ keep (cfg.at n 4)) :
    Runs.Along (Permitted (Careful true) (Asked cfg readers (Owned cfg readers fs cs) keep)
      (Moves cfg (Owned cfg readers fs cs) keep) (DiskEvent.apply cfg)) (images cfg readers).step p as :=
  along_permitted as p
    (fun i r hr => asked_of_mem (hmem _ hr) fun n hn => hdelete i n (hn ▸ hmem _ hr))
    (fun i d hd => ⟨hblind i d (hmem _ hd), fun h => by cases h⟩) fun s e => moves_drift hkeep e s

/-- The judgement about the calls of a run. -/
abbrev SafeImages (cfg : ImageStorage) (readers : ImageReaders) (keep : Path → Prop) (fs : Disk) (cs : List ImageAct) :
    ImagePool → Prop :=
  AllSafe FileCall.exec (Careful true) (Guarantee cfg readers (Owned cfg readers fs cs) keep)
    (Moves cfg (Owned cfg readers fs cs) keep) (Sound cfg (Owned cfg readers fs cs))
    (Ends cfg readers (Owned cfg readers fs cs) keep)

/-- Every run keeps all of its calls safe. -/
theorem safe_images (readers : ImageReaders) (hfs : Orderly cfg fs) (hkeep : ∀ q, keep q → cfg.root <+: q)
    {as cs : List ImageAct} (hmem : ∀ act ∈ as, act ∈ cs) (hblind : ∀ i d, .move i d ∈ cs → d.blind = false)
    (hdelete : ∀ i (n : ImageName), .enter i (.delete n.text) ∈ cs → ¬ keep (cfg.at n 4)) :
    SafeImages cfg readers keep fs cs (Runs.run (images cfg readers).step (Pool.idle fs) as) :=
  (safe_run compatible (fun _ _ hasked hsound => safe_start hasked hsound) as (asserts_idle (hfs.sound cs))
    (along_images readers hkeep _ hmem hblind hdelete)).1

/-- The same where no image is kept. -/
theorem safe_images_any (readers : ImageReaders) (hfs : Orderly cfg fs) {as cs : List ImageAct}
    (hmem : ∀ act ∈ as, act ∈ cs) (hblind : ∀ i d, .move i d ∈ cs → d.blind = false) :
    SafeImages cfg readers (fun _ => False) fs cs (Runs.run (images cfg readers).step (Pool.idle fs) as) :=
  safe_images readers hfs (fun _ h => h.elim) hmem hblind fun _ _ _ h => h

/-- **A step of a call makes a directory of images, creates the file of the image it stores, writes more of its
bytes, or deletes the file of the image it was asked to delete**, and changes nothing else anywhere, whatever
directories, links and files are there and whatever fails. -/
theorem images_contained (hfs : Orderly cfg fs) (as : List ImageAct) (i : ℕ) (d : Chance)
    (hblind : ∀ j c, .move j c ∈ as ++ [.move i d] → c.blind = false) :
    let p := Runs.run (images cfg readers).step (Pool.idle fs) as
    let p' := (images cfg readers).step p (.move i d)
    p'.store = p.store ∨ ∃ t, p.calls i = some t ∧
      (∀ q, NodeStep cfg readers t.request p.store p'.store q) ∧
      ∀ k < p.store.next, p.store.data k <+: p'.store.data k ∧ p'.store.data k <+: p.store.plan k := by
  intro p p'
  have hsafe : SafeImages cfg readers (fun _ => False) fs (as ++ [.move i d]) p :=
    safe_images_any readers hfs (fun act hact => List.mem_append_left _ hact) hblind
  have hd : Careful true d := ⟨hblind i d (List.mem_append_right _ List.mem_cons_self), fun h => by cases h⟩
  rcases safe_guarantee compatible hsafe hd i with hsame | ⟨t, ht, hguarantee⟩
  · exact .inl hsame
  · refine .inr ⟨t, ht, hguarantee.node, fun k hk => ⟨hguarantee.data k hk, ?_⟩⟩
    rw [← hguarantee.plan k hk]
    exact (hguarantee.sound hsafe.store).planned k (lt_of_lt_of_le hk hguarantee.next)

/-- **What a read answers was stored under that name**: a beginning of it that is not empty and not too long. -/
theorem images_truthful (hfs : Orderly cfg fs) (as : List ImageAct)
    (hblind : ∀ i d, .move i d ∈ as → d.blind = false) {i : ℕ} {t : ImageTask} {out : Bytes}
    (ht : (Runs.run (images cfg readers).step (Pool.idle fs) as).calls i = some t)
    (hout : t.prog.result = some (.ok (.bytes out))) :
    out ≠ [] ∧ out.length ≤ cfg.maxBytes ∧
      ∃ n b, t.request = .read (some n.text) ∧ Sources cfg readers fs as n b ∧ out <+: b := by
  have hsafe := (safe_images_any readers hfs (fun _ hact => hact) hblind).calls i t ht
  rw [Prog.result_eq_some.mp hout] at hsafe
  obtain ⟨n, b, hread, ⟨m, hpath, hsource⟩, hbegin, hne, hlen⟩ := (hsafe _ (moves_refl _)).bytes out rfl
  obtain rfl := at_injective hpath
  exact ⟨hne, hlen, n, b, hread, hsource, hbegin⟩

/-- The name that a call has answered is that of an image. -/
theorem stored_name (hfs : Orderly cfg fs) (as : List ImageAct) {i : ℕ} {t : ImageTask} {text : String}
    (ht : (Runs.run (images cfg readers).step (Pool.idle fs) as).calls i = some t)
    (hstored : t.prog.result = some (.ok (.stored text))) (hblind : ∀ i d, .move i d ∈ as → d.blind = false) :
    ∃ n : ImageName, text = n.text := by
  have hsafe := (safe_images_any readers hfs (fun _ hact => hact) hblind).calls i t ht
  rw [Prog.result_eq_some.mp hstored] at hsafe
  obtain ⟨n, b, -, rfl, -⟩ := (hsafe _ (moves_refl _)).stored text rfl
  exact ⟨n, rfl⟩

/-- A read of an image that is known, from its start. -/
theorem read_known_run {n : ImageName} {b : Bytes} {r : ImageRequest} (hr : r = .read n.text)
    {cs after : List ImageAct} {p : ImagePool} {j : ℕ} (hp : SafeImages cfg readers (· = cfg.at n 4) fs cs p)
    (hj : p.calls j = some ⟨r, start cfg readers r⟩) (hknown : Known cfg (· = cfg.at n 4) n (some b) p.store)
    (halong : Runs.Along (Permitted (Careful true) (Asked cfg readers (Owned cfg readers fs cs) (· = cfg.at n 4))
      (Moves cfg (Owned cfg readers fs cs) (· = cfg.at n 4)) (DiskEvent.apply cfg)) (images cfg readers).step p
      after)
    (hblind : ∀ d, .move j d ∈ after → d.blind = false) :
    ∃ t, (Runs.run (images cfg readers).step p after).calls j = some t ∧
      (∀ a, t.prog.result = some a →
        a = readBack b ∨ a = .error unavailable ∧ ∃ d, .move j d ∈ after ∧ d.fails = true) ∧
      (21 + cfg.maxBytes ≤ after.countP (isMove j) → ∃ a, t.prog.result = some a) := by
  obtain ⟨mayFail, hmay⟩ : ∃ m : Bool, m = true ↔ ∃ d, .move j d ∈ after ∧ d.fails = true := by
    classical
    exact ⟨decide _, decide_eq_true_iff⟩
  have hown : ∀ d, .move j d ∈ after → Careful mayFail d := by
    intro d hd
    refine ⟨hblind d hd, fun hnot => ?_⟩
    by_contra hfails
    rw [hmay.mpr ⟨d, hd, by simpa using hfails⟩] at hnot
    cases hnot
  have hsafe : SafeCall cfg readers (Owned cfg readers fs cs) (· = cfg.at n 4) mayFail r
      (fun a _ => a = readBack b ∨ mayFail = true ∧ a = .error unavailable)
      (start cfg readers r) p.store := safe_read_known hr hp.store hknown
  obtain ⟨t, ht, -, hend⟩ := safe_own_run compatible (fun _ _ hasked hsound => safe_start hasked hsound) after
    hp halong hown hj hsafe
  obtain ⟨t', ht', hwithin⟩ : ∃ t', (Runs.run (images cfg readers).step p after).calls j = some t' ∧
      Within (21 + cfg.maxBytes - after.countP (isMove j)) t'.prog := within_run after hj (within_start readers r)
  obtain rfl : t = t' := Option.some.inj (ht.symm.trans ht')
  refine ⟨t, ht, fun a ha => ?_, fun hmany => ?_⟩
  · rw [Prog.result_eq_some.mp ha] at hend
    rcases hend _ (moves_refl _) with hback | ⟨hfail, hunavailable⟩
    · exact .inl hback
    · exact .inr ⟨hunavailable, hmay.mp hfail⟩
  · rw [Nat.sub_eq_zero_of_le hmany] at hwithin
    obtain ⟨a, ha⟩ := hwithin.returned
    exact ⟨a, Prog.result_eq_some.mpr ha⟩

/-- **An image that was stored is read back as it was encoded**, in every run in which it is not asked to be
deleted: a read that starts after it was stored is over after so many of its own steps, and answers the bytes,
or that one of its own calls of the file system has failed. -/
theorem image_read_back (hfs : Orderly cfg fs) (before after : List ImageAct) {i j : ℕ} {t : ImageTask}
    {text : String} (ht : (Runs.run (images cfg readers).step (Pool.idle fs) before).calls i = some t)
    (hstored : t.prog.result = some (.ok (.stored text)))
    (hfree : (Runs.run (images cfg readers).step (Pool.idle fs) before).calls j = none)
    (hdelete : ∀ k, .enter k (.delete text) ∉ before ++ after)
    (hblind : ∀ k d, .move k d ∈ before ++ after → d.blind = false) :
    ∃ n b, Plans cfg readers t.request n b ∧ n.text = text ∧
      ∃ t', (Runs.run (images cfg readers).step (Pool.idle fs)
          (before ++ .enter j (.read text) :: after)).calls j = some t' ∧
        (∀ a, t'.prog.result = some a →
          a = readBack b ∨ a = .error unavailable ∧ ∃ d, .move j d ∈ after ∧ d.fails = true) ∧
        (21 + cfg.maxBytes ≤ after.countP (isMove j) → ∃ a, t'.prog.result = some a) := by
  obtain ⟨n, rfl⟩ := stored_name hfs before ht hstored fun k d hd => hblind k d (List.mem_append_left _ hd)
  set read : ImageAct := .enter j (.read n.text)
  set cs := before ++ read :: after
  have hcs : ∀ act ∈ cs, act = read ∨ act ∈ before ++ after := by
    intro act hact
    simp only [cs, List.mem_append, List.mem_cons] at hact ⊢
    tauto
  have hkeep : ∀ q, q = cfg.at n 4 → cfg.root <+: q := fun q hq => hq ▸ root_prefix_at
  have hblind' : ∀ k d, .move k d ∈ cs → d.blind = false := by
    intro k d hd
    rcases hcs _ hd with hread | hd
    · simp [read] at hread
    · exact hblind k d hd
  have hdelete' : ∀ k (m : ImageName), .enter k (.delete m.text) ∈ cs → ¬ cfg.at m 4 = cfg.at n 4 := by
    intro k m hm heq
    obtain rfl := at_injective heq
    rcases hcs _ hm with hread | hm
    · simp [read] at hread
    · exact hdelete k hm
  -- when the call has returned the image is there
  have hbefore := safe_images readers hfs hkeep (fun act hact => List.mem_append_left _ hact) hblind' hdelete'
  have hends := hbefore.calls i t ht
  rw [Prog.result_eq_some.mp hstored] at hends
  obtain ⟨m, b, hplans, htext, hcomplete⟩ := (hends _ (moves_refl _)).stored n.text rfl
  obtain rfl := text_injective htext
  refine ⟨n, b, hplans, rfl, ?_⟩
  -- the read starts, and knows it
  set p := Runs.run (images cfg readers).step (Pool.idle fs) before
  have hstep : (images cfg readers).step p read =
      { p with calls := Function.update p.calls j (some ⟨.read n.text, start cfg readers (.read n.text)⟩) } :=
    System.step_enter _ hfree
  have hmem : ∀ act ∈ before ++ [read], act ∈ cs := by
    intro act hact
    simp only [cs, List.mem_append, List.mem_cons, List.not_mem_nil, or_false] at hact ⊢
    tauto
  have hread := safe_images readers hfs hkeep hmem hblind' hdelete'
  rw [Runs.run_append, Runs.run_cons, Runs.run_nil, hstep] at hread
  have hknown : Known cfg (· = cfg.at n 4) n (some b) p.store := by
    rintro b' ⟨⟩
    obtain ⟨image, id, -, hprepare⟩ := hplans
    exact ⟨rfl, hcomplete rfl, prepare_length hprepare⟩
  have hafter : ∀ act ∈ after, act ∈ cs := fun act hact =>
    List.mem_append_right _ (List.mem_cons_of_mem _ hact)
  rw [Runs.run_append, Runs.run_cons, hstep]
  exact read_known_run rfl hread (Function.update_self ..) hknown (along_images readers hkeep _ hafter hblind' hdelete')
    fun d hd => hblind j d (List.mem_append_right _ hd)

end runs

/-! ## A run -/

/-- A storage below `data`. -/
def dataStorage : ImageStorage where
  root := ["data"]
  maxBytes := 90
  maxPixels := 4
  root_ne := List.cons_ne_nil _ _
  root_plain c hc := by
    obtain rfl := List.mem_singleton.mp hc
    decide
  maxBytes_pos := by decide
  maxBytes_le := by decide

/-- Nothing but the root. -/
def emptyDisk : Disk := ⟨(∅ : Maps.FiniteMap Path Node).insert ["data"] .dir, fun _ => [], fun _ => [], 0, 40⟩

/-- Nothing but the root is there. -/
theorem node_emptyDisk (p : Path) : emptyDisk.node p = if p = ["data"] then some .dir else none :=
  Maps.lookup_insert_eq ..

/-- An empty root is in order. -/
theorem emptyDisk_orderly : Orderly dataStorage emptyDisk where
  real q hne hq := by
    rcases List.prefix_cons_iff.mp hq with rfl | ⟨t, rfl, ht⟩
    · exact absurd rfl hne
    · rw [List.prefix_nil.mp ht]
      decide +kernel
  closed p c hp hsome := by
    rw [node_emptyDisk, if_neg] at hsome
    · exact absurd rfl hsome
    · intro heq
      have hlen := hp.length_le
      have hlen' := congrArg List.length heq
      rw [List.length_append, List.length_singleton, List.length_singleton] at hlen'
      have hroot : dataStorage.root.length = 1 := rfl
      omega
  numbered p i hp := by
    rw [node_emptyDisk] at hp
    split at hp <;> cases hp
  written i hi := absurd hi (Nat.not_lt_zero i)

/-- The picture of one pixel. -/
def pixel : Bytes :=
  [0x89, 0x50, 0x4E, 0x47, 0x0D, 0x0A, 0x1A, 0x0A, 0, 0, 0, 13, 0x49, 0x48, 0x44, 0x52, 0, 0, 0, 1, 0, 0, 0, 1, 8,
    0, 0, 0, 0, 0x3A, 0x7E, 0x9B, 0x55, 0, 0, 0, 10, 0x49, 0x44, 0x41, 0x54, 0x78, 0x9C, 0x63, 0x60, 0, 0, 0, 2, 0,
    1, 0x48, 0xAF, 0xA4, 0x71, 0, 0, 0, 0, 0x49, 0x45, 0x4E, 0x44, 0xAE, 0x42, 0x60, 0x82]

/-- A reader of that picture. -/
def pixelReader : ImageReaders := fun input =>
  if pixel <+: input then
    some ⟨some "png", some 1, some 1, fun format => some (if format = "png" then some pixel else none)⟩
  else none

def zeroUuid : Uuid := ⟨List.replicate 32 0, rfl⟩

/-- A step in which nothing fails. -/
def smooth : Chance := ⟨false, false, 8191⟩

/-- The picture is stored with something behind it, in sixteen steps. -/
def storing : List ImageAct :=
  .enter 0 (.store (some ⟨false, 70, [pixel ++ [1, 2, 3]], false⟩) zeroUuid) :: List.replicate 16 (.move 0 smooth)

/-- The name it is stored under. -/
def pixelName : String := "/blogs/0/4/00000000-0000-0000-0000-000000000000.png"

/-- It is read, in sixteen steps. -/
def reading : List ImageAct := List.replicate 16 (.move 1 smooth)

/-- The steps of the run. -/
theorem mem_pixels {act : ImageAct} (h : act ∈ storing ++ .enter 1 (.read pixelName) :: reading) :
    (∃ i, act = .move i smooth) ∨ ∃ i r, act = .enter i r ∧ ∀ name, r ≠ .delete name := by
  simp only [storing, reading, List.mem_append, List.mem_cons, List.mem_replicate] at h
  rcases h with (rfl | ⟨-, rfl⟩) | rfl | ⟨-, rfl⟩
  · exact .inr ⟨0, _, rfl, fun _ => ImageRequest.noConfusion⟩
  · exact .inl ⟨0, rfl⟩
  · exact .inr ⟨1, _, rfl, fun _ => ImageRequest.noConfusion⟩
  · exact .inl ⟨1, rfl⟩

/-- No query of the run is blind. -/
theorem pixels_blind {k : ℕ} {d : Chance} (h : .move k d ∈ storing ++ .enter 1 (.read pixelName) :: reading) :
    d.blind = false := by
  rcases mem_pixels h with ⟨i, hact⟩ | ⟨i, r, hact, -⟩
  · cases hact
    rfl
  · cases hact

/-- The last step of the first call writes the picture. -/
theorem pixel_contained :
    let p := Runs.run (images dataStorage pixelReader).step (Pool.idle emptyDisk) (storing.take 16)
    let p' := (images dataStorage pixelReader).step p (.move 0 smooth)
    p'.store = p.store ∨ ∃ t, p.calls 0 = some t ∧
      (∀ q, NodeStep dataStorage pixelReader t.request p.store p'.store q) ∧
      ∀ k < p.store.next, p.store.data k <+: p'.store.data k ∧ p'.store.data k <+: p.store.plan k :=
  images_contained emptyDisk_orderly (storing.take 16) 0 smooth fun _ _ hd =>
    pixels_blind (List.mem_append_left _ (show _ ∈ storing from hd))

/-- The call that stores has answered the name of the picture. -/
theorem storing_returned :
    ((Runs.run (images dataStorage pixelReader).step (Pool.idle emptyDisk) storing).calls 0).bind
      (fun t => t.prog.result) = some (.ok (.stored pixelName)) := by decide +kernel

/-- The call that reads has answered the picture. -/
theorem reading_returned :
    ((Runs.run (images dataStorage pixelReader).step (Pool.idle emptyDisk)
      (storing ++ .enter 1 (.read pixelName) :: reading)).calls 1).bind (fun t => t.prog.result) =
      some (.ok (.bytes pixel)) := by decide +kernel

/-- What the read answers was stored under that name. -/
theorem pixel_truthful : ∃ t : ImageTask, pixel ≠ [] ∧ pixel.length ≤ dataStorage.maxBytes ∧
    ∃ n b, t.request = .read (some n.text) ∧
      Sources dataStorage pixelReader emptyDisk (storing ++ .enter 1 (.read pixelName) :: reading) n b ∧
      pixel <+: b := by
  obtain ⟨t, ht, hout⟩ := Option.bind_eq_some_iff.mp reading_returned
  exact ⟨t, images_truthful emptyDisk_orderly _ (fun _ _ => pixels_blind) ht hout⟩

/-- The picture is read back as it was encoded. -/
theorem pixel_read_back : ∃ t : ImageTask, ∃ n b, Plans dataStorage pixelReader t.request n b ∧
    n.text = pixelName ∧
    ∃ t', (Runs.run (images dataStorage pixelReader).step (Pool.idle emptyDisk)
        (storing ++ .enter 1 (.read pixelName) :: reading)).calls 1 = some t' ∧
      (∀ a, t'.prog.result = some a →
        a = readBack b ∨ a = .error unavailable ∧ ∃ d, .move 1 d ∈ reading ∧ d.fails = true) ∧
      (21 + dataStorage.maxBytes ≤ reading.countP (isMove 1) → ∃ a, t'.prog.result = some a) := by
  obtain ⟨t, ht, hstored⟩ := Option.bind_eq_some_iff.mp storing_returned
  have hsub : ∀ act, act ∈ storing ++ reading → act ∈ storing ++ .enter 1 (.read pixelName) :: reading :=
    fun act h => (List.Sublist.append_left (List.sublist_cons_self _ reading) storing).subset h
  refine ⟨t, image_read_back emptyDisk_orderly storing reading ht hstored (by decide +kernel) (fun k hk => ?_)
    fun k d hd => pixels_blind (hsub _ hd)⟩
  rcases mem_pixels (hsub _ hk) with ⟨i, hact⟩ | ⟨i, r, hact, hr⟩
  · cases hact
  · cases hact
    exact hr _ rfl

end CampusHub.Storage
