import CampusHub.Foundations.Guards
import CampusHub.Foundations.Programs
import CampusHub.Storage.Names

/-!
# The image storage

* `ImageStorage` — the root of the images and their limits.
* `path` — the path that a name is let in for; `path_eq_ok_iff` says which.
* `bounded`, `encode`, `prepare` — what an upload is turned into before any file is touched.
* `verifyParents`, `ensureParents`, `store`, `read`, `delete` — the programs, call by call of the file system.
* `images` — any number of them over one file system, while others change what is outside the root.

**Theorem** (`path_eq_ok_iff`). A name is let in exactly when it is the name of an image, and then for the
file of that image below the root. So the check of the source for paths that leave the root refuses nothing
that the pattern has let in.

**The model.** A call is a program over the calls of the file system, with `try` and `catch` where the
source has them. A call of the file system may fail, and one that moves bytes moves at least one of them,
and as many as it likes. The readers of images are a parameter, `ImageReaders`, and a reader may throw.
`images` runs any number of calls one step at a time, with steps of others between them.

**Left out.** The decoder of images, which is not part of the source, and whether its answer depends on more
than the bytes that it is given.
-/

namespace CampusHub.Storage

open CampusHub.Foundations.Files CampusHub.Foundations.Guards CampusHub.Foundations.Pools
open CampusHub.Foundations.Programs

/-! ## What is refused -/

/-- What a call is refused with. -/
structure ImageException where
  errorCode : String
  message : String
  deriving DecidableEq

/-- Source: `LocalImageStorage.java` 129. -/
def invalid : ImageException :=
  ⟨"VALIDATION_FAILED", "仅支持有效且符合大小限制的 JPEG/PNG 图片和受控图片路径"⟩

def notFound : ImageException := ⟨"NOT_FOUND", "请求的资源不存在"⟩

/-- Source: `LocalImageStorage.java` 130–133. -/
def unavailable : ImageException := ⟨"IMAGE_STORAGE_UNAVAILABLE", "图片存储暂不可用，请稍后重试"⟩

/-- What is thrown within a call. -/
inductive Thrown where
  | io
  | business (e : ImageException)

/-- `catch (IOException error) { throw unavailable(error); }` -/
def Thrown.caught : Thrown → ImageException
  | .io => unavailable
  | .business e => e

/-! ## The storage and its paths -/

/-- The root, which is a real path and not that of the file system, and the limits.
Source: `LocalImageStorage.java` 23–34, `ImageStorageProperties.java`. -/
structure ImageStorage where
  root : Path
  maxBytes : ℕ
  maxPixels : ℤ
  root_ne : root ≠ []
  root_plain : Plain root
  maxBytes_pos : 1 ≤ maxBytes
  maxBytes_le : maxBytes ≤ 10485760

variable (cfg : ImageStorage)

/-- Source: `LocalImageStorage.java` 90–95. -/
def path (name : Option String) : Except ImageException Path := do
  let name ← getOr name invalid
  ensure (isImageName name) invalid
  let target := normalize (cfg.root ++ components name)
  ensure (cfg.root.isPrefixOf target) invalid
  .ok target

/-! ## Uploads -/

/-- A file of a request: what `isEmpty` and `getSize` answer, and what its stream gives before it ends or
breaks. -/
structure Upload where
  isEmpty : Bool
  size : ℤ
  chunks : List Bytes
  breaks : Bool

/-- Source: `LocalImageStorage.java` 123–124. -/
def append (output chunk : Bytes) : Except Thrown Bytes := do
  ensure ((output.length : ℤ) ≤ cfg.maxBytes - chunk.length) (.business invalid)
  .ok (output ++ chunk)

/-- Source: `LocalImageStorage.java` 126–127. -/
def finish (output : Bytes) : Except Thrown Bytes := do
  ensure (output ≠ []) (.business invalid)
  .ok output

/-- Source: `LocalImageStorage.java` 120–128, from the stream of an upload. -/
def bounded (breaks : Bool) : Bytes → List Bytes → Except Thrown Bytes
  | output, [] => if breaks then .error .io else finish output
  | output, chunk :: chunks => do bounded breaks (← append cfg output chunk) chunks

/-- A reader of an image, none where it throws; `written` is what `read` and `ImageIO.write` give for a
format, and none within where that answers false. -/
structure ImageReader where
  formatName : Option String
  width : Option ℤ
  height : Option ℤ
  written : String → Option (Option Bytes)

/-- `ImageIO.getImageReaders`: the first reader of an input, if there is one. -/
abbrev ImageReaders := Bytes → Option ImageReader

/-- Source: `LocalImageStorage.java` 46–61. -/
def encode (readers : ImageReaders) (input : Bytes) : Except ImageException (Bool × Bytes) := do
  let reader ← getOr (readers input) invalid
  let formatName ← getOr reader.formatName invalid
  let format := formatName.toLower
  ensure (format = "png" ∨ format = "jpeg") invalid
  let width ← getOr reader.width invalid
  let height ← getOr reader.height invalid
  ensure (0 < width ∧ 0 < height ∧ width * height ≤ cfg.maxPixels) invalid
  let written ← getOr (reader.written format) invalid
  let encoded ← getOr written invalid
  ensure (encoded.length ≤ cfg.maxBytes) invalid
  .ok (format = "jpeg", encoded)

/-- What is going to be stored, and under which name. Source: `LocalImageStorage.java` 40–64. -/
def prepare (readers : ImageReaders) (image : Option Upload) (id : Uuid) :
    Except ImageException (ImageName × Bytes) := do
  let image ← getOr image invalid
  ensure (image.isEmpty = false ∧ image.size ≤ cfg.maxBytes) invalid
  let input ← (bounded cfg image.breaks [] image.chunks).mapError Thrown.caught
  let (jpeg, encoded) ← encode cfg readers input
  .ok (storedName id jpeg, encoded)

/-! ## The programs -/

/-- A program over the file system. -/
abbrev FileCode := Code FileCall FileCall.Answer Thrown

def isSymbolicLink (p : Path) : FileCode Bool := Code.ask (FileCall.query .symbolicLink p)

def exists_ (p : Path) : FileCode Bool := Code.ask (FileCall.query .exists p)

def isDirectory (p : Path) : FileCode Bool := Code.ask (FileCall.query .directory p)

def isRegularFile (p : Path) : FileCode Bool := Code.ask (FileCall.query .regularFile p)

/-- False where the directory is there already. -/
def createDirectory (p : Path) : FileCode Bool := do
  let r : Except IoException Unit ← Code.ask (FileCall.createDirectory p)
  match r with
  | .ok () => pure true
  | .error .fileAlreadyExists => pure false
  | .error .other => throw .io

/-- A call whose failure is an `IOException`. -/
def FileCode.io {α : Type} : Except IoException α → FileCode α
  | .ok a => pure a
  | .error _ => throw .io

/-- A computation that may throw. -/
def FileCode.pureCode {α : Type} : Except Thrown α → FileCode α
  | .ok a => pure a
  | .error e => throw e

/-- Source: `LocalImageStorage.java` 100–106. -/
def verifyParts : Path → List String → FileCode Unit
  | _, [] => pure ()
  | current, part :: parts => do
    if ← isSymbolicLink (current ++ [part]) then throw (.business invalid)
    else if ← exists_ (current ++ [part]) then
      if ← isDirectory (current ++ [part]) then verifyParts (current ++ [part]) parts
      else throw .io
    else verifyParts (current ++ [part]) parts

/-- `root.relativize(target.getParent())` -/
def parts (target : Path) : List String := target.dropLast.drop cfg.root.length

/-- Source: `LocalImageStorage.java` 96–107. -/
def verifyParents (target : Path) : FileCode Unit := do
  if ← isSymbolicLink cfg.root then throw (.business invalid)
  else if ← isDirectory cfg.root then verifyParts cfg.root (parts cfg target)
  else throw .io

/-- Source: `LocalImageStorage.java` 111–118. -/
def ensureParts : Path → List String → FileCode Unit
  | _, [] => pure ()
  | current, part :: parts => do
    if ← isSymbolicLink (current ++ [part]) then throw (.business invalid)
    else if ← createDirectory (current ++ [part]) then ensureParts (current ++ [part]) parts
    else if ← isDirectory (current ++ [part]) then ensureParts (current ++ [part]) parts
    else throw .io

/-- Source: `LocalImageStorage.java` 108–119. -/
def ensureParents (target : Path) : FileCode Unit := do
  verifyParents cfg target
  ensureParts cfg.root (parts cfg target)

/-- `output.write(encoded)`, with at least a byte at a time. -/
def writeAll (i : ℕ) : ℕ → ℕ → Bytes → FileCode Unit
  | 0, _, _ => pure ()
  | n + 1, offset, bytes =>
    if bytes = [] then pure ()
    else do
      let count ← FileCode.io (← Code.ask (FileCall.write i offset bytes))
      writeAll i n (offset + count) (bytes.drop count)

/-- Source: `LocalImageStorage.java` 120–128, from a file. Every read gives a byte at least, so that there
are at most `maxBytes` before the end or the refusal. -/
def boundedFile (i : ℕ) : ℕ → Bytes → FileCode Bytes
  | 0, _ => throw .io
  | n + 1, output => do
    let chunk ← FileCode.io (← Code.ask (FileCall.read i output.length))
    if chunk = [] then FileCode.pureCode (finish output)
    else boundedFile i n (← FileCode.pureCode (append cfg output chunk))

/-- What a call answers. -/
inductive ImageAnswer where
  | stored (name : String)
  | bytes (b : Bytes)
  | deleted
  deriving DecidableEq

/-- A call. -/
abbrev ImageCode := Code FileCall FileCall.Answer ImageException ImageAnswer

/-- The part of a call within its `try`. -/
def tried (p : FileCode ImageAnswer) : ImageCode := p.rethrow Thrown.caught

/-- Source: `LocalImageStorage.java` 65–71. -/
def write (name : ImageName) (encoded : Bytes) (target : Path) : FileCode ImageAnswer := do
  ensureParents cfg target
  let i ← FileCode.io (← Code.ask (FileCall.createNew target encoded))
  writeAll i encoded.length 0 encoded
  return .stored name.text

/-- Source: `LocalImageStorage.java` 39–72. -/
def store (readers : ImageReaders) (image : Option Upload) (id : Uuid) : ImageCode :=
  match prepare cfg readers image id with
  | .error e => throw e
  | .ok (name, encoded) =>
    match path cfg name.text with
    | .error e => throw e
    | .ok target => tried (write cfg name encoded target)

/-- Source: `LocalImageStorage.java` 75–79. -/
def readTarget (target : Path) : FileCode ImageAnswer := do
  verifyParents cfg target
  if ← exists_ target then
    if ← isRegularFile target then
      let i ← FileCode.io (← Code.ask (FileCall.newInputStream target))
      return .bytes (← boundedFile cfg i (cfg.maxBytes + 1) [])
    else throw (.business invalid)
  else throw (.business notFound)

/-- Source: `LocalImageStorage.java` 73–81. -/
def read (name : Option String) : ImageCode :=
  match path cfg name with
  | .error e => throw e
  | .ok target => tried (readTarget cfg target)

/-- Source: `LocalImageStorage.java` 84–87. -/
def deleteTarget (target : Path) : FileCode ImageAnswer := do
  verifyParents cfg target
  if ← exists_ target then
    if ← isRegularFile target then
      let _ ← FileCode.io (← Code.ask (FileCall.deleteIfExists target))
      return .deleted
    else throw (.business invalid)
  else
    let _ ← FileCode.io (← Code.ask (FileCall.deleteIfExists target))
    return .deleted

/-- Source: `LocalImageStorage.java` 82–89. -/
def delete (name : Option String) : ImageCode :=
  match path cfg name with
  | .error e => throw e
  | .ok target => tried (deleteTarget cfg target)

/-! ## Calls over one file system -/

/-- A call with what it is given. -/
inductive ImageRequest where
  | store (image : Option Upload) (id : Uuid)
  | read (name : Option String)
  | delete (name : Option String)

/-- The program of a request. -/
def start (readers : ImageReaders) : ImageRequest → Prog FileCall FileCall.Answer (Except ImageException ImageAnswer)
  | .store image id => (store cfg readers image id).run
  | .read name => (read cfg name).run
  | .delete name => (delete cfg name).run

/-- What others do to the file system. -/
inductive DiskEvent where
  | directory (p : Path)
  | link (p : Path) (absolute : Bool) (target : Path)
  | file (p : Path) (bytes : Bytes)
  | remove (p : Path)

/-- Where it happens. -/
def DiskEvent.place : DiskEvent → Path
  | .directory p | .link p _ _ | .file p _ | .remove p => p

/-- A file of others, with all its bytes. -/
def addFile (p : Path) (bytes : Bytes) (fs : Disk) : Disk := (fs.create p bytes).store fs.next 0 bytes

/-- **Only the application writes below the root**, and the root stays where it is. -/
def DiskEvent.apply (e : DiskEvent) (fs : Disk) : Disk :=
  if cfg.root.isPrefixOf e.place ∨ e.place.isPrefixOf cfg.root then fs
  else
    match e with
    | .directory p => fs.put p .dir
    | .link p absolute target => fs.put p (.link absolute target)
    | .file p bytes => addFile p bytes fs
    | .remove p => fs.remove p

/-- A call under way. -/
abbrev ImageTask := Task ImageRequest FileCall FileCall.Answer (Except ImageException ImageAnswer)

/-- Calls over one file system. -/
def images (readers : ImageReaders) : System Disk ImageRequest ImageTask Chance DiskEvent :=
  machine FileCall.exec (start cfg readers) (DiskEvent.apply cfg)

/-- The file system and the calls. -/
abbrev ImagePool := Pool Disk ImageTask

/-- The steps. -/
abbrev ImageAct := PoolAct ImageRequest Chance DiskEvent

/-! ## Names that are let in -/

section paths

variable {cfg}

/-- The directories above an image. -/
theorem parts_path (n : ImageName) : parts cfg (cfg.root ++ n.path) = n.path.dropLast := by
  unfold parts
  rw [List.dropLast_append_of_ne_nil (by simp [ImageName.path]), List.drop_left]

/-- The path of an image leads nowhere else. -/
theorem plain_image (n : ImageName) : Plain (cfg.root ++ n.path) := by
  intro c hc
  rcases List.mem_append.mp hc with hc | hc
  · exact cfg.root_plain c hc
  · exact n.plain_path c hc

/-- The path of a name that was let in is normal. -/
theorem normalize_image (n : ImageName) : normalize (cfg.root ++ components n.text) = cfg.root ++ n.path := by
  rw [components_text, normalize_plain (plain_image n)]

/-- The name of an image is let in. -/
theorem path_text (n : ImageName) : path cfg (some n.text) = .ok (cfg.root ++ n.path) := by
  unfold path
  rw [getOr_some_bind, ensure_of (isImageName_iff.mpr ⟨n, rfl⟩), normalize_image, ensure_of]
  rw [List.isPrefixOf_iff_prefix]
  exact List.prefix_append _ _

/-- A name that is let in is the name of an image. -/
theorem exists_of_path {name : Option String} {target : Path} (h : path cfg name = .ok target) :
    ∃ n : ImageName, name = some n.text ∧ target = cfg.root ++ n.path := by
  unfold path at h
  simp only [getOr_bind_eq_ok, ensure_bind_eq_ok, isImageName_iff] at h
  obtain ⟨_, rfl, ⟨n, rfl⟩, -, htarget⟩ := h
  rw [normalize_image] at htarget
  exact ⟨n, rfl, (Except.ok.inj htarget).symm⟩

/-- **A name is let in exactly when it is the name of an image**, for the file of that image below the root.
The check for paths that leave the root refuses nothing. -/
theorem path_eq_ok_iff (cfg : ImageStorage) (name : Option String) (target : Path) :
    path cfg name = .ok target ↔ ∃ n : ImageName, name = some n.text ∧ target = cfg.root ++ n.path := by
  constructor
  · exact exists_of_path
  · rintro ⟨n, rfl, rfl⟩
    exact path_text n

end paths

end CampusHub.Storage
