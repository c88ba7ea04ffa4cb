import DufsRam.Lib.Crash
import DufsRam.Lib.DurableFile
import DufsRam.RootedFs.Tree
import DufsRam.StateStore.Upload
import DufsRam.Upload.Protocol

/-!
# The world of one upload session

The state an upload works on: the state database, the entry at the stage path, the inodes that were
ever staged, the entry at the target path, and the progress of the request that runs. A step of a
request consumes one answer of its environment, which decides whether the step fails, how far a
partial effect goes, what the clock shows and what another process does to the target meanwhile.
A request whose answers run out is cut short by a crash.

Directory operations survive a crash, and an inode number that was used is not used again.
-/

namespace DufsRam

open Crash Relational

/-! ### Files -/

/-- Owner, group, mode and extended attributes of a file. -/
structure PreservedFileMetadata where
  uid : UInt32
  gid : UInt32
  mode : UInt32
  xattrs : List (String × List UInt8)
  deriving DecidableEq

structure FileTimes where
  modifiedSeconds : Int := 0
  modifiedNanoseconds : Nat := 0
  changedSeconds : Int := 0
  changedNanoseconds : Nat := 0
  deriving DecidableEq

structure ExistingReplacementTarget where
  identity : StoredFileIdentity
  fileType : FileType
  links : Nat
  size : Nat
  uid : UInt32
  gid : UInt32
  mode : UInt32
  times : FileTimes
  deriving DecidableEq

/-- `Missing` is `none`. -/
abbrev ReplacementTargetIdentity := Option ExistingReplacementTarget

/-- The set-user-ID and set-group-ID bits. -/
def setIdBits : UInt32 := 0o6000

def permissionBits : UInt32 := 0o7777

def isReplaceable : ReplacementTargetIdentity → Bool
  | none => true
  | some target => match target.fileType with
    | .symlink => true
    | .regularFile => decide (target.links = 1) && decide (target.mode &&& setIdBits = 0)
    | .directory | .other => false

/-- The entry at the target path. -/
structure TargetObject where
  stat : ExistingReplacementTarget
  xattrs : List (String × List UInt8)
  deriving DecidableEq

/-- A staged inode. The last three fields are a record of its history: its attributes when it was
created, and whether `apply_file_metadata` has changed any of them. -/
structure Inode where
  data : DurableFile UInt8
  attributes : PreservedFileMetadata
  birth : PreservedFileMetadata
  replayed : Bool
  untouched : replayed = false → attributes = birth
  deriving DecidableEq

namespace Inode

def create (attributes : PreservedFileMetadata) : Inode :=
  ⟨.empty, attributes, attributes, false, fun _ => rfl⟩

def mapData (f : DurableFile UInt8 → DurableFile UInt8) (n : Inode) : Inode :=
  { n with data := f n.data }

def setAttributes (attributes : PreservedFileMetadata) (n : Inode) : Inode :=
  ⟨n.data, attributes, n.birth, true, by simp⟩

def length (n : Inode) : Nat := n.data.content.length

@[simp] lemma data_mapData (f : DurableFile UInt8 → DurableFile UInt8) (n : Inode) :
    (n.mapData f).data = f n.data := rfl

@[simp] lemma mapData_id (n : Inode) : n.mapData id = n := rfl

end Inode

/-! ### State, answers and errors -/

inductive MutationProgress where
  | preflight
  | reserved
  | detachedCommit
  | cancelledBeforeUploadMutation
  deriving DecidableEq

namespace MutationProgress

def markReserved : MutationProgress → MutationProgress
  | .preflight => .reserved
  | m => m

def markDetachedCommit (_ : MutationProgress) : MutationProgress := .detachedCommit

def beginUploadMutation : MutationProgress → Bool × MutationProgress
  | .preflight => (true, .detachedCommit)
  | .detachedCommit => (true, .detachedCommit)
  | .cancelledBeforeUploadMutation => (false, .cancelledBeforeUploadMutation)
  | .reserved => (false, .reserved)

def cancelUploadBeforeMutation : MutationProgress → Bool × MutationProgress
  | .preflight => (true, .cancelledBeforeUploadMutation)
  | m => (false, m)

def outcomeCanBeUnknown (m : MutationProgress) : Bool := decide (m = .detachedCommit)

end MutationProgress

/-- The points after which a request gives up an upload whose stage is complete. -/
inductive Setback where
  | commitStartedNotPersisted
  | spaceLostAfterCommitStarted
  | notPublished
  deriving DecidableEq

/-- A rename of the stage onto the target: the inode as it was, and the row of the session in the
database at that moment. -/
structure Publication where
  identity : StoredFileIdentity
  inode : Inode
  row : Option StoredUploadSession
  deriving DecidableEq

/-- The last three fields record what happened: whether a row of the session was purged after its
expiry, the publish renames, and the setbacks of the request that runs. -/
structure World where
  db : Database
  stage : Option StoredFileIdentity
  inodes : StoredFileIdentity → Option Inode
  target : Option TargetObject
  mutation : MutationProgress
  purged : Bool
  published : List Publication
  setbacks : List Setback

/-- One answer of the environment. Every step reads the fields it needs: the error it fails with,
the unfavourable answer to a question, how far an effect goes, the clock of the store, the number
of a new inode, the times of a published file and a change of the target by another process. -/
structure Answer where
  error : Option ErrorKind := none
  no : Bool := false
  amount : Nat := 0
  now : TimeMs := 0
  identity : StoredFileIdentity := ⟨0, 0⟩
  times : FileTimes := {}
  meddling : Option (Option TargetObject) := none
  deriving DecidableEq

inductive UploadRecordStoreError where
  | conflict
  | full
  deriving DecidableEq

/-- The errors that a handler lets escape. -/
inductive Failure where
  | io (kind : ErrorKind)
  /-- `StateStoreDispatchError`: the store did not accept the command. -/
  | dispatch
  | record (error : UploadRecordStoreError)
  | other (message : String)
  deriving DecidableEq

/-- How a handler ends early: with a response it has rendered, or with an error. -/
inductive Exit where
  | reply (res : UploadResponse)
  | error (e : Failure)
  deriving DecidableEq

/-- A step of a request. -/
abbrev Io (α : Type) := Prog Answer World Exit α

/-- What is fixed during a session: its key and paths, the limits of the store, the configuration
of the server, the attributes a new stage gets and the digest behind a target revision. -/
structure Site where
  key : UploadSessionKey
  targetPath : RelPath
  stagePath : RelPath
  limits : Limits
  maxUploadSize : Nat
  allocationUnit : Nat
  stageAttributes : PreservedFileMetadata
  revisionDigest : ExistingReplacementTarget → Revision

namespace World

/-- The row of the session. -/
def row (site : Site) (w : World) : Option StoredUploadSession :=
  (w.db.uploadSessions.lookup site.key).map UploadRow.session

def mapInode (id : StoredFileIdentity) (f : Inode → Inode) (w : World) : World :=
  { w with inodes := Function.update w.inodes id ((w.inodes id).map f) }

def mapData (id : StoredFileIdentity) (f : DurableFile UInt8 → DurableFile UInt8) (w : World) :
    World :=
  w.mapInode id (Inode.mapData f)

/-- The names an inode has. -/
def links (w : World) (id : StoredFileIdentity) : Nat :=
  (if w.stage = some id then 1 else 0) +
    (if w.target.any fun t => decide (t.stat.identity = id) then 1 else 0)

/-- Another process changes the target, or leaves it alone. -/
def meddle (a : Answer) (w : World) : World :=
  match a.meddling with
  | some target => { w with target }
  | none => w

end World

/-! ### Steps in general -/

def fail {α : Type} (e : Failure) : Io α := .throw (.error e)

/-- `return Ok(None)` or `return Ok(())` after a response was rendered. -/
def reply {α : Type} (res : UploadResponse) : Io α := .throw (.reply res)

/-- `ensure!` in a handler. -/
def check (c : Prop) [Decidable c] (message : String) : Io Unit :=
  if c then pure () else fail (.other message)

/-- A call that has no effect when it fails. -/
def fsStep : Io Answer := do
  let a ← .ask
  match a.error with
  | some kind => fail (.io kind)
  | none => pure a

/-- A call that looks at the target, which another process may have changed. -/
def targetStep : Io Answer := do
  let a ← .ask
  .modify (World.meddle a)
  match a.error with
  | some kind => fail (.io kind)
  | none => pure a

/-- `Instant::now() >= deadline`. -/
def deadlinePassed : Io Bool := do
  let a ← .ask
  pure a.no

/-- A command of the state store: it is refused or fails without effect, or runs as one
transaction at the time the clock shows. -/
def storeStep {α : Type} (command : TimeMs → Database → Result (α × Database)) : Io α := do
  let a ← .ask
  match a.error with
  | some _ => fail (if a.no then .dispatch else .other "state store command failed")
  | none =>
    let w ← .get
    match command a.now w.db with
    | .error message => fail (.other message)
    | .ok (x, db) =>
      .modify fun w => { w with db }
      pure x

/-! ### The staged file -/

/-- An open descriptor. Written bytes are queued first and reach the file in order. -/
structure StageFile where
  identity : StoredFileIdentity
  pos : Nat
  queued : List UInt8
  deriving DecidableEq

structure FileStat where
  fileType : FileType
  links : Nat
  length : Nat
  identity : StoredFileIdentity
  deriving DecidableEq

namespace StageFile

/-- The descriptor after `n` queued bytes have reached the file. -/
def advance (n : Nat) (file : StageFile) : StageFile :=
  { file with pos := file.pos + (file.queued.take n).length, queued := file.queued.drop n }

/-- The first `n` queued bytes reach the file. -/
def land (n : Nat) (file : StageFile) (w : World) : World :=
  w.mapData file.identity (.writeAt 0 file.pos (file.queued.take n))

/-- The descriptor with more bytes queued. -/
def enqueue (data : List UInt8) (file : StageFile) : StageFile :=
  { file with queued := file.queued ++ data }

/-- The descriptor after a write has failed: what did not reach the file is lost. -/
def abandon (n : Nat) (file : StageFile) : StageFile := { file.advance n with queued := [] }

/-- `write_all`: it returns once the bytes are queued, and reports an earlier write that failed. -/
def writeAll (file : StageFile) (data : List UInt8) : Io (StageFile × Option ErrorKind) := do
  let a ← .ask
  .modify ((file.enqueue data).land a.amount)
  match a.error with
  | some kind => pure ((file.enqueue data).abandon a.amount, some kind)
  | none => pure ((file.enqueue data).advance a.amount, none)

def flush (file : StageFile) : Io StageFile := do
  let a ← .ask
  match a.error with
  | some kind =>
    .modify (file.land a.amount)
    fail (.io kind)
  | none =>
    .modify (file.land file.queued.length)
    pure (file.advance file.queued.length)

/-- `set_len` waits for the queue, whose last write may have failed. -/
def setLen (file : StageFile) (length : Nat) : Io StageFile := do
  let a ← .ask
  .modify (file.land a.amount)
  match a.error with
  | some kind => fail (.io kind)
  | none =>
    .modify (World.mapData file.identity (.resize 0 length))
    pure { file with queued := [] }

/-- `metadata` does not wait for the queue, part of which may have reached the file meanwhile. -/
def metadata (file : StageFile) : Io (StageFile × FileStat) := do
  let a ← fsStep
  .modify (file.land a.amount)
  let w ← .get
  match w.inodes file.identity with
  | some n => pure (file.advance a.amount,
      ⟨.regularFile, w.links file.identity, n.length, file.identity⟩)
  | none => fail (.io .other)

def seek (file : StageFile) (pos : Nat) : Io StageFile := do
  let _ ← fsStep
  pure { file with pos }

/-- Closing a descriptor leaves it open how much of the queue reaches the file. -/
def drop (file : StageFile) : Io Unit := do
  let a ← .ask
  .modify (file.land a.amount)

end StageFile

/-- `sync_file_to_storage`. -/
def syncFileToStorage (file : StageFile) : Io Unit := do
  let _ ← fsStep
  .modify (World.mapData file.identity .sync)

/-- `open_read` or `open_write` of the stage path. -/
def openStage : Io StageFile := do
  let _ ← fsStep
  let w ← .get
  match w.stage with
  | some id => pure ⟨id, 0, []⟩
  | none => fail (.io .notFound)

/-- `metadata_nofollow` of the stage path. -/
def stageMetadataNofollow : Io FileStat := do
  let _ ← fsStep
  let w ← .get
  match w.stage.bind fun id => (w.inodes id).map fun n => (id, n) with
  | some (id, n) => pure ⟨.regularFile, w.links id, n.length, id⟩
  | none => fail (.io .notFound)

def createPrivateUploadStage (site : Site) : Io StageFile := do
  let a ← fsStep
  let w ← .get
  if w.stage.isSome then fail (.io .alreadyExists)
  else if (w.inodes a.identity).isSome then fail (.io .storageFull)
  else do
    .modify fun w => { w with
      stage := some a.identity
      inodes := Function.update w.inodes a.identity (some (Inode.create site.stageAttributes)) }
    pure ⟨a.identity, 0, []⟩

inductive StageCleanupOutcome where
  | removedOrAbsent
  | replacementPreserved
  deriving DecidableEq

/-- The purge of the captured entry may fail before or after the entry is gone. -/
def removeFileIfIdentity (expected : StoredFileIdentity) : Io StageCleanupOutcome := do
  let _ ← fsStep
  let w ← .get
  match w.stage with
  | none => pure .removedOrAbsent
  | some actual =>
    if actual ≠ expected then pure .replacementPreserved
    else do
      let a ← .ask
      .when (a.error.isNone ∨ a.no) (.modify fun w => { w with stage := none })
      match a.error with
      | some kind => fail (.io kind)
      | none => pure .removedOrAbsent

/-! ### Disk space -/

/-- The bytes a reservation still holds. -/
abbrev SpaceLease := Nat

def uploadReservationMetadataBytes : Nat := 1024 * 1024 + 64 * 1024

def diskSpaceRecheckBytes : Nat := 8 * 1024 * 1024

def resumableUploadMinSize : Nat := 20 * 1024 * 1024

def u64Max : Nat := 2 ^ 64 - 1

def roundUp (value unit : Nat) : Nat := if value = 0 then 0 else (value + (unit - 1)) / unit * unit

/-- `allocation_budget`, whose checked additions fail beyond 64 bits. -/
def allocationBudget (logicalBytes allocationUnit metadataBytes : Nat) : Option Nat :=
  if logicalBytes + (allocationUnit - 1) ≤ u64Max ∧ metadataBytes + (allocationUnit - 1) ≤ u64Max ∧
      roundUp logicalBytes allocationUnit + roundUp metadataBytes allocationUnit ≤ u64Max then
    some (roundUp logicalBytes allocationUnit + roundUp metadataBytes allocationUnit)
  else none

def reserveAllocated (site : Site) (remaining : Nat) : Io (Option SpaceLease) := do
  let a ← fsStep
  match allocationBudget remaining (max site.allocationUnit 1) uploadReservationMetadataBytes with
  | none => fail (.io .invalidInput)
  | some bytes => pure (if a.no then none else some bytes)

def reservedSpaceIsAvailable : Io Bool := do
  let a ← fsStep
  pure (!a.no)

end DufsRam
