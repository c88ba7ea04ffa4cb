import DufsRam.Upload.World

/-!
# The target of an upload

Inspecting the target, capturing the metadata of the file that is to be replaced, replaying it on
the stage, and the checked rename that publishes the stage (`upload/target.rs`, `storage.rs` and
the functions of `rooted_fs.rs` they call).
-/

namespace DufsRam

open Crash World TargetObject

/-! ### Inspection -/

variable (site : Site)

def targetRevision (identity : ReplacementTargetIdentity) : Option Revision :=
  identity.map site.revisionDigest

def inspectTargetIdentity (identity : ReplacementTargetIdentity) :
    UploadTargetInspection where
  exists_ := identity.isSome
  replaceable := isReplaceable identity
  revision := targetRevision site identity

def replacementIdentity : Io ReplacementTargetIdentity := do
  let _ ← targetStep
  let w ← .get
  pure (w.target.map stat)

/-- `render_upload_target_conflict`. -/
def renderUploadTargetConflict (context : UploadErrorContext) : Io UploadResponse := do
  let identity ← replacementIdentity
  let inspection := inspectTargetIdentity site identity
  pure <| applyUploadProblem context .conflict
    (if inspection.exists_ then .destinationExists else .uploadTargetChanged)
    (if inspection.exists_ then
      "The upload destination exists and requires explicit overwrite confirmation"
    else "The upload destination changed after confirmation; refresh it before retrying")
    .refreshTarget (applyTargetInspectionHeaders inspection .empty)

/-! ### Capturing metadata -/

structure ReplacementTarget where
  identity : ReplacementTargetIdentity
  metadata : Option PreservedFileMetadata
  deriving DecidableEq

def isPrivilegedXattr (name : String) : Bool :=
  name.startsWith "security." || name.startsWith "trusted."

def isPosixAccessAcl (name : String) : Bool := decide (name = "system.posix_acl_access")

/-- The metadata of a regular target through a descriptor that must still be the inspected one. -/
def captureMetadata (inspected : ExistingReplacementTarget) : Io ReplacementTarget := do
  let a ← .ask
  .modify (meddle a)
  .when (a.error.isSome) (fail (.io .invalidData))
  let opened ← .get
  .when (opened.target.map stat ≠ some inspected) (fail (.io .invalidData))
  .when (inspected.links ≠ 1) (fail (.io .unsupported))
  let _ ← targetStep
  let captured ← .get
  match captured.target with
  | none => fail (.io .invalidData)
  | some target =>
    .when (target.xattrs.any fun x => isPrivilegedXattr x.1) (fail (.io .unsupported))
    .when (target.stat ≠ inspected) (fail (.io .invalidData))
    pure ⟨some inspected,
      some ⟨target.stat.uid, target.stat.gid, target.stat.mode, target.xattrs⟩⟩

def replacementMetadata : Io ReplacementTarget := do
  let identity ← replacementIdentity
  match identity with
  | none => pure ⟨none, none⟩
  | some inspected => match inspected.fileType with
    | .symlink => pure ⟨some inspected, none⟩
    | .regularFile =>
      .when (inspected.mode &&& setIdBits ≠ 0) (fail (.io .unsupported))
      captureMetadata inspected
    | .directory | .other => fail (.io .unsupported)

/-! ### Replaying metadata -/

inductive MetadataChange where
  | chown (uid gid : UInt32)
  | removeXattr (name : String)
  | setXattr (name : String) (value : List UInt8)
  | chmod (mode : UInt32)
  deriving DecidableEq

def MetadataChange.apply (m : PreservedFileMetadata) : MetadataChange → PreservedFileMetadata
  | .chown uid gid => { m with uid, gid }
  | .removeXattr name => { m with xattrs := m.xattrs.filter fun x => x.1 ≠ name }
  | .setXattr name value =>
    { m with xattrs := (m.xattrs.filter fun x => x.1 ≠ name) ++ [(name, value)] }
  | .chmod mode => { m with mode }

/-- The changes of `apply_file_metadata`, in its order: attributes the target does not have go
first, an access list that could forbid later changes comes after the other attributes, and the
mode comes last. -/
def metadataChanges (current metadata : PreservedFileMetadata) : List MetadataChange :=
  (if current.uid ≠ metadata.uid ∨ current.gid ≠ metadata.gid then
    [.chown metadata.uid metadata.gid] else []) ++
  ((current.xattrs.filter fun x => !(metadata.xattrs.any fun y => y.1 = x.1)).map fun x =>
    .removeXattr x.1) ++
  ((metadata.xattrs.filter fun x => !isPosixAccessAcl x.1).map fun x => .setXattr x.1 x.2) ++
  ((metadata.xattrs.find? fun x => isPosixAccessAcl x.1).toList.map fun x =>
    .setXattr x.1 x.2) ++
  [.chmod (metadata.mode &&& permissionBits)]

/-- Each change is a call of its own. -/
def applyMetadataChanges (id : StoredFileIdentity) : List MetadataChange → Io Unit
  | [] => pure ()
  | change :: rest => do
    let _ ← fsStep
    .modify (mapInode id fun n => n.setAttributes (change.apply n.attributes))
    applyMetadataChanges id rest

def applyReplacementMetadata (file : StageFile) (metadata : PreservedFileMetadata) : Io Unit := do
  let _ ← fsStep
  let w ← .get
  match w.inodes file.identity with
  | none => fail (.io .other)
  | some n => applyMetadataChanges file.identity (metadataChanges n.attributes metadata)

/-! ### Publication -/

inductive ReplaceAndSyncOutcome where
  | published
  | rejected
  | notPublished
  | publishedDurabilityUnknown
  deriving DecidableEq

/-- The object a renamed stage becomes. -/
def Inode.toTarget (id : StoredFileIdentity) (times : FileTimes) (n : Inode) : TargetObject where
  stat := ⟨id, .regularFile, 1, n.length, n.attributes.uid, n.attributes.gid, n.attributes.mode,
    times⟩
  xattrs := n.attributes.xattrs

/-- The stage becomes the target. -/
def World.publish (id : StoredFileIdentity) (n : Inode) (times : FileTimes) (w : World) : World :=
  { w with
    stage := none
    target := some (n.toTarget id times)
    published := w.published ++ [⟨id, n, w.row site⟩] }

/-- After the rename the identity of a destination that was created is verified, and both parents
are synced. -/
def confirmRename (created : Bool) : Io ReplaceAndSyncOutcome := do
  let verified ← (if created then fsStep.attempt else pure (.ok {}) : Io (Except Exit Answer))
  let synced ← fsStep.attempt
  match verified, synced with
  | .ok _, .ok _ => pure .published
  | .error _, _ | .ok _, .error _ => pure .publishedDurabilityUnknown

/-- The rename itself, after the checks. A destination that must be missing is never replaced. -/
def renameStage (id : StoredFileIdentity)
    (expectedDestination : ReplacementTargetIdentity) : Io ReplaceAndSyncOutcome := do
  let a ← .ask
  .modify (meddle a)
  let w ← .get
  match w.inodes id with
  | none => pure .notPublished
  | some n =>
    if expectedDestination.isNone ∧ w.target.isSome then pure .rejected
    else if a.error.isSome then pure .notPublished
    else do
      .modify (publish site id n a.times)
      confirmRename expectedDestination.isNone

/-- `rename_replace_if_unchanged`. When the blocking task itself is lost, its effect is unknown. -/
def renameReplaceIfUnchanged (file : StageFile)
    (expectedDestination : ReplacementTargetIdentity) : Io ReplaceAndSyncOutcome := do
  let a ← .ask
  .modify (meddle a)
  let w ← .get
  if a.no then pure .publishedDurabilityUnknown
  else if a.error.isSome then pure .notPublished
  else if w.stage ≠ some file.identity ∨ w.links file.identity ≠ 1 then pure .rejected
  else if w.target.map stat ≠ expectedDestination then pure .rejected
  else renameStage site file.identity expectedDestination

/-- `commit_staged_file`. -/
def commitStagedFile (file : StageFile)
    (expectedDestination : ReplacementTargetIdentity) : Io ReplaceAndSyncOutcome := do
  let synced ← (syncFileToStorage file).attempt
  match synced with
  | .error _ => pure .notPublished
  | .ok () => renameReplaceIfUnchanged site file expectedDestination

end DufsRam
