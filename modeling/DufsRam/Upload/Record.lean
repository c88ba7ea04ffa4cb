import DufsRam.Upload.Target

/-!
# The upload record store

`upload/record.rs`: looking up, reopening, checkpointing and resetting the session of an upload.
The owner, the identifier and the two paths are those of the site. A function that takes a
descriptor and leaves nothing queued in it returns no new descriptor.
-/

namespace DufsRam

open Crash

inductive UploadRecordState where
  | running
  | awaitingConfirmation
  | committed
  | rejected
  | unknown
  deriving DecidableEq

structure UploadCheckpoint where
  uploadLength : Nat
  durableOffset : Nat
  state : UploadRecordState
  targetRevision : Option Revision
  deriving DecidableEq

inductive UploadRecordLookup where
  | found (checkpoint : UploadCheckpoint)
  | notSeen
  | foreignOwner
  deriving DecidableEq

/-- The part of `UploadRecordContext` that differs between the calls of one session. -/
structure UploadRecordContext where
  uploadLength : Nat
  targetRevision : Option Revision := none
  targetRevisionBound : Bool := false
  deriving DecidableEq

def UploadRecordContext.withTargetRevision (revision : Option Revision)
    (record : UploadRecordContext) : UploadRecordContext :=
  { record with targetRevision := revision, targetRevisionBound := true }

/-- A started commit is reported as unknown, because its rename may have happened. -/
def StoredUploadState.toRecordState : StoredUploadState → UploadRecordState
  | .committed => .committed
  | .rejected => .rejected
  | .running => .running
  | .awaitingConfirmation => .awaitingConfirmation
  | .commitStarted | .unknown => .unknown

def uploadCheckpoint (session : StoredUploadSession) : UploadCheckpoint :=
  ⟨session.uploadLength, session.durableOffset, session.state.toRecordState, session.targetRevision⟩

/-- The errors for which a path counts as absent. -/
def Exit.isUnresolvedPath : Exit → Bool
  | .error (.io .notFound) | .error (.io .notADirectory) | .error (.io .permissionDenied) => true
  | _ => false

variable (site : Site)

/-! ### The database -/

def loadSession : Io (Option StoredUploadSession) :=
  storeStep fun _ db => do
    let session ← loadUploadSession site.key db
    return (session, db)

variable (session : StoredUploadSession) (file : StageFile) (record : UploadRecordContext)
  (durableOffset : Nat)

/-- The store client validates a session before it sends it. -/
def saveSession : Io Unit :=
  match session.validate with
  | .error message => fail (.other message)
  | .ok () => do
    let saved ← storeStep fun now db =>
      saveUploadSession site.limits now site.limits.uploadTtlMs session db
    match saved with
    | .inserted | .updated | .unchanged => pure ()
    | .conflict => fail (.record .conflict)
    | .full => fail (.record .full)

/-- The session that `persist_state` proposes: an identity that is not given, and a revision that
is not bound, are those of the existing session. -/
def proposedSession (state : StoredUploadState) (stageIdentity : Option StoredFileIdentity)
    (existing : Option StoredUploadSession) : StoredUploadSession where
  key := site.key
  targetPath := site.targetPath
  stagePath := site.stagePath
  uploadLength := record.uploadLength
  durableOffset := durableOffset
  state := state
  stageIdentity := stageIdentity <|> existing.bind StoredUploadSession.stageIdentity
  targetRevision :=
    if record.targetRevisionBound then record.targetRevision
    else existing.bind StoredUploadSession.targetRevision

def persistState (state : StoredUploadState)
    (stageIdentity : Option StoredFileIdentity) : Io Unit := do
  let existing ← (if stageIdentity.isNone ∨ record.targetRevisionBound = false then loadSession site
    else pure none : Io (Option StoredUploadSession))
  saveSession site (proposedSession site record durableOffset state stageIdentity existing)

/-! ### Looking up and reopening -/

def validResumableStage (expected : Option StoredFileIdentity) : Io Bool :=
  match expected with
  | none => pure false
  | some identity => do
    let opened ← openStage.attempt
    match opened with
    | .error e => if e.isUnresolvedPath then pure false else .throw e
    | .ok file =>
      let found ← file.metadata
      pure <| decide (found.2.fileType = .regularFile ∧ found.2.links = 1 ∧
        durableOffset ≤ found.2.length ∧ found.2.identity = identity)

def classifyStoredSession : Io UploadRecordLookup :=
  if session.targetPath ≠ site.targetPath ∨ session.stagePath ≠ site.stagePath then
    pure .foreignOwner
  else if (session.state = .running ∨ session.state = .awaitingConfirmation) ∧
      session.durableOffset < session.uploadLength then do
    let valid ← validResumableStage session.durableOffset session.stageIdentity
    pure (if valid then .found (uploadCheckpoint session) else .notSeen)
  else
    -- a full row may have crossed the rename already, whatever is at the stage path now
    pure (.found (uploadCheckpoint session))

def lookup : Io UploadRecordLookup := do
  let session ← loadSession site
  match session with
  | some session => classifyStoredSession site session
  | none => pure .notSeen

/-- The row is still the one that was looked up, at this offset and in this state. -/
def StoredUploadSession.resumesAt (uploadLength durableOffset : Nat)
    (expected : UploadRecordState) : Bool :=
  decide (session.targetPath = site.targetPath) && decide (session.stagePath = site.stagePath) &&
    decide (session.uploadLength = uploadLength) &&
    decide (session.durableOffset = durableOffset) &&
    match expected with
    | .running => decide (session.state = .running)
    | .awaitingConfirmation => decide (session.state = .awaitingConfirmation)
    | .committed | .rejected | .unknown => false

/-- A resumed stage holds its checkpoint; a retained one holds exactly its contents. -/
def lengthFits (expected : UploadRecordState) (durableOffset length : Nat) : Prop :=
  match expected with
  | .running => durableOffset ≤ length
  | .awaitingConfirmation => length = durableOffset
  | .committed | .rejected | .unknown => False

instance (expected : UploadRecordState) (durableOffset length : Nat) :
    Decidable (lengthFits expected durableOffset length) := by
  unfold lengthFits; cases expected <;> infer_instance

/-- Reopen the inode that the checkpoint names. -/
def openRecordedStage (identity : StoredFileIdentity) (durableOffset : Nat)
    (expected : UploadRecordState) : Io (Option StageFile) := do
  let opened ← openStage.attempt
  match opened with
  | .error e => if e.isUnresolvedPath then pure none else .throw e
  | .ok file =>
    let found ← file.metadata
    pure <|
      if found.2.fileType = .regularFile ∧ found.2.links = 1 ∧
          lengthFits expected durableOffset found.2.length ∧ found.2.identity = identity then
        some found.1
      else none

def openResumableStage (uploadLength durableOffset : Nat) (expected : UploadRecordState) :
    Io (Option StageFile) := do
  let session ← loadSession site
  match session with
  | none => pure none
  | some session =>
    if session.resumesAt site uploadLength durableOffset expected then
      match session.stageIdentity with
      | none => pure none
      | some identity => openRecordedStage identity durableOffset expected
    else pure none

/-! ### Checkpoints and the later states -/

/-- Flush and sync the descriptor, and make sure that it is still what the stage path names. -/
def syncAndIdentifyStage : Io StoredFileIdentity := do
  let file ← file.flush
  syncFileToStorage file
  let found ← file.metadata
  check (found.2.fileType = .regularFile) "Upload stage is not a file"
  check (found.2.links = 1) "Upload stage has multiple hard links"
  check (durableOffset ≤ found.2.length) "Upload stage is shorter than its durable checkpoint"
  let named ← stageMetadataNofollow
  check (named.fileType = .regularFile ∧ named.links = 1 ∧ named.identity = found.2.identity)
    "Upload stage descriptor no longer matches its rooted path"
  pure found.2.identity

/-- `sync_parent` of the stage path. -/
def syncParent : Io Unit := do
  let _ ← fsStep
  pure ()

def persistCheckpointInner (initial : Bool) : Io Unit := do
  check (durableOffset ≤ record.uploadLength) "Upload checkpoint exceeds declared length"
  let identity ← syncAndIdentifyStage file durableOffset
  .when (initial = true) syncParent
  persistState site record durableOffset .running (some identity)

def persistCheckpoint :
    Io Unit :=
  persistCheckpointInner site file record durableOffset false

def persistInitialCheckpoint : Io Unit :=
  persistCheckpointInner site file record durableOffset true

/-- `persist_commit_started` and `persist_awaiting_confirmation`, by the state they store. -/
def persistComplete (state : StoredUploadState) (file : StageFile) (record : UploadRecordContext) :
    Io Unit := do
  let identity ← syncAndIdentifyStage file record.uploadLength
  persistState site record record.uploadLength state (some identity)

def persistCommitStarted : Io Unit :=
  persistComplete site .commitStarted file record

def persistAwaitingConfirmation : Io Unit :=
  persistComplete site .awaitingConfirmation file record

def persistTerminal (state : UploadRecordState) : Io Unit :=
  match state with
  | .committed => persistState site record durableOffset .committed none
  | .rejected => persistState site record durableOffset .rejected none
  | .running => fail (.other "A terminal upload record cannot be running")
  | .awaitingConfirmation =>
    fail (.other "A terminal upload record cannot await confirmation")
  | .unknown => fail (.other "A terminal upload record cannot be unknown")

def persistUnknown : Io Unit := do
  check (durableOffset = record.uploadLength)
    "An unknown upload publication must be fully durable"
  persistState site record durableOffset .unknown none

/-! ### Cleaning up -/

def removeStageDirectoryIfEmpty : Io Unit := do
  let _ ← fsStep
  pure ()

/-- `rollback_created_ancestors`. -/
def rollbackCreatedAncestors : Io Unit := do
  let _ ← fsStep
  pure ()

/-- A file that took the place of the stage is preserved, and the cleanup fails. -/
def removeStage (expected : StoredFileIdentity) : Io Unit := do
  let outcome ← removeFileIfIdentity expected
  match outcome with
  | .removedOrAbsent => pure ()
  | .replacementPreserved => fail (.record .conflict)

/-- Delete the row if it is still the loaded one. -/
def removeSession : Io Unit := do
  let removed ← storeStep fun _ db => removeUploadSessionIfMatches session db
  .when (removed = false) (fail (.record .conflict))

/-- Remove the file first and the row last. -/
def reset : Io Unit := do
  let session ← loadSession site
  match session with
  | none => pure ()
  | some session =>
    if session.targetPath ≠ site.targetPath ∨ session.stagePath ≠ site.stagePath then
      fail (.record .conflict)
    else do
      (match session.stageIdentity with
        | some identity => removeStage identity
        | none => pure ())
      removeSession session
      removeStageDirectoryIfEmpty

/-- Remove a stage that has no row yet; the descriptor tells which file it is. -/
def discardUnrecordedStage : Io Unit := do
  let found ← file.metadata
  check (found.2.fileType = .regularFile ∧ found.2.links = 1)
    "Unrecorded upload stage is not a private regular file"
  removeStage found.2.identity
  removeStageDirectoryIfEmpty

/-- `created` tells whether the request created ancestors, as every fresh upload does. -/
def resetAndAncestors (created : Bool) : Io Unit := do
  reset site
  .when (created = true) rollbackCreatedAncestors

end DufsRam
