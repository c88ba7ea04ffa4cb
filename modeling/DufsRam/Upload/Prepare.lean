import DufsRam.Upload.Transfer

/-!
# Preparing an upload

`upload/prepare.rs`: the checks that precede the first byte, in their order. Each of them either
answers the request or lets it go on; what is left is a descriptor on the stage, whose row is
stored, and a reservation of disk space.
-/

namespace DufsRam

open Crash UploadCheckpoint

/-- What a prepared upload carries on. -/
structure UploadTransaction where
  file : StageFile
  spaceLease : SpaceLease
  target : ReplacementTarget
  checkpointState : Option UploadRecordState
  successStatus : StatusCode
  deriving DecidableEq

/-- The request confirms a retained stage. -/
def UploadTransaction.awaitingConfirmation (t : UploadTransaction) : Bool :=
  decide (t.checkpointState = some .awaitingConfirmation)

variable (site : Site) (r : UploadRequest)

/-! ### The record of the session -/

def sessionNotFound : UploadResponse :=
  applyUploadProblem ⟨.notSeen, none, none⟩ .notFound .uploadSessionNotFound "Not Found"
    .retryWithNewId .empty

def lookupRecord : Io (Option UploadCheckpoint) := do
  let found ← lookup site
  match found with
  | .found record => pure (some record)
  | .notSeen => pure none
  | .foreignOwner => reply sessionNotFound

variable (record : UploadCheckpoint) (existing : Option UploadCheckpoint) (file : StageFile)

/-- A problem that reports the record as it stands. -/
def UploadCheckpoint.problem (state : UploadPublicState)
    (status : StatusCode) (code : ErrorCode) (detail : String) (recovery : RecoveryAdvice) :
    UploadResponse :=
  applyUploadProblem ⟨state, some record.uploadLength, some record.durableOffset⟩ status code detail
    recovery .empty

def UploadCheckpoint.lengthChanged (state : UploadPublicState) :
    UploadResponse :=
  record.problem state .conflict .uploadLengthChanged
    ("Upload length changed: expected " ++ toString record.uploadLength ++ ", received " ++
      toString r.uploadLength) .queryUpload

def UploadCheckpoint.offsetChanged (state : UploadPublicState) :
    UploadResponse :=
  record.problem state .conflict .uploadOffsetChanged "Upload offset changed; query it again"
    .queryUpload

/-- The answer to a request whose session is already committed. -/
def UploadCheckpoint.committedReply : UploadResponse :=
  if record.uploadLength = r.uploadLength then
    applyUploadRecordHeaders (some record.uploadLength) (some record.durableOffset) .committed
      .empty
  else
    record.problem .committed .conflict .uploadCommittedLengthMismatch
      ("Upload ID is already committed with length " ++ toString record.uploadLength) .queryUpload

/-- The states of a record that end the request. -/
def answerExisting : Io Unit :=
  match record.state with
  | .committed => reply (record.committedReply r)
  | .rejected => reply <| record.problem .rejected .conflict .uploadIdRejected
      "Upload ID was rejected; start with a new upload ID" .retryWithNewId
  | .running =>
    .when (r.mode.isResume = false) <| reply <| record.problem .running .conflict .uploadInProgress
      "Upload ID is already running or awaiting terminal confirmation; query its status"
      .queryUpload
  | .awaitingConfirmation =>
    if r.mode.isResume = false then do
      let res ← renderUploadTargetConflict site
        ⟨.awaitingConfirmation, some record.uploadLength, some record.durableOffset⟩
      reply res
    else if record.uploadLength ≠ r.uploadLength then
      reply (record.lengthChanged r .awaitingConfirmation)
    else if r.mode.offset ≠ some record.durableOffset then
      reply (record.offsetChanged .awaitingConfirmation)
    else pure ()
  | .unknown => reply <| record.problem .unknown .internalServerError
      .uploadPublicationOutcomeUnknown
      "Upload publication outcome is unknown; query or refresh before retrying" .queryUpload

/-- Nothing is recorded yet and the upload is too long. -/
def checkUploadSize : Io Unit :=
  .when (site.maxUploadSize < r.uploadLength) <| reply <|
    applyUploadProblem ⟨.rejected, some r.uploadLength, none⟩ .payloadTooLarge
      .uploadSizeLimitExceeded
      ("Upload length " ++ toString r.uploadLength ++ " exceeds the configured maximum of " ++
        toString site.maxUploadSize ++ " bytes") .none .empty

def checkExisting : Io Unit :=
  match existing with
  | some record => answerExisting site r record
  | none => checkUploadSize site r

/-- `track_active_upload_files`: wait until no maintenance claims the stage. -/
def trackActiveUploadFiles : Io Unit := do
  let _ ← fsStep
  pure ()

/-- The answer after `TimedOut`, which is only rendered if the deadline has really passed. -/
def timedOutReply (res : UploadResponse) : Io Unit := do
  let late ← deadlinePassed
  reply (if late then res else .empty)

/-- A resumed upload must find the directory of its stage. -/
def trackResumed : Io Unit := do
  let tracked ← trackActiveUploadFiles.attempt
  match tracked with
  | .ok () => deadlineBeforeMutation r "Upload deadline exceeded during preparation"
  | .error (.error (.io .notFound)) | .error (.error (.io .notADirectory)) =>
    reply sessionNotFound
  | .error (.error (.io .timedOut)) =>
    timedOutReply <| r.notStarted .requestTimeout .requestTimeout
      "Upload deadline exceeded during preparation" .retry
  | .error e => .throw e

/-! ### The target and the overwrite policy -/

/-- The state and offset that a conflict over the target reports. -/
def conflictContext : UploadErrorContext where
  state := match existing.map state with
    | some .awaitingConfirmation => .awaitingConfirmation
    | some .running => .running
    | _ => .notStarted
  uploadLength := some r.uploadLength
  uploadOffset := existing.map durableOffset

def targetConflict {α : Type} : Io α := do
  let res ← renderUploadTargetConflict site (conflictContext r existing)
  reply res

/-- A create-only upload. A resumed one may go on staging over a target that has appeared, and a
retained stage that was bound to another file is refused. -/
def createOnlyTarget (inspection : UploadTargetInspection) :
    Io ReplacementTarget :=
  if inspection.exists_ ∧
      ¬ (r.mode.isResume = true ∧ existing.map state = some .running) then
    reply <| applyUploadProblem (conflictContext r existing) .conflict .destinationExists
      "The upload destination exists and requires explicit overwrite confirmation" .refreshTarget
      (applyTargetInspectionHeaders inspection .empty)
  else if existing.any fun record => decide (record.state = .awaitingConfirmation) &&
      record.targetRevision.isSome then
    reply <| applyUploadProblem
      ⟨.awaitingConfirmation, some r.uploadLength, existing.map durableOffset⟩
      .conflict .uploadMetadataPreservationRefused
      ("The retained stage contains metadata from a replaced target; " ++
        "discard it and start a new create-only upload") .refreshTarget .empty
  else pure ⟨none, none⟩

/-- The errors of the metadata capture that count as a conflict. -/
def Exit.isPolicyRefusal : Exit → Bool
  | .error (.io .unsupported) | .error (.io .permissionDenied) | .error (.io .invalidData) => true
  | _ => false

/-- An overwrite of the revision the client has seen. -/
def overwriteTarget (inspection : UploadTargetInspection)
    (expected : Revision) : Io ReplacementTarget :=
  if inspection.revision ≠ some expected ∨ inspection.replaceable = false then
    targetConflict site r existing
  else do
    let captured ← replacementMetadata.attempt
    match captured with
    | .error e => if e.isPolicyRefusal then targetConflict site r existing else .throw e
    | .ok target =>
      if targetRevision site target.identity ≠ some expected then targetConflict site r existing
      else pure target

def chooseTarget : Io ReplacementTarget := do
  let identity ← replacementIdentity
  match r.overwrite with
  | .noReplace => createOnlyTarget r existing (inspectTargetIdentity site identity)
  | .ifUnchanged expected =>
    overwriteTarget site r existing (inspectTargetIdentity site identity) expected

/-! ### The checkpoint -/

/-- Only a resumed upload has a checkpoint, and it must have one. -/
def sessionCheckpoint : Io (Option UploadCheckpoint) :=
  if r.mode.isResume then
    match existing with
    | some checkpoint => pure (some checkpoint)
    | none => reply sessionNotFound
  else pure none

def UploadRecordState.publicState (state : UploadRecordState) : UploadPublicState :=
  if state = .awaitingConfirmation then .awaitingConfirmation else .running

def checkCheckpoint (checkpoint : Option UploadCheckpoint) : Io Unit :=
  match checkpoint with
  | none => pure ()
  | some checkpoint =>
    if checkpoint.uploadLength ≠ r.uploadLength then
      reply (checkpoint.lengthChanged r checkpoint.state.publicState)
    else if checkpoint.durableOffset ≠ r.initialOffset then
      reply (checkpoint.offsetChanged checkpoint.state.publicState)
    else pure ()

/-- The declared body must fit into what remains of the upload. -/
def checkContentLength (checkpoint : Option UploadCheckpoint) : Io Unit := do
  check (r.initialOffset ≤ r.uploadLength)
    ("Upload offset " ++ toString r.initialOffset ++ " exceeds total length " ++
      toString r.uploadLength)
  .when (r.contentLength.any fun length =>
      decide (r.uploadLength - r.initialOffset < length)) <| reply <|
    applyUploadProblem ⟨(match checkpoint.map state with
        | some state => state.publicState
        | none => .rejected),
        some r.uploadLength, r.mode.offset⟩
      .payloadTooLarge .uploadBodyExceedsRemainingLength
      "Request body exceeds declared remaining upload length"
      (match checkpoint.map state with
        | some .awaitingConfirmation => .queryUpload
        | some _ => .resumeUpload
        | none => .retryWithNewId) .empty

/-! ### The stage -/

/-- Cross the mutation boundary, which a timeout of the request may have closed first. -/
def beginUploadMutationOrReject (message : String) : Io Unit := do
  let a ← .ask
  .when (a.no = true) (.modify fun w =>
    { w with mutation := w.mutation.cancelUploadBeforeMutation.2 })
  let w ← .get
  .modify fun w => { w with mutation := w.mutation.beginUploadMutation.2 }
  .when (w.mutation.beginUploadMutation.1 = false)
    (reply (r.notStarted .requestTimeout .requestTimeout message .retry))

def insufficientStorage (context : UploadErrorContext) (recovery : RecoveryAdvice) :
    UploadResponse :=
  applyUploadProblem context .insufficientStorage .uploadInsufficientStorage
    "Insufficient protected free disk space" recovery .empty

/-- A fresh upload reserves its space before it creates anything. -/
def reserveFresh : Io SpaceLease := do
  let _ ← fsStep
  let lease ← reserveAllocated site (r.uploadLength - r.initialOffset)
  match lease with
  | none => reply (insufficientStorage ⟨.rejected, some r.uploadLength, none⟩ .retryWithNewId)
  | some lease => pure lease

def createStage : Io StageFile := do
  let created ← (createPrivateUploadStage site).attempt
  match created with
  | .ok file => pure file
  | .error (.error (.io .alreadyExists)) =>
    reply <| applyUploadProblem ⟨.notSeen, some r.uploadLength, none⟩ .conflict
      .uploadStageConflict "Upload staging path is already occupied; retry with a new upload ID"
      .retryWithNewId .empty
  | .error e => .throw e

/-- Undo the creation of a stage that has no row yet. -/
def discardCreatedStage : Io Unit := do
  let discarded ← (discardUnrecordedStage file).attempt
  rollbackCreatedAncestors
  rethrow discarded

/-- Keep the maintenance away from the new stage. -/
def trackCreated : Io Unit := do
  let tracked ← trackActiveUploadFiles.attempt
  match tracked with
  | .error e =>
    discardCreatedStage file
    match e with
    | .error (.io .timedOut) =>
      timedOutReply (applyUploadUnknown "Upload deadline exceeded during preparation" .empty)
    | e => .throw e
  | .ok () =>
    let late ← deadlinePassed
    .when (late = true) (do
      discardCreatedStage file
      reply (applyUploadUnknown "Upload deadline exceeded during preparation" .empty))

/-- Store the first checkpoint of a fresh stage, or remove every trace of it. -/
def recordFreshStage : Io Unit := do
  let late ← deadlinePassed
  .when (late = true) (do
    let res ← finishTimedOutUpload site r file
      "Upload deadline exceeded while preparing the staging file"
    reply res)
  let saved ← (persistInitialCheckpoint site file
    (UploadRecordContext.withTargetRevision r.requestedRevision ⟨r.uploadLength, none, false⟩)
    0).attempt
  match saved with
  | .ok () => pure ()
  | .error e =>
    let discarded ← (discardUnrecordedStage file).attempt
    let cleared ← (reset site).attempt
    let rolledBack ← rollbackCreatedAncestors.attempt
    rethrow discarded
    rethrow cleared
    rethrow rolledBack
    .throw e

/-- Create and record the stage of a fresh upload. -/
def stageFresh : Io (StageFile × SpaceLease) := do
  let lease ← reserveFresh site r
  deadlineBeforeMutation r "Upload deadline exceeded while reserving disk space"
  beginUploadMutationOrReject r "Upload timed out before creating its staging namespace"
  let file ← createStage site r
  trackCreated file
  recordFreshStage site r file
  pure (file, lease)

/-- Reopen the stage of a resumed upload, cut it back to its checkpoint and bind it to the
revision of this request. -/
def stageResumed (checkpoint : UploadCheckpoint) : Io StageFile := do
  let opened ← openResumableStage site r.uploadLength r.initialOffset checkpoint.state
  match opened with
  | none =>
    reply <| applyUploadProblem
      ⟨checkpoint.state.publicState, some r.uploadLength, some r.initialOffset⟩ .conflict
      .uploadStageInvalid "Upload staging file is invalid; restart the upload" .queryUpload .empty
  | some file =>
    let found ← file.metadata
    let file ← found.1.seek r.initialOffset
    deadlineBeforeMutation r "Upload deadline exceeded before resuming the staging file"
    .when (r.initialOffset < found.2.length) (do
      beginUploadMutationOrReject r "Upload timed out before truncating its staging file"
      let _ ← file.setLen r.initialOffset
      pure ())
    .when (checkpoint.state = .running ∧ checkpoint.targetRevision ≠ r.requestedRevision) (do
      beginUploadMutationOrReject r "Upload timed out before updating its resumable state"
      persistCheckpoint site file
        (UploadRecordContext.withTargetRevision r.requestedRevision ⟨r.uploadLength, none, false⟩)
        r.initialOffset)
    pure file

/-- Stop at the deadline: without a trace as long as nothing was changed. -/
def stopWhenLate (message : String) : Io Unit := do
  let late ← deadlinePassed
  let w ← .get
  .when (late = true ∧ r.mode.isResume = true ∧ w.mutation.outcomeCanBeUnknown = false)
    (reply (r.notStarted .requestTimeout .requestTimeout message .retry))
  let late ← deadlinePassed
  .when (late = true) (do
    let res ← finishTimedOutUpload site r file message
    reply res)

/-- The space for the rest of the body, unless it was reserved before the stage was created. -/
def reserveTransfer (awaiting : Bool) (reserved : Option SpaceLease) : Io SpaceLease := do
  let lease ← (match reserved with
    | some lease => pure (some lease)
    | none => reserveAllocated site (r.uploadLength - r.initialOffset) : Io (Option SpaceLease))
  match lease with
  | some lease => pure lease
  | none =>
    if awaiting then
      reply (applyAwaitingConfirmationProblem r.uploadLength .insufficientStorage
        .uploadInsufficientStorage "Insufficient protected free disk space")
    else do
      .when (r.mode.isResume = false) (resetAndAncestors site true)
      reply (stoppedUpload r r.mode.offset .insufficientStorage .uploadInsufficientStorage
        "Insufficient protected free disk space")

/-- The answer to an upload whose space is gone after its stage was prepared. -/
def refuseUnconfirmed (awaiting : Bool) (file : StageFile) : Io Unit := do
  if awaiting then
    reply (applyAwaitingConfirmationProblem r.uploadLength .insufficientStorage
      .uploadInsufficientStorage
      "Protected free disk space could not be confirmed after staging preparation")
  else do
    beginUploadMutationOrReject r "Upload timed out before finalizing a disk-space failure"
    let res ← finishPrecommitSpaceFailure site r file
      "Protected free disk space could not be confirmed after staging preparation"
    reply res

/-- The reservation must still be covered after the stage was prepared. -/
def confirmSpace (awaiting : Bool) (file : StageFile) : Io Unit := do
  let available ← reservedSpaceIsAvailable.attempt
  match available with
  | .ok true => pure ()
  | .ok false | .error _ => refuseUnconfirmed site r awaiting file

/-- The first part of `admitTransfer`, as far as its second stop. -/
def confirmTransfer (checkpointState : Option UploadRecordState) (file : StageFile)
    (reserved : Option SpaceLease) : Io SpaceLease := do
  stopWhenLate site r file "Upload deadline exceeded while preparing the staging file"
  let awaiting := decide (checkpointState = some .awaitingConfirmation)
  let lease ← reserveTransfer site r awaiting reserved
  confirmSpace site r awaiting file
  pure lease

def admitTransfer (checkpointState : Option UploadRecordState) (file : StageFile)
    (reserved : Option SpaceLease) : Io SpaceLease := do
  let lease ← confirmTransfer site r checkpointState file reserved
  stopWhenLate site r file "Upload deadline exceeded while reserving disk space"
  beginUploadMutationOrReject r "Upload timed out before transferring its request body"
  pure lease

/-- The stage, the success status and a reservation made on the way. -/
def openStageFor (checkpoint : Option UploadCheckpoint) :
    Io (StageFile × Option SpaceLease × StatusCode) :=
  match checkpoint with
  | none => do
    let staged ← stageFresh site r
    pure (staged.1, some staged.2, .created)
  | some checkpoint => do
    let file ← stageResumed site r checkpoint
    pure (file, none, .noContent)

/-- `prepare_upload` as far as the open stage. -/
def prepareStage :
    Io (ReplacementTarget × Option UploadCheckpoint × StageFile × Option SpaceLease × StatusCode) :=
  do
  deadlineBeforeMutation r "Upload deadline exceeded during preparation"
  let existing ← lookupRecord site
  checkExisting site r existing
  .when (r.mode.isResume = true) (trackResumed r)
  let target ← chooseTarget site r existing
  deadlineBeforeMutation r "Upload deadline exceeded while inspecting the target"
  let checkpoint ← sessionCheckpoint r existing
  deadlineBeforeMutation r "Upload deadline exceeded while preparing the checkpoint"
  checkCheckpoint r checkpoint
  checkContentLength r checkpoint
  let opened ← openStageFor site r checkpoint
  pure (target, checkpoint, opened)

def prepareUpload : Io UploadTransaction := do
  let x ← prepareStage site r
  let lease ← admitTransfer site r (x.2.1.map state) x.2.2.1 x.2.2.2.1
  pure ⟨x.2.2.1, lease, x.1, x.2.1.map state, x.2.2.2.2⟩

end DufsRam
