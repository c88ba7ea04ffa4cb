import DufsRam.Upload.Prepare

/-!
# Committing an upload

`upload/commit.rs` and the entry points of `upload.rs` and `server.rs`. A stage that has received
its body is checked, given the metadata of the file it replaces, recorded as started and renamed. A
request that confirms a retained stage answers every failure before the record of the start with
the state the session is in.
-/

namespace DufsRam

open Crash UploadResponse

variable (site : Site) (r : UploadRequest) (t : UploadTransaction)

/-- Answer a confirmation without touching its session. -/
def awaitingReply {α : Type} (status : StatusCode) (code : ErrorCode) (message : String) : Io α :=
  reply (applyAwaitingConfirmationProblem r.uploadLength status code message)

/-- The request record bound to the revision of this request. -/
def boundRecord : UploadRecordContext :=
  UploadRecordContext.withTargetRevision r.requestedRevision ⟨r.uploadLength, none, false⟩

/-! ### Before the start is recorded -/

/-- Wait for the queued writes. -/
def flushTransferred : Io StageFile := do
  let flushed ← t.file.flush.attempt
  match flushed with
  | .ok file => pure file
  | .error _ =>
    if t.awaitingConfirmation then
      awaitingReply r .internalServerError .uploadPrecommitFailed
        "Upload staging flush failed before commit"
    else do
      let res ← finishPrecommitIoFailure site r "Upload staging flush failed before commit"
      reply res

variable (file : StageFile)

def confirmSpaceBeforeCommit : Io Unit := do
  let available ← reservedSpaceIsAvailable.attempt
  match available with
  | .ok true => pure ()
  | .ok false | .error _ =>
    if t.awaitingConfirmation then
      awaitingReply r .insufficientStorage .uploadInsufficientStorage
        "Protected free disk space could not be confirmed before commit"
    else do
      let res ← finishPrecommitSpaceFailure site r file
        "Protected free disk space could not be confirmed before commit"
      reply res

/-- One of the three deadlines before the point of no return. -/
def deadlineBeforeCommit : Io Unit := do
  let late ← deadlinePassed
  .when (late = true) <|
    if t.awaitingConfirmation then
      awaitingReply r .requestTimeout .requestTimeout "Upload timed out before durable commit"
    else do
      let res ← finishTimedOutUpload site r file "Upload timed out before durable commit"
      reply res

def stagedLength : Io (StageFile × Nat) := do
  let found ← file.metadata.attempt
  match found with
  | .ok found => pure (found.1, found.2.length)
  | .error e =>
    if t.awaitingConfirmation then
      awaitingReply r .internalServerError .uploadPrecommitFailed
        "Upload staging metadata failed before commit"
    else .throw e

/-- A body that is too short is a checkpoint, one that is too long is rejected. -/
def checkStagedLength (actualLength : Nat) : Io Unit :=
  .when (actualLength ≠ r.uploadLength) <|
    if t.awaitingConfirmation then
      awaitingReply r .conflict .uploadStageInvalid "Upload staging file changed before commit"
    else do
      (if actualLength < r.uploadLength then
          persistCheckpoint site file (boundRecord r) actualLength
        else resetAndAncestors site (!r.mode.isResume) : Io Unit)
      reply <| stoppedUpload r (if actualLength < r.uploadLength then some actualLength else none)
        .conflict .uploadLengthMismatch
        ("Upload is incomplete: expected " ++ toString r.uploadLength ++ " bytes, stored " ++
          toString actualLength)

/-- Replay the metadata of the target on the stage. -/
def replayMetadata : Io Unit :=
  match t.target.metadata with
  | none => pure ()
  | some metadata => do
    let replayed ← (applyReplacementMetadata file metadata).attempt
    match replayed with
    | .ok () => pure ()
    | .error e =>
      if t.awaitingConfirmation then
        if e.isPolicyRefusal then
          awaitingReply r .conflict .uploadMetadataPreservationRefused
            "Cannot preserve target metadata; overwrite was refused"
        else
          awaitingReply r .internalServerError .uploadPrecommitFailed
            "Target metadata replay failed before commit"
      else do
        resetAndAncestors site (!r.mode.isResume)
        if e.isPolicyRefusal then
          reply <| applyUploadProblem ⟨.rejected, some r.uploadLength, none⟩ .conflict
            .uploadMetadataPreservationRefused
            "Cannot preserve target metadata; overwrite was refused" .refreshTarget .empty
        else .throw e

/-- Give the upload up: it is rejected, or unknown if that cannot be confirmed. -/
def abandonUpload {α : Type} (unconfirmed : String) (status : StatusCode) (code : ErrorCode)
    (detail : String) : Io α := do
  let cleanup ← (resetAndAncestors site (!r.mode.isResume)).attempt
  match cleanup with
  | .error _ => reply (applyUploadUnknown unconfirmed .empty)
  | .ok () =>
    reply <| applyUploadProblem ⟨.rejected, some r.uploadLength, none⟩ status code detail
      .retryWithNewId .empty

def confirmSpaceAfterReplay : Io Unit := do
  let available ← reservedSpaceIsAvailable.attempt
  match available with
  | .ok true => pure ()
  | .ok false | .error _ =>
    if t.awaitingConfirmation then
      awaitingReply r .insufficientStorage .uploadInsufficientStorage
        "Insufficient protected free disk space before publication"
    else
      abandonUpload site r "Upload rollback could not be confirmed after metadata replay"
        .insufficientStorage .uploadInsufficientStorage
        "Insufficient protected free disk space before publication"

/-! ### Recording the start -/

/-- Note why a complete stage is given up. -/
def noteSetback (setback : Setback) : Io Unit :=
  .modify fun w => { w with setbacks := setback :: w.setbacks }

def startCommit : Io Unit := do
  let started ← (persistCommitStarted site file (boundRecord r)).attempt
  match started with
  | .ok () => pure ()
  | .error _ =>
    noteSetback .commitStartedNotPersisted
    abandonUpload site r "Upload rollback could not be confirmed before publication"
      .internalServerError .uploadCheckpointPersistFailed
      "Upload was not published; retry with a new upload ID"

def confirmSpaceAfterStart : Io Unit := do
  let available ← reservedSpaceIsAvailable.attempt
  match available with
  | .ok true => pure ()
  | .ok false | .error _ =>
    noteSetback .spaceLostAfterCommitStarted
    abandonUpload site r "Upload rollback could not be confirmed before publication"
      .insufficientStorage .uploadInsufficientStorage
      "Insufficient protected free disk space before publication"

/-! ### Publication -/

/-- `remove_empty_upload_stage_directory`, whose failure is only logged. -/
def removeEmptyStageDirectory : Io Unit := do
  let _ ← fsStep.attempt
  pure ()

def finishPublished : Io UploadResponse := do
  removeEmptyStageDirectory
  let saved ← (persistTerminal site ⟨r.uploadLength, none, false⟩ r.uploadLength .committed).attempt
  match saved with
  | .error _ =>
    pure <| applyUploadProblem ⟨.unknown, some r.uploadLength, some r.uploadLength⟩
      .internalServerError .uploadTerminalRecordFailed
      ("Upload was published, but terminal confirmation could not be persisted; " ++
        "query the upload ID before any retry") .queryUpload .empty
  | .ok () =>
    pure <| applyUploadRecordHeaders (some r.uploadLength) (some r.uploadLength) .committed
      { empty with status := t.successStatus }

/-- The target changed before the rename: the stage is retained for a confirmation. -/
def finishRejected : Io UploadResponse := do
  let saved ← (persistAwaitingConfirmation site file (boundRecord r)).attempt
  match saved with
  | .error _ =>
    pure <| applyUploadUnknown
      "Upload was not published, but its retained stage could not be confirmed" .empty
  | .ok () =>
    renderUploadTargetConflict site
      ⟨.awaitingConfirmation, some r.uploadLength, some r.uploadLength⟩

def finishNotPublished : Io UploadResponse := do
  noteSetback .notPublished
  resetAndAncestors site (!r.mode.isResume)
  let _ ← (persistTerminal site ⟨r.uploadLength, none, false⟩ 0 .rejected).attempt
  pure <| applyUploadProblem ⟨.rejected, some r.uploadLength, none⟩ .internalServerError
    .uploadNotPublished "Upload was not published; retry the upload" .retryWithNewId .empty

def finishDurabilityUnknown : Io UploadResponse := do
  let _ ← (persistUnknown site ⟨r.uploadLength, none, false⟩ r.uploadLength).attempt
  removeEmptyStageDirectory
  pure <| applyUploadProblem ⟨.unknown, some r.uploadLength, some r.uploadLength⟩
    .internalServerError .uploadPublicationDurabilityUnknown
    "Upload commit was not confirmed; refresh the folder before trying again" .queryUpload .empty

def commitReadyUpload : Io UploadResponse := do
  let outcome ← commitStagedFile site file t.target.identity
  match outcome with
  | .published => finishPublished site r t
  | .rejected => finishRejected site r file
  | .notPublished => finishNotPublished site r
  | .publishedDurabilityUnknown => finishDurabilityUnknown site r

def prepareTransferredUpload : Io UploadResponse := do
  let file ← flushTransferred site r t
  confirmSpaceBeforeCommit site r t file
  deadlineBeforeCommit site r t file
  let staged ← stagedLength r t file
  deadlineBeforeCommit site r t staged.1
  checkStagedLength site r t staged.1 staged.2
  deadlineBeforeCommit site r t staged.1
  replayMetadata site r t staged.1
  confirmSpaceAfterReplay site r t
  startCommit site r staged.1
  confirmSpaceAfterStart site r
  commitReadyUpload site r t staged.1

/-! ### The whole request -/

def transferUploadBody : Io UploadResponse := do
  let received ← receiveUploadBody r.body
    ⟨t.file, t.spaceLease, diskSpaceRecheckBytes, r.uploadLength - r.initialOffset⟩
  match received.2 with
  | none => prepareTransferredUpload site r { t with file := received.1 }
  | some e =>
    if t.awaitingConfirmation then reply (r.awaitingTransferError e)
    else finishTransferError site r received.1 e

def processUpload : Io UploadResponse := do
  let t ← prepareUpload site r
  transferUploadBody site r t

/-- `apply_upload_record_store_problem`, if the error is one of the store. -/
def uploadRecordStoreProblem (context : UploadErrorContext) : Failure → Option UploadResponse
  | .dispatch => some <| applyUploadProblem context .serviceUnavailable .uploadStateUnavailable
      "Upload state storage is temporarily unavailable" .queryUpload .empty
  | .record .conflict => some <| applyUploadProblem context .conflict .uploadSessionConflict
      "Upload ID conflicts with an existing session; query it before retrying" .queryUpload .empty
  | .record .full => some <| applyUploadProblem context .serviceUnavailable
      .uploadSessionStoreFull "Upload session capacity is temporarily exhausted"
      (.retryAfterSeconds 1) .empty
  | .io _ | .other _ => none

/-- `handle_upload`: an early reply is the response, an error of the store is rendered. -/
def handleUpload : Io UploadResponse := do
  let processed ← (processUpload site r).attempt
  match processed with
  | .ok res => pure res
  | .error (.reply res) => pure res
  | .error (.error e) =>
    match uploadRecordStoreProblem ⟨.unknown, some r.uploadLength, r.mode.offset⟩ e with
    | some res => pure res
    | none => fail e

/-- The error of a file operation that timed out. -/
def Failure.isTimeout : Failure → Bool
  | .io .timedOut => true
  | _ => false

/-- The response of `router.rs` to an error that escaped the handler. -/
def renderUploadError (mutation : MutationProgress) (e : Failure) : UploadResponse :=
  if mutation.outcomeCanBeUnknown then
    r.uncertain (if e.isTimeout then .gatewayTimeout else .internalServerError)
      .uploadResultUnknown "Upload result could not be confirmed" .queryUpload
  else
    r.notStarted (if e.isTimeout then .requestTimeout else .serviceUnavailable)
      (if e.isTimeout then .requestTimeout else .uploadPrecommitFailed)
      "Upload stopped before any upload mutation" .retry

/-- The response of `await_tracked_upload_task` when its deadline passes first. -/
def deadlineResponse (cancelled : Bool) : UploadResponse :=
  if cancelled then
    r.notStarted .requestTimeout .requestTimeout
      "Upload deadline exceeded before any upload mutation" .retry
  else
    r.uncertain .requestTimeout .uploadOutcomeUnknown
      "Upload deadline exceeded; the final result is unknown" .queryUpload

/-- The client is answered at the deadline, while the upload itself goes on to its end. A timeout
that closed the mutation boundary has answered already. -/
def trackedResponse (mutation : MutationProgress) (late : Bool)
    (handled : Except Exit UploadResponse) : UploadResponse :=
  if mutation = .cancelledBeforeUploadMutation then deadlineResponse r true
  else if late then deadlineResponse r mutation.cancelUploadBeforeMutation.1
  else match handled with
    | .ok res | .error (.reply res) => res
    | .error (.error e) => renderUploadError r mutation e

def runTrackedUpload : Io UploadResponse := do
  let handled ← (handleUpload site r).attempt
  let late ← deadlinePassed
  let w ← .get
  pure (trackedResponse r w.mutation late handled)

/-! ### Status -/

/-- The headers that report a record. -/
def UploadCheckpoint.report (record : UploadCheckpoint) (state : UploadPublicState)
    (res : UploadResponse) : UploadResponse :=
  applyUploadRecordHeaders (some record.uploadLength) (some record.durableOffset) state res

def renderStatus (record : UploadCheckpoint) : Io UploadResponse :=
  match record.state with
  | .running => pure (record.report .running .empty)
  | .committed => pure (record.report .committed .empty)
  | .rejected => pure (record.report .rejected { empty with status := .conflict })
  | .awaitingConfirmation => do
    let identity ← replacementIdentity
    pure <| record.report .awaitingConfirmation <|
      applyTargetInspectionHeaders (inspectTargetIdentity site identity)
        { empty with status := .conflict }
  | .unknown =>
    pure <| record.problem .unknown .internalServerError .uploadPublicationOutcomeUnknown
      "Upload publication outcome is unknown; refresh the target before any retry" .refreshTarget

def handleUploadStatus : Io UploadResponse := do
  let found ← (lookup site).attempt
  match found with
  | .ok (.found record) => renderStatus site record
  | .ok .notSeen | .ok .foreignOwner =>
    pure <| applyUploadRecordHeaders none none .notSeen
      { empty with status := .notFound }
  | .error (.error e) =>
    rethrow <| match uploadRecordStoreProblem ⟨.unknown, none, none⟩ e with
      | some res => .ok res
      | none => .error (.error e)
  | .error e => .throw e

end DufsRam
