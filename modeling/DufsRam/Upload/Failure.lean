import DufsRam.Upload.Record

/-!
# Uploads that stop before publication

`upload/failure.rs`: how a request that ran out of space or time, or whose staging file failed,
leaves its session, and the response it renders.
-/

namespace DufsRam

open Crash

/-- `result?` on a result that was kept for later. -/
def rethrow {α : Type} : Except Exit α → Io α
  | .ok a => pure a
  | .error e => .throw e

/-- `upload_deadline_expired_before_mutation`. -/
def deadlineBeforeMutation (r : UploadRequest) (message : String) : Io Unit := do
  let late ← deadlinePassed
  .when (late = true) (reply (r.notStarted .requestTimeout .requestTimeout message .retry))

variable (site : Site) (r : UploadRequest) (file : StageFile) (message : String)

/-- `set_len` to the offset where the request started, and a sync. -/
def cutBack : Io Unit := do
  let file ← file.setLen r.initialOffset
  syncFileToStorage file

/-- A resumed upload falls back to its checkpoint, as far as that succeeds. -/
def truncateToCheckpoint : Io Unit := do
  let truncated ← (file.setLen r.initialOffset).attempt
  match truncated with
  | .error _ => pure ()
  | .ok file =>
    let _ ← (syncFileToStorage file).attempt
    pure ()

def finishPrecommitSpaceFailure : Io UploadResponse :=
  if r.mode.isResume then do
    truncateToCheckpoint r file
    pure <| applyUploadProblem ⟨.running, some r.uploadLength, some r.initialOffset⟩
      .insufficientStorage .uploadInsufficientStorage message .resumeUpload .empty
  else do
    let cleanup ← (resetAndAncestors site true).attempt
    match cleanup with
    | .error _ =>
      pure <| applyUploadUnknown "Upload rollback could not be confirmed after a disk-space failure"
        .empty
    | .ok () =>
      pure <| applyUploadProblem ⟨.rejected, some r.uploadLength, none⟩
        .insufficientStorage .uploadInsufficientStorage message .retryWithNewId .empty

def finishPrecommitIoFailure : Io UploadResponse :=
  if r.mode.isResume then
    pure <| applyUploadProblem ⟨.running, some r.uploadLength, some r.initialOffset⟩
      .internalServerError .uploadPrecommitFailed message .resumeUpload .empty
  else do
    let cleanup ← (resetAndAncestors site true).attempt
    match cleanup with
    | .error _ =>
      pure <| applyUploadUnknown "Upload rollback could not be confirmed after a precommit failure"
        .empty
    | .ok () =>
      pure <| applyUploadProblem ⟨.rejected, some r.uploadLength, none⟩
        .internalServerError .uploadPrecommitFailed message .retryWithNewId .empty

/-! ### Running out of time -/

/-- Remove the stage and the row of a fresh upload; an error of the first is raised last. -/
def discardFreshStage : Io Unit := do
  let discarded ← (discardUnrecordedStage file).attempt
  resetAndAncestors site true
  rethrow discarded

/-- A partial upload whose size can be recorded as its checkpoint. -/
def partialUploadIsCheckpointable (partialSize : Nat) : Prop :=
  r.initialOffset ≤ partialSize ∧ partialSize ≤ r.uploadLength ∧
    (r.mode.isResume = true ∨ resumableUploadMinSize ≤ partialSize)

instance (partialSize : Nat) : Decidable (partialUploadIsCheckpointable r partialSize) :=
  inferInstanceAs (Decidable (_ ∧ _ ∧ _))

/-- The rest of `finish_timed_out_upload`, once the size of the stage is known. -/
def finishTimedOutAt (partialSize : Nat) (message : String) :
    Io UploadResponse :=
  if partialUploadIsCheckpointable r partialSize then do
    let saved ← (persistCheckpointInner site file ⟨r.uploadLength, none, false⟩ partialSize
      (!r.mode.isResume)).attempt
    match saved with
    | .error e =>
      .when (r.mode.isResume = false) (discardFreshStage site file)
      .throw e
    | .ok () =>
      pure <| applyUploadUnknown message
        { UploadResponse.empty with uploadOffset := some partialSize }
  else if r.mode.isResume = false then do
    discardFreshStage site file
    pure <| applyUploadUnknown message .empty
  else do
    -- a longer stage is cut back; a shorter one is left for the maintenance to judge
    .when (r.initialOffset < partialSize) (cutBack r file)
    pure <| applyUploadUnknown message
      { UploadResponse.empty with uploadOffset := some r.initialOffset }

def finishTimedOutUpload : Io UploadResponse := do
  let flushed ← file.flush.attempt
  match flushed with
  | .error e =>
    .when (r.mode.isResume = false) (discardFreshStage site { file with queued := [] })
    .throw e
  | .ok file =>
    let found ← file.metadata.attempt
    match found with
    | .error e =>
      .when (r.mode.isResume = false) (resetAndAncestors site true)
      .throw e
    | .ok found => finishTimedOutAt site r file found.2.length message

end DufsRam
