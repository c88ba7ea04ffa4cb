import DufsRam.Upload.Failure

/-!
# Receiving the body of an upload

`upload/transfer.rs`: the loop that writes the body to the stage, and what becomes of the session
when the body ends in an error. Receiving returns the descriptor with its result, since the error
handling goes on with it.
-/

namespace DufsRam

open Crash

inductive UploadTransferError where
  | io (kind : ErrorKind)
  | idleTimeout
  | totalTimeout
  | excessBody
  | insufficientStorage
  deriving DecidableEq

/-- The descriptor and the accumulators of the receiving loop. -/
structure Receiver where
  file : StageFile
  lease : SpaceLease
  bytesUntilSpaceCheck : Nat
  remaining : Nat
  deriving DecidableEq

/-- The space is checked again after every eight megabytes. -/
def recheckSpace (needed : Prop) [Decidable needed] : Io (Option UploadTransferError) :=
  if needed then do
    let available ← reservedSpaceIsAvailable.attempt
    match available with
    | .error (.error (.io kind)) => pure (some (.io kind))
    | .error _ => pure (some (.io .other))
    | .ok false => pure (some .insufficientStorage)
    | .ok true => pure none
  else pure none

/-- `write_upload_chunk` on data that is not empty, and the deadline after it. -/
def writeUploadChunk (data : List UInt8) (t : Receiver) :
    Io (Receiver × Option UploadTransferError) :=
  if t.lease < data.length then pure (t, some .excessBody)
  else do
    let space ← recheckSpace (t.bytesUntilSpaceCheck ≤ data.length)
    match space with
    | some e => pure (t, some e)
    | none =>
      let written ← t.file.writeAll data
      match written.2 with
      | some kind => pure ({ t with file := written.1 }, some (.io kind))
      | none =>
        let late ← deadlinePassed
        pure (⟨written.1, t.lease - data.length,
          (if t.bytesUntilSpaceCheck ≤ data.length then diskSpaceRecheckBytes
            else t.bytesUntilSpaceCheck) - data.length, t.remaining - data.length⟩,
          if late then some .totalTimeout else none)

/-- `receive_upload_body`: at most the remaining bytes are accepted. -/
def receiveUploadBody : List BodyEvent → Receiver → Io (StageFile × Option UploadTransferError)
  | [], t => pure (t.file, none)
  | .failure :: _, t => pure (t.file, some (.io .other))
  | .shutdown :: _, t => pure (t.file, some (.io .interrupted))
  | .idle :: _, t => pure (t.file, some .idleTimeout)
  | .total :: _, t => pure (t.file, some .totalTimeout)
  | .chunk bytes :: rest, t =>
    if bytes = [] then receiveUploadBody rest t
    else if t.remaining = 0 then pure (t.file, some .excessBody)
    else do
      let written ← writeUploadChunk (bytes.take t.remaining) t
      match written.2 with
      | some e => pure (written.1.file, some e)
      | none =>
        if t.remaining < bytes.length then pure (written.1.file, some .excessBody)
        else receiveUploadBody rest written.1

/-! ### Errors of the transfer -/

/-- `apply_awaiting_confirmation_transfer_error`. -/
def UploadRequest.awaitingTransferError (r : UploadRequest) : UploadTransferError → UploadResponse
  | .io _ => applyAwaitingConfirmationProblem r.uploadLength .internalServerError
      .uploadPrecommitFailed "Upload confirmation body failed before publication"
  | .idleTimeout => applyAwaitingConfirmationProblem r.uploadLength .requestTimeout
      .uploadIdleTimeout "Upload confirmation body idle timeout"
  | .totalTimeout => applyAwaitingConfirmationProblem r.uploadLength .requestTimeout
      .requestTimeout "Upload deadline exceeded while waiting for an empty confirmation body"
  | .excessBody => applyAwaitingConfirmationProblem r.uploadLength .payloadTooLarge
      .uploadBodyExceedsRemainingLength "Request body exceeds declared remaining upload length"
  | .insufficientStorage => applyAwaitingConfirmationProblem r.uploadLength .insufficientStorage
      .uploadInsufficientStorage "Insufficient protected free disk space"

variable (site : Site) (r : UploadRequest)

/-- The state and advice of an upload that stopped, with the offset it can be resumed from. -/
def stoppedUpload (resumable : Option Nat) (status : StatusCode) (code : ErrorCode)
    (detail : String) : UploadResponse :=
  applyUploadProblem
    ⟨if resumable.isSome then .running else .rejected, some r.uploadLength, resumable⟩ status code
    detail (if resumable.isSome then .resumeUpload else .retryWithNewId) .empty

variable (file : StageFile)

/-- The size of the stage after an error; only a resumed upload insists on reading it. -/
def partialSize : Io (StageFile × Nat) := do
  let found ← file.metadata.attempt
  match found with
  | .ok found => pure (found.1, found.2.length)
  | .error e =>
    if r.mode.isResume then do
      file.drop
      .throw e
    else pure (file, 0)

/-- After a body that was too long. -/
def finishExcessBody : Io UploadResponse := do
  (if r.mode.isResume then cutBack r file
  else do
    file.drop
    resetAndAncestors site true : Io Unit)
  pure <| stoppedUpload r r.mode.offset .payloadTooLarge .uploadBodyExceedsRemainingLength
    "Request body exceeds declared remaining upload length"

/-- After the protected free space was reached. -/
def finishInsufficientStorage : Io UploadResponse := do
  cutBack r file
  .when (r.mode.isResume = false) (resetAndAncestors site true)
  pure <| stoppedUpload r r.mode.offset .insufficientStorage .uploadInsufficientStorage
    "Insufficient protected free disk space"

/-- After an idle timeout or an error of the stream or the file: keep what can be resumed. -/
def keepForResume (partialSize : Nat) : Io Bool :=
  if partialUploadIsCheckpointable r partialSize then do
    persistCheckpoint site file
      (UploadRecordContext.withTargetRevision r.requestedRevision ⟨r.uploadLength, none, false⟩)
      partialSize
    pure true
  else if r.mode.isResume then do
    file.drop
    fail (.io .invalidData)
  else do
    file.drop
    resetAndAncestors site true
    pure false

def finishTransferError (e : UploadTransferError) : Io UploadResponse :=
  match e with
  | .totalTimeout =>
    finishTimedOutUpload site r file "Upload deadline exceeded; the final result is unknown"
  | .excessBody => do
    let found ← partialSize r file
    finishExcessBody site r found.1
  | .insufficientStorage => do
    let found ← partialSize r file
    finishInsufficientStorage site r found.1
  | .idleTimeout => do
    let found ← partialSize r file
    let kept ← keepForResume site r found.1 found.2
    pure <| stoppedUpload r (if kept then some found.2 else none) .requestTimeout
      .uploadIdleTimeout "upload body idle timeout"
  | .io kind => do
    let found ← partialSize r file
    let _ ← keepForResume site r found.1 found.2
    fail (.io kind)

end DufsRam
