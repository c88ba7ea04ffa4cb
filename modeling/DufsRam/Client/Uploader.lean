import DufsRam.Client.Manager

/-!
# The uploaders

The class `Uploader` of `clients/web/modules/upload/manager.js`: how an upload is started, how each
response, timeout and choice is handled, and how the upload ends.
-/

namespace DufsRam.Client

/-! ### Responses -/

/-- The codes of problems that the client distinguishes. -/
inductive ProblemCode where
  | destinationExists
  | uploadTargetChanged
  | uploadMetadataPreservationRefused
  | other
  deriving DecidableEq

/-- The advice of a problem. -/
inductive ProblemRecovery where
  | retry
  | queryUpload
  | retryWithNewId
  | resumeUpload
  | other
  deriving DecidableEq

/-- The result of `parseErrorPayload`; the status is 0 without a problem in the body. -/
structure ProblemDetail where
  status : ℕ
  code : ProblemCode
  recovery : ProblemRecovery
  deriving DecidableEq

/-- A response as an uploader receives it. -/
structure Response where
  status : ℕ
  /-- The platform error code of a response with status 403. -/
  errorCode : Option String
  headers : Headers
  detail : ProblemDetail
  retryAfter : Option ℕ

/-- `classifyUploadResponse` for a response to a request of the uploader. -/
def Uploader.classify (u : Uploader) (phase : UploadRequestPhase) (response : Response) :
    UploadClassification :=
  classifyUploadResponse ⟨phase, response.errorCode, response.status, response.headers, u.uploadId,
    u.size⟩

inductive TargetChange where
  | exists_ (revision : String) (replaceable : Bool)
  | missing
  | resetStage
  deriving DecidableEq

/-- The response is about the whole upload and its outcome is known. -/
def isTrustedConflict (classification : UploadClassification) (detail : ProblemDetail)
    (expectedLength : ℕ) : Bool :=
  !classification.outcomeUnknown && decide (detail.status = 409) &&
  match classification.kind, classification.protocol with
  | .state .notStarted, some protocol =>
    decide (protocol.state = .notStarted) && decide (protocol.length = some expectedLength)
  | .state .awaitingConfirmation, some protocol =>
    decide (protocol.state = .awaitingConfirmation) &&
    decide (protocol.length = some expectedLength) &&
    decide (protocol.offset = some expectedLength)
  | _, _ => false

def trustedUploadTargetChange (classification : UploadClassification) (detail : ProblemDetail)
    (headers : Headers) (expectedLength : ℕ) : Option TargetChange :=
  if isTrustedConflict classification detail expectedLength = false then none
  else if detail.code = .uploadMetadataPreservationRefused ∧
      classification.kind = .state .awaitingConfirmation then some .resetStage
  else if detail.code = .destinationExists then
    match parseTargetRevision headers, parseTargetReplaceable headers with
    | some revision, some replaceable => some (.exists_ revision replaceable)
    | _, _ => none
  else if detail.code = .uploadTargetChanged ∧ parseTargetReplaceable headers = some true ∧
      headers .targetRevision = none then some .missing
  else none

/-- The states for which `uploadFailureMessage` has a text. -/
def isKnownFailure : ClassificationKind → Bool
  | .state .running | .state .rejected | .state .notSeen | .state .notStarted => true
  | _ => false

def uploadRecoveryAction (recovery : ProblemRecovery) (kind : ClassificationKind)
    (protocol : Option BoundUploadProtocol) : UploadRecoveryAction :=
  if recovery = .queryUpload then .queryUpload
  else
    match protocol with
    | none => .none
    | some protocol =>
      if kind ≠ .state protocol.state then .none
      else if recovery = .retry ∧ protocol.state = .notStarted then .retry
      else if recovery = .retryWithNewId ∧
          (protocol.state = .rejected ∨ protocol.state = .notSeen) then .retry
      else if recovery = .resumeUpload ∧ protocol.state = .running ∧
          protocol.offset.isSome then .retry
      else .none

/-- The only recovery that `unknown` offers. -/
def queryIfAdvised (recovery : ProblemRecovery) : UploadRecoveryAction :=
  if recovery = .queryUpload then .queryUpload else .none

namespace Manager

variable (env : UploadEnvironment) (now i : ℕ) (m : Manager)

/-! ### Sending -/

/-- The request that the uploader sends, once the browser has accepted it. -/
def transmit (request : SentRequest) (onDispatch : Uploader → Uploader)
    (onError : Manager → Manager) : Manager :=
  let accepted := env.dispatches m.attempts
  let m := { m with attempts := m.attempts + 1 }
  if accepted then
    { m.modify i fun u =>
        onDispatch { u with requestDispatched := true, awaiting := .transfer } with
      sent := m.sent ++ [request] }
  else onError ((m.modify i fun u => { u with requestDispatched := false }).clearTimeouts i)

/-- `startTimeouts`, with the fields that every request sets anew. -/
def startTransfer (phase : UploadRequestPhase) : Manager :=
  m.modify i fun u =>
    { u with
      phase := .transferring
      requestDispatched := false
      abortable := true
      abortOutcomeUnknown := false
      uploadRequestPhase := phase }

/-- The headers of `sendBody`: an overwrite is asked for exactly with a revision. -/
def Uploader.bodyRequest (u : Uploader) (resuming : Bool) : SentRequest where
  index := i
  phase := if resuming then .resume else .fresh
  uploadId := u.uploadId
  uploadLength := u.size
  uploadOffset := if resuming then some u.uploadOffset else none
  overwrite := u.targetRevision.isSome
  targetRevision := u.targetRevision

/-- `sendBody`, where the caller says what `fail` means: in the loop of `runQueue` the slot that is
freed is filled by the loop itself. -/
def sendBodyWith (onError : Manager → Manager) (forceResume : Bool) : Manager :=
  match m.uploaders i with
  | none => m
  | some u =>
    let resuming := forceResume || decide (0 < u.uploadOffset)
    (m.startTransfer i (if resuming then .resume else .fresh)).transmit env i
      (Uploader.bodyRequest i u resuming) id onError

/-- The part of `queryCheckpoint` before its request is answered. -/
def queryCheckpoint (queryingUnknown retryAfterCheck : Bool) : Manager :=
  m.modify i fun u =>
    { u with
      abortable := true
      abortOutcomeUnknown := false
      phase := .checking
      requestDispatched := false
      awaiting := .checkpoint queryingUnknown retryAfterCheck }

/-! ### The queue -/

/-- `fail` of an uploader that the loop of `runQueue` has just started. -/
def failInLoop (recovery : Recovery) : Manager :=
  if m.hasState i .running then (m.conclude env i .failed recovery).releaseSlot i else m

/-- `start`. -/
def start : Manager :=
  match m.uploaders i with
  | none => m
  | some u =>
    let m := m.modify i fun u => { u with state := .running, pendingRecovery := .none }
    match u.pendingRecovery with
    | .retry => m.queryCheckpoint i false true
    | .queryUpload => m.queryCheckpoint i false false
    | .none => m.sendBodyWith env i (failInLoop env i · (.atOnce .retry)) false

/-- One round of `runQueue` with the uploader that was taken from the queue. -/
def startQueued : Manager :=
  if m.hasState i .queued then
    start env i { m.modify i fun u => { u with queueEntry := none, runningAccounted := true } with
      running := m.running + 1
      starts := m.starts ++ [m.unresolvedUnknown] }
  else m

/-- The loop of `runQueue`, with fuel for every entry of the queue. -/
def runQueueLoop : ℕ → Manager → Manager
  | 0, m => m
  | n + 1, m =>
    if m.running < env.maxConcurrentUploads then
      match m.queue.dequeue with
      | (none, queue) => { m with queue }
      | (some i, queue) => runQueueLoop n (startQueued env i { m with queue })
    else m

def runQueue : Manager :=
  if m.queueState ≠ .running ∨ m.cancellingBatch = true then m
  else runQueueLoop env (m.queue.remaining + 1) m

def resolveUnknown : Manager :=
  if i ∈ m.unresolvedUnknown then
    let m := { m with unresolvedUnknown := m.unresolvedUnknown.erase i }
    if m.unresolvedUnknown ≠ ∅ ∨ m.queueState ≠ .pausedUnknown then m
    else runQueue env { m with queueState := .running }
  else m

/-! ### The ends of an uploader -/

def finishRunning : Manager :=
  match m.uploaders i with
  | some u => if u.runningAccounted then runQueue env (m.releaseSlot i) else m
  | none => m

/-- The ends of a running uploader. -/
def finish (ending : Ending) (recovery : Recovery) : Manager :=
  if m.hasState i .running then finishRunning env i (m.conclude env i ending recovery) else m

def complete : Manager := m.finish env i .completed .none

def fail (recovery : Recovery) : Manager := m.finish env i .failed recovery

def unknown (recovery : Recovery) : Manager := m.finish env i .unknown recovery

def skipConflict : Manager := m.finish env i .cancelled .none

/-- The session of the page has ended. -/
def failForAuthentication : Manager := fail env i m.pauseForAuthentication .none

def sendBody (forceResume : Bool) : Manager :=
  m.sendBodyWith env i (fail env i · (.atOnce .retry)) forceResume

/-! ### Cancelling -/

/-- `cancel` of an uploader whose entry is still in the queue. -/
def cancelQueued (queue : UploadQueue ℕ) : Manager :=
  let m := { m with queue }
  let m := (m.modify i fun u => { u with queueEntry := none }).clearRecovery i
  let m := m.modify i fun u => { u with state := .cancelled, phase := .cancelled }
  runQueue env (m.retainTerminalRow env i false)

def handleAbort : Manager :=
  match m.uploaders i with
  | none => m
  | some u =>
    let m := m.clearTimeouts i
    if u.abortOutcomeUnknown || u.requestDispatched then m.unknown env i (.atOnce .queryUpload)
    else m.fail env i (.atOnce .retry)

/-- `abortController.abort()`: a transfer is aborted at once, a query fails later. -/
def abort (outcomeUnknown : Bool) : Manager :=
  let m := m.modify i fun u => { u with abortOutcomeUnknown := outcomeUnknown }
  match m.uploaders i with
  | some u => if u.awaiting = .transfer then m.handleAbort env i else m
  | none => m

def cancel : Manager :=
  match m.uploaders i with
  | none => m
  | some u =>
    match (if u.state = .queued then m.queue.cancel u.queueEntry else none) with
    | some queue => m.cancelQueued env i queue
    | none =>
      if u.state = .running ∧ u.abortable = true then m.abort env i u.requestDispatched else m

/-- The queued members of the batch, in order, are cancelled one by one. -/
def cancelMembers (members : List ℕ) : Manager :=
  members.foldl (fun m j => if j ≠ i ∧ m.hasState j .queued then m.cancel env j else m) m

def cancelRemainingBatch : Manager :=
  match m.uploaders i with
  | none => m
  | some u =>
    match m.batches u.batchId with
    | none => m
    | some batch =>
      let m := { m with
        batches := Function.update m.batches u.batchId
          (some { batch with cancelRequested := true })
        cancellingBatch := true }
      let m := m.cancelMembers env i batch.members
      runQueue env { m with cancellingBatch := false }

end Manager

end DufsRam.Client
