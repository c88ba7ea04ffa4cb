import DufsRam.Client.Uploader

/-!
# What an uploader does with an answer

The handlers of the class `Uploader` (`clients/web/modules/upload/manager.js`). A handler begins
where its function goes on after an `await`, or where the request of a transfer calls back; what the
uploader waited for is over then.
-/

namespace DufsRam.Client.Manager

open BoundUploadProtocol

variable (env : UploadEnvironment) (now i : ℕ) (m : Manager)

/-- The request or the dialog that the uploader waited for has come to its end. -/
def settled : Manager := m.modify i fun u => { u with awaiting := .nothing }

/-! ### Publishing and discarding a staged upload -/

variable (u : Uploader) (revision : String) (restartAfterDiscard staged : Bool)

def Uploader.stagedRequest : SentRequest where
  index := i
  phase := .resume
  uploadId := u.uploadId
  uploadLength := u.size
  uploadOffset := some u.size
  overwrite := true
  targetRevision := some revision

/-- After `dispatchUploadRequest` the uploader waits for the commit. -/
def publishStaged : Manager :=
  match m.uploaders i with
  | none => m
  | some u =>
    match u.targetRevision with
    | none => m.fail env i (.atOnce .queryUpload)
    | some revision =>
      (m.startTransfer i .resume).transmit env i (Uploader.stagedRequest i u revision)
        (fun u => if u.state = .running then { u with phase := .submitting } else u)
        (fail env i · (.atOnce .queryUpload))

def discardStaged : Manager :=
  m.modify i fun u => { u with phase := .checking, awaiting := .discard restartAfterDiscard }

def restartSession : Manager :=
  { m.modify i fun u =>
      { u with
        uploadId := env.randomUUID m.drawn
        uploadOffset := 0
        uploadRequestPhase := .fresh
        missingTargetRetryUsed := false } with
    drawn := m.drawn + 1 }

def forgetRevision : Manager := m.modify i fun u => { u with targetRevision := none }

def finishDiscard : Manager :=
  if restartAfterDiscard = false then m.skipConflict env i
  else ((m.forgetRevision i).restartSession env i).sendBody env i false

/-- The target is gone: a staged upload is discarded and sent anew, another one is sent once more
without a revision. -/
def retryMissingTarget : Manager :=
  if staged = true then m.discardStaged i true
  else
    match m.uploaders i with
    | none => m
    | some u =>
      if u.missingTargetRetryUsed then m.fail env i (.atOnce .queryUpload)
      else
        ((m.modify i fun u => { u with missingTargetRetryUsed := true }).forgetRevision i).sendBody
          env i false

/-- The part of `resolveDestinationConflict` before the user has chosen. -/
def resolveDestinationConflict : Manager :=
  if m.hasState i .running then
    m.modify i fun u =>
      { u with phase := .awaitingConfirmation, awaiting := .choice revision staged }
  else m

inductive DialogChoice where
  | confirm
  | alternate
  | cancel
  deriving DecidableEq

def confirmRevision : Manager :=
  m.modify i fun u =>
    { u with targetRevision := some revision, missingTargetRetryUsed := false }

/-- The rest of `resolveDestinationConflict`. -/
def chooseConflict (choice : DialogChoice) : Manager :=
  let m := m.settled i
  match m.uploaders i with
  | none => m
  | some u =>
    if u.state ≠ .running ∨ u.phase ≠ .awaitingConfirmation then m
    else if choice = .confirm then
      let m := m.confirmRevision i revision
      if staged then m.publishStaged env i else m.sendBody env i false
    else
      let m := if choice = .cancel then m.cancelRemainingBatch env i else m
      if staged then m.discardStaged i false else m.skipConflict env i

/-! ### The response to a transfer -/

/-- The response says that the target has changed. -/
def handleTargetChange : TargetChange → Manager
  | .missing => m.retryMissingTarget env i staged
  | .resetStage => m.retryMissingTarget env i true
  | .exists_ revision replaceable =>
    if replaceable then m.resolveDestinationConflict i revision staged
    else if staged then m.discardStaged i false
    else m.skipConflict env i

/-- The staged upload is complete and the server asks for another query. -/
def asksForQuery (classification : UploadClassification) (response : Response) :
    Bool :=
  decide (classification.kind = .state .awaitingConfirmation) &&
  !classification.outcomeUnknown &&
  classification.protocol.any (fun protocol =>
    decide (protocol.length = some u.size) && decide (protocol.offset = some u.size)) &&
  decide (response.detail.status = response.status) &&
  decide (response.detail.recovery = .queryUpload)

/-- A response that is neither a success nor about the session of the page or the target. -/
def handleUploadProblem (classification : UploadClassification) (response : Response) : Manager :=
  if asksForQuery u classification response then m.queryCheckpoint i false false
  else if isKnownFailure classification.kind then
    m.fail env i ⟨uploadRecoveryAction response.detail.recovery classification.kind
      classification.protocol, response.retryAfter, now⟩
  else m.unknown env i ⟨queryIfAdvised response.detail.recovery, response.retryAfter, now⟩

def handleUploadResponse (response : Response) : Manager :=
  let m := (m.settled i).clearTimeouts i
  match m.uploaders i with
  | none => m
  | some u =>
    let classification := u.classify
      (if u.uploadRequestPhase = .resume then .resume else .fresh) response
    match classification.kind with
    | .state .committed => m.complete env i
    | .authentication => m.failForAuthentication env i
    | .csrf => m.failForAuthentication env i
    | _ =>
      if response.detail.status ≠ 0 ∧ response.detail.status ≠ response.status then
        m.unknown env i ⟨queryIfAdvised response.detail.recovery, response.retryAfter, now⟩
      else
        match trustedUploadTargetChange classification response.detail response.headers u.size with
        | some change =>
          m.handleTargetChange env i
            (decide (classification.kind = .state .awaitingConfirmation)) change
        | none => m.handleUploadProblem env now i u classification response

def handleNetworkError : Manager :=
  let m := m.settled i
  match m.uploaders i with
  | none => m
  | some u =>
    let m := m.clearTimeouts i
    if u.requestDispatched then m.unknown env i (.atOnce .queryUpload)
    else m.fail env i (.atOnce .retry)

def handleOversizedResponse : Manager :=
  let m := m.settled i
  if m.hasState i .running then (m.clearTimeouts i).unknown env i (.atOnce .queryUpload) else m

/-- The upload has made no progress, or takes too long. -/
def handleTimeout : Manager := m.abort env i true

def beginCommitWait : Manager :=
  m.modify i fun u =>
    if u.state = .running ∧ u.phase = .transferring then { u with phase := .submitting } else u

/-! ### The response to a query -/

/-- A staged upload whose target exists or not. -/
def handleStaged (protocol : Option BoundUploadProtocol) (response : Response) :
    Manager :=
  match parseTargetReplaceable response.headers with
  | none => m.unknown env i (.atOnce .queryUpload)
  | some replaceable =>
    let raw := response.headers .targetRevision
    if (raw = none ∧ replaceable = false) ∨
        (raw ≠ none ∧ parseTargetRevision response.headers = none) ∨
        protocol.bind offset ≠ some u.size then
      m.unknown env i (.atOnce .queryUpload)
    else
      let m := m.resolveUnknown env i
      match parseTargetRevision response.headers with
      | none =>
        (m.modify i fun u => { u with missingTargetRetryUsed := false }).retryMissingTarget env i
          true
      | some revision =>
        if replaceable then m.resolveDestinationConflict i revision true
        else m.discardStaged i false

/-- A session that can be resumed. -/
def handleResumable (retryAfterCheck : Bool) (protocol : Option BoundUploadProtocol) : Manager :=
  match protocol.bind offset with
  | none => m.unknown env i (.atOnce .queryUpload)
  | some offset =>
    let m := (m.modify i fun u => { u with uploadOffset := offset }).resolveUnknown env i
    if offset = u.size ∨ retryAfterCheck = true then m.sendBody env i true
    else m.fail env i (.atOnce .retry)

/-- A session that the server does not know or has rejected. -/
def handleGone (retryAfterCheck : Bool) : Manager :=
  let m := m.resolveUnknown env i
  if retryAfterCheck then (m.restartSession env i).sendBody env i false
  else m.fail env i (.atOnce .retry)

/-- The rest of `queryCheckpoint` with a response. -/
def checkpointReply (retryAfterCheck : Bool) (response : Response) : Manager :=
  let m := (m.settled i).modify i fun u => { u with abortable := false }
  match m.uploaders i with
  | none => m
  | some u =>
    let classification := u.classify .checkpoint response
    match classification.kind with
    | .authentication => m.failForAuthentication env i
    | .csrf => m.failForAuthentication env i
    | .state .notSeen => m.handleGone env i retryAfterCheck
    | .state .rejected => m.handleGone env i retryAfterCheck
    | .state .committed => (m.resolveUnknown env i).complete env i
    | .state .awaitingConfirmation => m.handleStaged env i u classification.protocol response
    | .state .running => m.handleResumable env i u retryAfterCheck classification.protocol
    | .state .unknown =>
      m.unknown env i (if response.status = 429 ∨ response.status = 503 then
        ⟨.queryUpload, response.retryAfter, now⟩ else .none)
    | .state .notStarted => m.unknown env i (.atOnce .queryUpload)
    | .invalid => m.unknown env i (.atOnce .queryUpload)

/-- The rest of `queryCheckpoint` with an error, whose advice is given. -/
def checkpointFailed (queryingUnknown : Bool) (recovery : Recovery) : Manager :=
  let m := (m.settled i).modify i fun u => { u with abortable := false }
  if queryingUnknown then
    m.unknown env i (if recovery.action = .queryUpload then recovery else .none)
  else m.fail env i recovery

/-! ### Discarding -/

/-- The discard failed or was not understood: the rest of `reconcileDiscard` follows. -/
def reconcileDiscard : Manager :=
  m.modify i fun u => { u with awaiting := .reconcile restartAfterDiscard }

/-- Nothing is known of the discard. -/
def failDiscard : Manager :=
  m.fail env i (if restartAfterDiscard then .atOnce .retry else .none)

/-- `assertDiscardUploadResponse` and what follows it. -/
def discardReply (response : Response) : Manager :=
  let m := m.settled i
  match m.uploaders i with
  | none => m
  | some u =>
    let classification := u.classify .discard response
    match classification.kind with
    | .authentication => m.failForAuthentication env i
    | .csrf => m.failForAuthentication env i
    | .state .rejected =>
      if classification.protocol.bind offset = some u.size then
        m.finishDiscard env i restartAfterDiscard
      else m.reconcileDiscard i restartAfterDiscard
    | _ => m.reconcileDiscard i restartAfterDiscard

def discardFailed (authentication : Bool) : Manager :=
  let m := m.settled i
  if authentication then m.failForAuthentication env i
  else m.reconcileDiscard i restartAfterDiscard

def reconcileReply (response : Response) : Manager :=
  let m := m.settled i
  match m.uploaders i with
  | none => m
  | some u =>
    match (u.classify .checkpoint response).kind with
    | .state .rejected => m.finishDiscard env i restartAfterDiscard
    | .state .notSeen => m.finishDiscard env i restartAfterDiscard
    | .state .committed => m.complete env i
    | .authentication => m.failForAuthentication env i
    | .csrf => m.failForAuthentication env i
    | _ => m.failDiscard env i restartAfterDiscard

def reconcileFailed (authentication : Bool) : Manager :=
  let m := m.settled i
  if authentication then m.failForAuthentication env i
  else m.failDiscard env i restartAfterDiscard

/-! ### Recovering -/

/-- The row of the uploader counts as pending, if it did not before. -/
def accountPending : Manager :=
  match m.uploaders i with
  | some u =>
    if u.pendingAccounted then m
    else
      { m.modify i fun u => { u with pendingAccounted := true } with
        pendingRows := m.pendingRows + 1 }
  | none => m

/-- `enqueue` of an uploader that has a row. -/
def enqueue (recovery : UploadRecoveryAction) : Manager :=
  let m := (m.removeTerminalRow i).accountPending i
  let queued := m.queue.enqueue i
  let m := m.modify i fun u =>
    { u with state := .queued, pendingRecovery := recovery, queueEntry := some queued.2 }
  runQueue env { m with queue := queued.1 }

/-- The uploader of an unknown outcome asks for it outside of the queue. -/
def recheckUnknown : Manager :=
  let m := (m.removeTerminalRow i).accountPending i
  let m := { m.modify i fun u => { u with state := .running, runningAccounted := true } with
    running := m.running + 1 }
  m.queryCheckpoint i true false

def recover (recovery : UploadRecoveryAction) : Manager :=
  match m.uploaders i with
  | none => m
  | some u =>
    let resolvingUnknown := decide (i ∈ m.unresolvedUnknown)
    if u.recoveryAction ≠ recovery ∨ u.recoveryAvailableAt.all (fun t => decide (now < t)) then m
    else if m.queueState ≠ .running ∧
        ¬ (recovery = .queryUpload ∧ resolvingUnknown = true) then m
    else if u.pendingAccounted = false ∧ ¬ m.hasPendingCapacity 1 then m
    else if u.name ∈ m.knownTargets then m
    else if i ∉ m.failed then m
    else
      let m := { m with
        failed := m.failed.erase i
        knownTargets := insert u.name m.knownTargets }
      let m := m.clearRecovery i
      if resolvingUnknown then m.recheckUnknown i else m.enqueue env i recovery

/-- The delay of a recovery has passed. -/
def recoveryTimer : Manager :=
  m.modify i fun u => { u with recoveryAvailableAt := some 0, recoveryTimer := false }

end DufsRam.Client.Manager
