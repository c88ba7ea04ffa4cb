import DufsRam.StateStore.Model

/-!
# The upload protocol on the wire

Requests and responses of an upload (`upload/protocol.rs`, `protocol.rs`, `problem.rs` and the
helpers of `upload.rs` and `upload/target.rs` that render a response). The upload identifier is the
same throughout a session and is left out.
-/

namespace DufsRam

inductive StatusCode where
  | ok
  | created
  | noContent
  | notFound
  | requestTimeout
  | conflict
  | payloadTooLarge
  | tooManyRequests
  | internalServerError
  | serviceUnavailable
  | gatewayTimeout
  | insufficientStorage
  deriving DecidableEq

def StatusCode.asU16 : StatusCode → ℕ
  | ok => 200
  | created => 201
  | noContent => 204
  | notFound => 404
  | requestTimeout => 408
  | conflict => 409
  | payloadTooLarge => 413
  | tooManyRequests => 429
  | internalServerError => 500
  | serviceUnavailable => 503
  | gatewayTimeout => 504
  | insufficientStorage => 507

inductive UploadPublicState where
  | running
  | awaitingConfirmation
  | committed
  | rejected
  | notSeen
  | notStarted
  | unknown
  deriving DecidableEq

def UploadPublicState.wireName : UploadPublicState → String
  | running => "running"
  | awaitingConfirmation => "awaiting-confirmation"
  | committed => "committed"
  | rejected => "rejected"
  | notSeen => "not-seen"
  | notStarted => "not-started"
  | unknown => "unknown"

inductive RecoveryAdvice where
  | none
  | retry
  | retryAfterSeconds (seconds : Nat)
  | retryWithNewId
  | resumeUpload
  | queryUpload
  | queryJob
  | refreshTarget
  deriving DecidableEq

/-- The error codes an upload request can be answered with. -/
inductive ErrorCode where
  | destinationExists
  | pathWaitConcurrencyLimit
  | requestTimeout
  | uploadBodyExceedsRemainingLength
  | uploadCheckpointPersistFailed
  | uploadCommittedLengthMismatch
  | uploadConcurrencyLimit
  | uploadIdRejected
  | uploadIdleTimeout
  | uploadInProgress
  | uploadInsufficientStorage
  | uploadLengthChanged
  | uploadLengthMismatch
  | uploadMetadataPreservationRefused
  | uploadNotPublished
  | uploadOffsetChanged
  | uploadOutcomeUnknown
  | uploadPathWaitTimeout
  | uploadPrecommitFailed
  | uploadPublicationDurabilityUnknown
  | uploadPublicationOutcomeUnknown
  | uploadResultUnknown
  | uploadSessionConflict
  | uploadSessionNotFound
  | uploadSessionStoreFull
  | uploadSizeLimitExceeded
  | uploadStageConflict
  | uploadStageInvalid
  | uploadStateConflict
  | uploadStateUnavailable
  | uploadTargetChanged
  | uploadTargetInspectionTimeout
  | uploadTargetNotFound
  | uploadTerminalRecordFailed
  deriving DecidableEq

/-! ### Requests -/

inductive UploadMode where
  | fresh
  | resume (offset : Nat)
  deriving DecidableEq

def UploadMode.offset : UploadMode → Option Nat
  | .fresh => none
  | .resume offset => some offset

def UploadMode.isResume : UploadMode → Bool
  | .fresh => false
  | .resume _ => true

lemma UploadMode.offset_of_fresh {m : UploadMode} (h : m.isResume = false) : m.offset = none := by
  cases m with
  | fresh => rfl
  | resume offset => cases h

lemma UploadMode.resume_of_offset {m : UploadMode} {k : ℕ} (h : m.offset = some k) :
    m.isResume = true := by
  cases m with
  | fresh => cases h
  | resume offset => rfl

inductive UploadOverwritePolicy where
  | noReplace
  | ifUnchanged (revision : Revision)
  deriving DecidableEq

def UploadOverwritePolicy.revision : UploadOverwritePolicy → Option Revision
  | .noReplace => none
  | .ifUnchanged revision => some revision

/-- What the body stream yields next. The end of the list is the end of the body. -/
inductive BodyEvent where
  | chunk (bytes : List UInt8)
  /-- The stream fails. -/
  | failure
  /-- The server is shut down by force. -/
  | shutdown
  /-- No frame arrived before the idle deadline. -/
  | idle
  /-- No frame arrived before the deadline of the whole upload. -/
  | total
  deriving DecidableEq

def BodyEvent.bytes : BodyEvent → List UInt8
  | .chunk bytes => bytes
  | .failure | .shutdown | .idle | .total => []

structure UploadRequest where
  mode : UploadMode
  uploadLength : Nat
  overwrite : UploadOverwritePolicy
  contentLength : Option Nat
  body : List BodyEvent
  deriving DecidableEq

namespace UploadRequest

/-- The bytes the client sends. -/
def bytes (r : UploadRequest) : List UInt8 := r.body.flatMap BodyEvent.bytes

def initialOffset (r : UploadRequest) : Nat := r.mode.offset.getD 0

def requestedRevision (r : UploadRequest) : Option Revision := r.overwrite.revision

end UploadRequest

/-! ### Responses -/

structure UploadErrorContext where
  state : UploadPublicState
  uploadLength : Option Nat
  uploadOffset : Option Nat
  deriving DecidableEq

structure UploadProblem where
  context : UploadErrorContext
  code : ErrorCode
  detail : String
  recovery : RecoveryAdvice
  deriving DecidableEq

structure UploadTargetInspection where
  exists_ : Bool
  replaceable : Bool
  revision : Option Revision
  deriving DecidableEq

/-- The status, the headers of an upload and the problem in the body. -/
structure UploadResponse where
  status : StatusCode := .ok
  state : Option UploadPublicState := none
  uploadLength : Option Nat := none
  uploadOffset : Option Nat := none
  target : Option UploadTargetInspection := none
  problem : Option UploadProblem := none
  deriving DecidableEq

/-- `Response::default()`. -/
def UploadResponse.empty : UploadResponse := {}

def applyTargetInspectionHeaders (inspection : UploadTargetInspection) (res : UploadResponse) :
    UploadResponse :=
  { res with target := some inspection }

/-- A header that is not given is left as it was. -/
def applyUploadRecordHeaders (uploadLength uploadOffset : Option Nat) (state : UploadPublicState)
    (res : UploadResponse) : UploadResponse :=
  { res with
    state := some state
    uploadLength := uploadLength <|> res.uploadLength
    uploadOffset := uploadOffset <|> res.uploadOffset }

def applyUploadProblem (context : UploadErrorContext) (status : StatusCode) (code : ErrorCode)
    (detail : String) (recovery : RecoveryAdvice) (res : UploadResponse) : UploadResponse :=
  applyUploadRecordHeaders context.uploadLength context.uploadOffset context.state
    { res with status := status, problem := some ⟨context, code, detail, recovery⟩ }

def applyUploadUnknown (message : String) (res : UploadResponse) : UploadResponse :=
  applyUploadProblem ⟨.unknown, none, none⟩ .requestTimeout .uploadOutcomeUnknown message
    .queryUpload res

def applyAwaitingConfirmationProblem (uploadLength : Nat) (status : StatusCode) (code : ErrorCode)
    (message : String) : UploadResponse :=
  applyUploadProblem ⟨.awaitingConfirmation, some uploadLength, some uploadLength⟩ status code
    message .queryUpload .empty

/-- The answer to a request that was stopped before it changed anything: it repeats the length
and the offset the client declared. -/
def UploadRequest.notStarted (r : UploadRequest) (status : StatusCode) (code : ErrorCode)
    (detail : String) (recovery : RecoveryAdvice) : UploadResponse :=
  applyUploadProblem ⟨.notStarted, some r.uploadLength, r.mode.offset⟩ status code detail recovery
    .empty

/-- The answer to a request whose outcome the server cannot tell, with the same echo. -/
def UploadRequest.uncertain (r : UploadRequest) (status : StatusCode) (code : ErrorCode)
    (detail : String) (recovery : RecoveryAdvice) : UploadResponse :=
  applyUploadProblem ⟨.unknown, some r.uploadLength, r.mode.offset⟩ status code detail recovery
    .empty

/-- The reasons for which `router/dispatch.rs` turns an upload away before it is handled. -/
inductive UploadRejection where
  | hiddenTarget
  | pathWaitLimit
  | pathWaitTimeout
  | uploadLimit
  | inspectionTimeout
  | stateConflict
  | stateUnavailable
  | stateTimeout
  deriving DecidableEq

/-- `render_upload_rejection` at each of its call sites. -/
def UploadRequest.rejection (r : UploadRequest) : UploadRejection → UploadResponse
  | .hiddenTarget =>
    r.notStarted .notFound .uploadTargetNotFound "Upload target not found" .none
  | .pathWaitLimit =>
    r.notStarted .tooManyRequests .pathWaitConcurrencyLimit
      "Too many path-coordinated requests are active" (.retryAfterSeconds 1)
  | .pathWaitTimeout =>
    r.notStarted .requestTimeout .uploadPathWaitTimeout
      "Upload timed out while waiting for the target path" .retry
  | .uploadLimit =>
    r.notStarted .tooManyRequests .uploadConcurrencyLimit "Too many concurrent uploads"
      (.retryAfterSeconds 1)
  | .inspectionTimeout =>
    r.notStarted .requestTimeout .uploadTargetInspectionTimeout
      "Upload timed out while inspecting the target" .retry
  | .stateConflict =>
    r.notStarted .conflict .uploadStateConflict
      "Upload target conflicts with an active upload or pending delete" .refreshTarget
  | .stateUnavailable =>
    r.notStarted .serviceUnavailable .uploadStateUnavailable
      "Upload safety state is temporarily unavailable" (.retryAfterSeconds 1)
  | .stateTimeout =>
    r.notStarted .requestTimeout .requestTimeout
      "Upload timed out while inspecting durable safety state" .retry

end DufsRam
