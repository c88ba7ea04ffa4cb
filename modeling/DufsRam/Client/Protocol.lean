import Mathlib.Tactic.IntervalCases
import DufsRam.Upload.Protocol

/-!
# The upload protocol as the web client reads it

`classifyUploadResponse` and `parseBoundUploadProtocol` of `clients/web/modules/upload/protocol.js`
with `parseUnsignedHeader` of `http/headers.js`, and the headers that `apply_upload_record_headers`
of the server writes. The names of headers are compared without regard to case, so that each of them
is one constructor here.
-/

namespace DufsRam.Client

inductive HeaderName where
  | uploadId
  | operationState
  | uploadLength
  | uploadOffset
  | targetRevision
  | targetReplaceable
  deriving DecidableEq

abbrev Headers := HeaderName → Option String

/-! ### Numbers -/

/-- `Number.MAX_SAFE_INTEGER`. -/
def maxSafeInteger : ℕ := 2 ^ 53 - 1

/-- The expression `/^(0|[1-9][0-9]*)$/`. -/
def isCanonicalUnsigned : List Char → Bool
  | [] => false
  | ['0'] => true
  | c :: rest => decide ('1' ≤ c ∧ c ≤ '9') && rest.all Char.isDigit

/-- `Number(value)` is exact up to the largest safe integer, and no larger value is rounded to a
safe one. -/
def parseUnsignedHeader (value : Option String) : Option ℕ :=
  match value with
  | none => none
  | some value =>
    if isCanonicalUnsigned value.toList ∧ Nat.ofDigitChars 10 value.toList 0 ≤ maxSafeInteger then
      some (Nat.ofDigitChars 10 value.toList 0)
    else none

/-! ### The matrix of states -/

inductive UploadRequestPhase where
  | fresh
  | resume
  | checkpoint
  | discard
  deriving DecidableEq

inductive FieldPresence where
  | absent
  | optional
  | required
  deriving DecidableEq

structure UploadStateRule where
  length : FieldPresence
  offset : FieldPresence
  deriving DecidableEq

def freshUploadStatuses : UploadPublicState → List ℕ
  | .running => [408, 409]
  | .awaitingConfirmation => [409]
  | .committed => [200, 201]
  | .rejected => [408, 409, 413, 500, 507]
  | .notSeen => [404]
  | .notStarted => [403, 404, 408, 409, 429, 503]
  | .unknown => [408, 500, 503, 504]

def resumeUploadStatuses : UploadPublicState → List ℕ
  | .running => [408, 409, 413, 500, 507]
  | .awaitingConfirmation => [408, 409, 413, 500, 507]
  | .committed => [200, 204]
  | .rejected => [408, 409, 413, 500, 507]
  | .notSeen => [404]
  | .notStarted => [403, 404, 408, 409, 429, 503]
  | .unknown => [408, 500, 503, 504]

def checkpointUploadStatuses : UploadPublicState → List ℕ
  | .running => [200]
  | .awaitingConfirmation => [409]
  | .committed => [200]
  | .rejected => [409]
  | .notSeen => [404]
  | .notStarted => []
  | .unknown => [429, 500, 503]

def discardUploadStatuses : UploadPublicState → List ℕ
  | .rejected => [204]
  | _ => []

/-- `UPLOAD_RESPONSE_STATUS_MATRIX`. -/
def uploadResponseStatuses : UploadRequestPhase → UploadPublicState → List ℕ
  | .fresh => freshUploadStatuses
  | .resume => resumeUploadStatuses
  | .checkpoint => checkpointUploadStatuses
  | .discard => discardUploadStatuses

/-- `UPLOAD_STATE_RULES`. -/
def uploadStateRule : UploadPublicState → UploadStateRule
  | .running => ⟨.required, .required⟩
  | .awaitingConfirmation => ⟨.required, .required⟩
  | .committed => ⟨.required, .required⟩
  | .rejected => ⟨.required, .optional⟩
  | .notSeen => ⟨.absent, .absent⟩
  | .notStarted => ⟨.required, .optional⟩
  | .unknown => ⟨.optional, .optional⟩

/-- `isUploadProtocolState`, with the state it finds. -/
def uploadProtocolState : String → Option UploadPublicState
  | "running" => some .running
  | "awaiting-confirmation" => some .awaitingConfirmation
  | "committed" => some .committed
  | "rejected" => some .rejected
  | "not-seen" => some .notSeen
  | "not-started" => some .notStarted
  | "unknown" => some .unknown
  | _ => none

/-! ### Classification -/

structure BoundUploadProtocol where
  uploadId : String
  state : UploadPublicState
  length : Option ℕ
  offset : Option ℕ
  deriving DecidableEq

inductive ClassificationKind where
  | authentication
  | csrf
  | invalid
  | state (state : UploadPublicState)
  deriving DecidableEq

structure UploadClassification where
  kind : ClassificationKind
  protocol : Option BoundUploadProtocol
  outcomeUnknown : Bool
  deriving DecidableEq

/-- `matchesBoundField`, where the bound is that of a length or of an offset. -/
def matchesBoundField (rawValue : Option String) (parsedValue : Option ℕ)
    (presence : FieldPresence) (bound : ℕ → Bool) : Bool :=
  match presence, rawValue with
  | .absent, rawValue => rawValue.isNone
  | presence, none => decide (presence = .optional)
  | _, some _ => parsedValue.any bound

def parseBoundUploadProtocol (headers : Headers) (expectedUploadId : String)
    (expectedLength : ℕ) : Option BoundUploadProtocol :=
  if maxSafeInteger < expectedLength then none
  else
    let uploadId := (headers .uploadId).getD ""
    match uploadProtocolState ((headers .operationState).getD "") with
    | none => none
    | some state =>
      let rule := uploadStateRule state
      let length := parseUnsignedHeader (headers .uploadLength)
      let offset := parseUnsignedHeader (headers .uploadOffset)
      if uploadId ≠ expectedUploadId then none
      else if matchesBoundField (headers .uploadLength) length rule.length
          (fun n => decide (n = expectedLength)) = false then none
      else if matchesBoundField (headers .uploadOffset) offset rule.offset
          (fun n => decide (n ≤ expectedLength)) = false then none
      else some ⟨uploadId, state, length, offset⟩

structure UploadResponseOptions where
  phase : UploadRequestPhase
  errorCode : Option String
  status : ℕ
  headers : Headers
  expectedUploadId : String
  expectedLength : ℕ

/-- The status does not belong to the state, or the state needs another offset. -/
def UploadResponseOptions.contradicts (options : UploadResponseOptions)
    (protocol : BoundUploadProtocol) : Bool :=
  !(uploadResponseStatuses options.phase protocol.state).contains options.status ||
  (decide (options.phase = .checkpoint) && decide (options.status = 429) &&
    decide (protocol.state = .unknown) &&
    (protocol.length.isSome || protocol.offset.isSome)) ||
  (decide (protocol.state = .committed) &&
    decide (protocol.offset ≠ some options.expectedLength)) ||
  (decide (options.phase = .discard) && decide (protocol.state = .rejected) &&
    decide (protocol.offset ≠ some options.expectedLength))

def classifyUploadResponse (options : UploadResponseOptions) : UploadClassification :=
  if options.status < 100 ∨ 599 < options.status then ⟨.invalid, none, true⟩
  else if options.status = 401 then ⟨.authentication, none, false⟩
  else if options.status = 403 ∧ options.errorCode = some "auth.csrf_rejected" then
    ⟨.csrf, none, false⟩
  else
    match parseBoundUploadProtocol options.headers options.expectedUploadId
        options.expectedLength with
    | none => ⟨.invalid, none, true⟩
    | some protocol =>
      if options.contradicts protocol then ⟨.invalid, some protocol, true⟩
      else ⟨.state protocol.state, some protocol, decide (protocol.state = .unknown) ||
        (decide (protocol.state = .running) && decide (options.phase ≠ .checkpoint))⟩

/-! ### The target -/

def isLowerHex (c : Char) : Bool := decide ('0' ≤ c ∧ c ≤ '9') || decide ('a' ≤ c ∧ c ≤ 'f')

/-- The expression `/^[0-9a-f]{64}$/`. -/
def isRevision (value : String) : Bool := decide (value.length = 64) && value.toList.all isLowerHex

def parseTargetRevision (headers : Headers) : Option String :=
  (headers .targetRevision).filter isRevision

def parseTargetReplaceable (headers : Headers) : Option Bool :=
  match headers .targetReplaceable with
  | some "true" => some true
  | some "false" => some false
  | _ => none

/-! ### A header that the server writes -/

lemma isCanonicalUnsigned_toDigits_pos {n : ℕ} (h : 0 < n) :
    ∃ c rest, Nat.toDigits 10 n = c :: rest ∧ '1' ≤ c ∧ c ≤ '9' ∧ rest.all Char.isDigit = true := by
  induction n using Nat.strongRecOn with
  | ind n ih =>
    by_cases hn : n < 10
    · rw [Nat.toDigits_of_lt_base hn]
      refine ⟨n.digitChar, [], rfl, ?_⟩
      interval_cases n <;> decide
    · have hlast : (Nat.digitChar (n % 10)).isDigit = true := by
        have := Nat.mod_lt n (by decide : 0 < 10)
        interval_cases n % 10 <;> decide
      obtain ⟨c, rest, heq, hlow, hhigh, hrest⟩ := ih (n / 10) (by omega) (by omega)
      refine ⟨c, rest ++ [Nat.digitChar (n % 10)], ?_, hlow, hhigh, ?_⟩
      · rw [Nat.toDigits_of_base_le (by decide) (by omega), heq]
        rfl
      · simpa [hlast] using hrest

lemma isCanonicalUnsigned_toDigits (n : ℕ) : isCanonicalUnsigned (Nat.toDigits 10 n) = true := by
  rcases Nat.eq_zero_or_pos n with rfl | hpos
  · rfl
  · obtain ⟨c, rest, heq, hlow, hhigh, hrest⟩ := isCanonicalUnsigned_toDigits_pos hpos
    rw [heq]
    unfold isCanonicalUnsigned
    split
    case h_1 hnil => cases hnil
    case h_2 => rfl
    case h_3 hcons =>
      cases hcons
      simp [hlow, hhigh, hrest]

/-- The client reads back a number that the server writes. -/
lemma parseUnsignedHeader_toString {n : ℕ} (h : n ≤ maxSafeInteger) :
    parseUnsignedHeader (some (toString n)) = some n := by
  have hvl : Nat.ofDigitChars 10 (Nat.toDigits 10 n) 0 = n := Nat.ofDigitChars_ten_toDigits
  simp [parseUnsignedHeader, isCanonicalUnsigned_toDigits, hvl, h]

end DufsRam.Client
