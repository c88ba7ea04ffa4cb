import Mathlib.Algebra.Group.Int.Defs
import Mathlib.Algebra.Group.Nat.Defs
import Mathlib.Data.List.Lex
import Mathlib.Data.String.Basic

/-!
# The data of the state store

The values that the actor thread of the state store exchanges with the server and keeps in its
database (`state_store/model.rs` and the constants of `state_store.rs`). A digest or identifier of
`n` bytes is a bit vector of `8 * n` bits, so that the order of the bit vectors is the byte order
in which SQLite sorts them.
-/

namespace DufsRam

/-- The result of a fallible function, with the message of the error it raises. -/
abbrev Result (α : Type) := Except String α

/-- `ensure!` of the source: fail with the message unless the condition holds. -/
def ensure (c : Prop) [Decidable c] (message : String) : Result Unit :=
  if c then .ok () else .error message

lemma ensure_eq_ok_iff {c : Prop} [Decidable c] {msg : String} : ensure c msg = .ok () ↔ c := by
  unfold ensure
  split <;> simp [*]

lemma Result.bind_eq_ok_iff {α β : Type} {x : Result α} {f : α → Result β} {b : β} :
    (x >>= f) = .ok b ↔ ∃ a, x = .ok a ∧ f a = .ok b := by
  cases x <;> simp [bind, Except.bind]

lemma Result.map_eq_ok_iff {α β : Type} {x : Result α} {f : α → β} {b : β} :
    f <$> x = .ok b ↔ ∃ a, x = .ok a ∧ f a = b := by
  cases x <;> simp [Functor.map, Except.map]

/-- A path relative to the shared root, as its components. -/
abbrev RelPath := List String

abbrev OwnerDigest := BitVec 256

abbrev Uuid := BitVec 128

abbrev Fingerprint := BitVec 256

/-- The digest of a target or trash entry. -/
abbrev Revision := BitVec 256

/-- A time in milliseconds, kept in an `i64`. -/
abbrev TimeMs := Int

def i64Min : Int := -2 ^ 63

def i64Max : Int := 2 ^ 63 - 1

/-- `expiration_time`: a checked addition. -/
def expirationTime (now ttlMs : TimeMs) : Result TimeMs :=
  if i64Min ≤ now + ttlMs ∧ now + ttlMs ≤ i64Max then .ok (now + ttlMs)
  else .error "Operation expiration time overflowed"

lemma expirationTime_eq_ok {now ttlMs e : TimeMs} (h : expirationTime now ttlMs = .ok e) :
    e = now + ttlMs := by
  unfold expirationTime at h
  split at h
  · exact (Except.ok.inj h).symm
  · cases h

/-- The primary key of every table: an owner and an identifier the client chose. -/
structure StoreKey where
  owner : OwnerDigest
  id : Uuid
  deriving DecidableEq

abbrev OperationKey := StoreKey

abbrev UploadSessionKey := StoreKey

abbrev PurgeJobKey := StoreKey

/-! ### Operations -/

/-- The states `OPERATION_RESERVED`, `OPERATION_COMMIT_STARTED` and `OPERATION_COMPLETED`. -/
inductive OperationState where
  | reserved
  | commitStarted
  | completed
  deriving DecidableEq

inductive StoredTerminalState where
  | succeeded
  | failed
  | unknown
  deriving DecidableEq

def unknownStatus : UInt16 := 500

def unknownCode : String := "outcome_uncertain"

def maxErrorCodeChars : Nat := 128

structure StoredOutcome where
  status : UInt16
  state : StoredTerminalState
  code : Option String
  deriving DecidableEq

/-- The outcome of an operation whose effect the server does not know. -/
def StoredOutcome.uncertain : StoredOutcome where
  status := unknownStatus
  state := .unknown
  code := some unknownCode

/-- The HTTP statuses that report success. -/
def successfulStatus (status : Int) : Bool := 200 ≤ status ∧ status ≤ 299

def StoredOutcome.validate (o : StoredOutcome) : Result Unit := do
  ensure (100 ≤ o.status ∧ o.status ≤ 599) "Stored operation status must be a valid HTTP status"
  match o.state with
  | .succeeded =>
    ensure (successfulStatus o.status.toNat)
      "A succeeded operation must have a successful HTTP status"
    ensure (o.code.isNone) "A succeeded operation cannot have an error code"
  | .failed | .unknown =>
    ensure (¬ successfulStatus o.status.toNat)
      "A failed or unknown operation cannot have a successful HTTP status"
    ensure (o.code.isSome) "A failed or unknown operation must have an error code"
  match o.code with
  | some code =>
    ensure (1 ≤ code.length ∧ code.length ≤ maxErrorCodeChars)
      "Stored operation error code is empty or too long"
  | none => pure ()

example : StoredOutcome.uncertain.validate = .ok () := by decide

inductive StoreBegin where
  | started (lease : Uuid)
  | running
  | replay (outcome : StoredOutcome)
  | conflict
  | full
  deriving DecidableEq

inductive StoreStatus where
  | running
  | completed (outcome : StoredOutcome)
  | notFound
  deriving DecidableEq

/-! ### Upload sessions -/

structure StoredFileIdentity where
  device : UInt64
  inode : UInt64
  deriving DecidableEq

inductive StoredUploadState where
  | running
  | commitStarted
  | committed
  | rejected
  | unknown
  | awaitingConfirmation
  deriving DecidableEq

def StoredUploadState.isTerminal : StoredUploadState → Bool
  | .committed | .rejected | .unknown => true
  | .running | .commitStarted | .awaitingConfirmation => false

/-- The number of bytes of a path as the database stores it. -/
def RelPath.byteLength (p : RelPath) : Nat := (String.intercalate "/" p).utf8ByteSize

def validateStoredPath (p : RelPath) (description : String) : Result Unit := do
  ensure (p.byteLength ≠ 0) (description ++ " path cannot be empty")
  ensure (p.byteLength ≤ 65536) (description ++ " path is too long for the state database")
  ensure (∀ c ∈ p, '\x00' ∉ c.toList) (description ++ " path contains a NUL byte")

structure StoredUploadSession where
  key : UploadSessionKey
  targetPath : RelPath
  stagePath : RelPath
  uploadLength : Nat
  durableOffset : Nat
  state : StoredUploadState
  stageIdentity : Option StoredFileIdentity
  targetRevision : Option Revision
  deriving DecidableEq

/-- The states in which a session has all of its bytes. -/
def StoredUploadState.fullyDurable : StoredUploadState → Bool
  | .commitStarted | .committed | .awaitingConfirmation => true
  | .running | .rejected | .unknown => false

def StoredUploadSession.validate (s : StoredUploadSession) : Result Unit := do
  validateStoredPath s.targetPath "Upload target"
  validateStoredPath s.stagePath "Upload stage"
  ensure (s.targetPath ≠ s.stagePath) "Upload target and stage paths must differ"
  ensure (s.durableOffset ≤ s.uploadLength) "Upload durable offset exceeds its declared length"
  ensure (s.uploadLength ≤ i64Max) "Upload length cannot be represented by SQLite"
  ensure (s.durableOffset ≤ i64Max) "Upload offset cannot be represented by SQLite"
  if s.state.fullyDurable then
    ensure (s.durableOffset = s.uploadLength)
      "A committing or committed upload must be fully durable"
  else pure ()

/-- The replies of saving an upload session. -/
inductive StoreUploadSession where
  | inserted
  | updated
  | unchanged
  | conflict
  | full
  deriving DecidableEq

structure ExpiredUploadSession where
  session : StoredUploadSession
  expiresAtMs : TimeMs
  deriving DecidableEq

/-- The replies of rejecting an upload session. -/
inductive RejectUploadSession where
  | notFound
  | bindingConflict
  | stateConflict (session : StoredUploadSession)
  | rejected (session : StoredUploadSession)
  deriving DecidableEq

/-! ### Purge jobs -/

inductive StoredPurgeState where
  | prepared
  | ready
  | claimed
  deriving DecidableEq

structure StoredPurgeJob where
  key : PurgeJobKey
  targetPath : RelPath
  trashPath : RelPath
  sourceIdentity : StoredFileIdentity
  trashRevision : Option Revision
  isDirectory : Bool
  state : StoredPurgeState
  attempts : Nat
  deriving DecidableEq

def StoredPurgeJob.validateNew (j : StoredPurgeJob) : Result Unit := do
  validateStoredPath j.targetPath "Purge target"
  validateStoredPath j.trashPath "Purge trash"
  ensure (j.targetPath ≠ j.trashPath) "Purge target and trash paths must differ"
  ensure (j.state = .prepared) "A new purge job must start in the prepared state"
  ensure (j.trashRevision.isNone) "A new purge job cannot have a trash revision"
  ensure (j.attempts = 0) "A new purge job cannot have attempts"

/-- The replies of preparing a purge job. -/
inductive StorePurgeJob where
  | inserted
  | existing
  | conflict
  | full
  deriving DecidableEq

/-! ### Blocking paths -/

structure StatePathCursor where
  kind : Nat
  owner : OwnerDigest
  id : Uuid
  slot : Nat
  deriving DecidableEq

structure StateBlockingPath where
  path : RelPath
  allowsExactReplacement : Bool
  deriving DecidableEq

structure StatePathPage where
  paths : List StateBlockingPath
  next : Option StatePathCursor
  deriving DecidableEq

end DufsRam
