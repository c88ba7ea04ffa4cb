import DufsRam.Lib.Table
import DufsRam.StateStore.Model

/-!
# The tables of the state database

The rows of `CURRENT_SCHEMA` with their `CHECK` clauses. A row whose columns break a clause cannot
be stored: the statement fails and its transaction is rolled back.
-/

namespace DufsRam

open Relational

/-- The result of a statement, which fails when it would violate a constraint. -/
def constrained {α : Type} : Option α → Result α
  | some a => .ok a
  | none => .error "constraint failed"

lemma constrained_eq_ok_iff {α : Type} {o : Option α} {a : α} :
    constrained o = .ok a ↔ o = some a := by
  cases o <;> simp [constrained]

/-! ### Operations -/

structure OperationRow where
  key : OperationKey
  fingerprint : Fingerprint
  leaseToken : Uuid
  state : OperationState
  terminalState : Option StoredTerminalState
  httpStatus : Option Int
  errorCode : Option String
  createdAtMs : TimeMs
  updatedAtMs : TimeMs
  expiresAtMs : Option TimeMs
  deriving DecidableEq

/-- The columns of an operation that has not finished are null. -/
def OperationRow.pending (r : OperationRow) : Bool :=
  r.terminalState.isNone && r.httpStatus.isNone && r.errorCode.isNone && r.expiresAtMs.isNone

/-- The columns of a finished operation hold a valid outcome. -/
def OperationRow.finished (r : OperationRow) : Bool :=
  match r.terminalState, r.httpStatus, r.expiresAtMs with
  | some terminal, some status, some _ =>
    decide (100 ≤ status ∧ status ≤ 599) &&
      match terminal with
      | .succeeded => successfulStatus status && r.errorCode.isNone
      | .failed | .unknown => !successfulStatus status && r.errorCode.isSome
  | _, _, _ => false

/-- `length` of SQLite counts the characters of a text before its first NUL. -/
def textLength (text : String) : Nat := (text.toList.takeWhile (· ≠ '\x00')).length

def OperationRow.check (r : OperationRow) : Bool :=
  (match r.errorCode with
    | some code => decide (1 ≤ textLength code ∧ textLength code ≤ maxErrorCodeChars)
    | none => true) &&
  match r.state with
  | .reserved | .commitStarted => r.pending
  | .completed => r.finished

def operationSchema : Schema OperationRow OperationKey Empty :=
  ⟨OperationRow.key, fun _ => none, OperationRow.check⟩

@[simp] lemma operationSchema_key (r : OperationRow) : operationSchema.key r = r.key := rfl

@[simp] lemma operationSchema_check (r : OperationRow) : operationSchema.check r = r.check := rfl

/-! ### Upload sessions -/

structure UploadRow where
  session : StoredUploadSession
  updatedAtMs : TimeMs
  expiresAtMs : TimeMs
  deriving DecidableEq

def storedPathLength (p : RelPath) : Bool := 1 ≤ p.byteLength ∧ p.byteLength ≤ 65536

def UploadRow.check (r : UploadRow) : Bool :=
  storedPathLength r.session.targetPath && storedPathLength r.session.stagePath &&
  decide (r.session.uploadLength ≤ i64Max) &&
  decide (r.session.targetPath ≠ r.session.stagePath) &&
  decide (r.session.durableOffset ≤ r.session.uploadLength) &&
  (!r.session.state.fullyDurable || decide (r.session.durableOffset = r.session.uploadLength))

def uploadSchema : Schema UploadRow UploadSessionKey Empty :=
  ⟨fun r => r.session.key, fun _ => none, UploadRow.check⟩

@[simp] lemma uploadSchema_key (r : UploadRow) : uploadSchema.key r = r.session.key := rfl

@[simp] lemma uploadSchema_check (r : UploadRow) : uploadSchema.check r = r.check := rfl

/-! ### Purge jobs -/

structure PurgeRow where
  job : StoredPurgeJob
  nextAttemptAtMs : TimeMs
  createdAtMs : TimeMs
  updatedAtMs : TimeMs
  deriving DecidableEq

def PurgeRow.check (r : PurgeRow) : Bool :=
  storedPathLength r.job.targetPath && storedPathLength r.job.trashPath &&
  decide (r.job.attempts ≤ 4294967295) && decide (r.job.targetPath ≠ r.job.trashPath)

/-- The trash paths of the jobs are unique. -/
def purgeSchema : Schema PurgeRow PurgeJobKey RelPath :=
  ⟨fun r => r.job.key, fun r => some r.job.trashPath, PurgeRow.check⟩

@[simp] lemma purgeSchema_key (r : PurgeRow) : purgeSchema.key r = r.job.key := rfl

/-! ### The database -/

structure Database where
  operations : Table operationSchema
  uploadSessions : Table uploadSchema
  purgeJobs : Table purgeSchema

def Database.empty : Database := ⟨.empty, .empty, .empty⟩

structure Limits where
  capacity : Nat
  perOwner : Nat
  ttlMs : TimeMs
  uploadTtlMs : TimeMs
  uploadCapacity : Nat
  uploadPerOwner : Nat
  purgeCapacity : Nat
  purgePerOwner : Nat
  deriving DecidableEq

end DufsRam
