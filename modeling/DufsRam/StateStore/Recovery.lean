import DufsRam.StateStore.Operation

/-!
# Recovery of the database after a restart

`recover_database` runs before the store accepts commands. Work that had not reached its commit is
forgotten, work that had reached it has an unknown outcome, and no expiry lies further away than a
full retention period.
-/

namespace DufsRam

open Relational OperationRow Table

/-- A finished operation that expires after `expiresAt`. -/
def OperationRow.outlives (expiresAt : TimeMs) (r : OperationRow) : Bool :=
  decide (r.state = .completed) && r.expiresAtMs.any fun e => decide (expiresAt < e)

def OperationRow.expireAt (expiresAt : TimeMs) (r : OperationRow) : OperationRow :=
  { r with expiresAtMs := some expiresAt }

/-- The statements of `recover_database` on the operations. -/
def recoverOperations (now expiresAt : TimeMs) (T : Table operationSchema) :
    Result (Table operationSchema) := do
  let T ← constrained <|
    ((purgeExpired now T).delete fun r => decide (r.state = .reserved)).update
      (fun r => decide (r.state = .commitStarted)) (complete now expiresAt .uncertain)
  constrained <| T.update (outlives expiresAt) (expireAt expiresAt)

/-- The statements of `recover_database` on the upload sessions. -/
def recoverUploadSessions (now expiresAt : TimeMs) (T : Table uploadSchema) :
    Result (Table uploadSchema) := do
  let T ← constrained <| T.update (fun r => decide (r.session.state = .commitStarted)) fun r =>
    ⟨{ r.session with state := .unknown }, now, expiresAt⟩
  constrained <| T.update (fun r => decide (expiresAt < r.expiresAtMs)) fun r =>
    { r with expiresAtMs := expiresAt }

/-- The statements of `recover_database` on the purge jobs. -/
def recoverPurgeJobs (now : TimeMs) (T : Table purgeSchema) : Result (Table purgeSchema) := do
  let T ← constrained <| T.update (fun r => decide (r.job.state = .claimed)) fun r =>
    { r with job := { r.job with state := .ready }, nextAttemptAtMs := now, updatedAtMs := now }
  constrained <| T.update
    (fun r => decide (r.job.state = .ready) && decide (now < r.nextAttemptAtMs)) fun r =>
    { r with nextAttemptAtMs := now, updatedAtMs := now }

def recoverDatabase (operationTtlMs uploadTtlMs now : TimeMs) (db : Database) :
    Result Database := do
  let operationExpiresAt ← expirationTime now operationTtlMs
  let uploadExpiresAt ← expirationTime now uploadTtlMs
  let operations ← recoverOperations now operationExpiresAt db.operations
  let uploadSessions ← recoverUploadSessions now uploadExpiresAt db.uploadSessions
  let purgeJobs ← recoverPurgeJobs now db.purgeJobs
  return { operations, uploadSessions, purgeJobs }

/-- What recovery makes of the row of an operation. -/
def OperationRow.recover (now expiresAt : TimeMs) (r : OperationRow) : Option OperationRow :=
  match r.state with
  | .reserved => none
  | .commitStarted => some (r.complete now expiresAt .uncertain)
  | .completed =>
    if r.expired now then none
    else some (assign (outlives expiresAt) (expireAt expiresAt) r)

lemma lookup_recoverOperations {now exp : TimeMs} {T T' : Table operationSchema}
    (h : recoverOperations now exp T = .ok T') (k : OperationKey) :
    T'.lookup k = (T.lookup k).bind (recover now exp) := by
  obtain ⟨T₁, hfin, hclamp⟩ := Result.bind_eq_ok_iff.1 h
  rw [lookup_update (constrained_eq_ok_iff.1 hclamp) (fun r => rfl),
    lookup_update (constrained_eq_ok_iff.1 hfin) (fun r => rfl),
    lookup_delete, lookup_purgeExpired]
  cases hrow : T.lookup k with
  | none => rfl
  | some r =>
    cases hst : r.state with
    | reserved =>
      have hexp : r.expired now = false := by simp [expired, hst]
      simp [recover, hst, hexp]
    | commitStarted =>
      have hexp : r.expired now = false := by simp [expired, hst]
      simp [recover, hst, hexp, assign, outlives, complete]
    | completed =>
      by_cases hexp : r.expired now = true
      · simp [recover, hst, hexp]
      · simp [recover, hst, hexp, assign]

/-- A recovery recovers each table, with the expirations of its retention periods. -/
lemma recoverDatabase_eq_ok_iff {operationTtlMs uploadTtlMs now : TimeMs} {db db' : Database} :
    recoverDatabase operationTtlMs uploadTtlMs now db = .ok db' ↔
      ∃ operationExpiresAt uploadExpiresAt,
        expirationTime now operationTtlMs = .ok operationExpiresAt ∧
        expirationTime now uploadTtlMs = .ok uploadExpiresAt ∧
        recoverOperations now operationExpiresAt db.operations = .ok db'.operations ∧
        recoverUploadSessions now uploadExpiresAt db.uploadSessions = .ok db'.uploadSessions ∧
        recoverPurgeJobs now db.purgeJobs = .ok db'.purgeJobs := by
  unfold recoverDatabase
  simp only [Result.bind_eq_ok_iff]
  constructor
  · rintro ⟨_, hop, _, hupl, _, hops, _, hupls, _, hprg, h⟩
    cases h
    exact ⟨_, _, hop, hupl, hops, hupls, hprg⟩
  · rintro ⟨_, _, hop, hupl, hops, hupls, hprg⟩
    exact ⟨_, hop, _, hupl, _, hops, _, hupls, _, hprg, rfl⟩

end DufsRam
