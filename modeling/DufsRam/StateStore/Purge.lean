import DufsRam.StateStore.Upload

/-!
# Purge jobs and blocking paths

The commands of `state_store/purge.rs`. A job is prepared before its target is moved to the trash,
ready afterwards, and claimed while the trash is deleted. The paths on which uploads and purge jobs
rely are read in pages by anyone who is about to move or create a file.
-/

namespace DufsRam

open Relational StatePathCursor

/-! ### Purge jobs -/

def loadPurgeJob (key : PurgeJobKey) (db : Database) : Result (Option StoredPurgeJob) :=
  match db.purgeJobs.lookup key with
  | none => .ok none
  | some r => do
    validateStoredPath r.job.targetPath "Purge target"
    validateStoredPath r.job.trashPath "Purge trash"
    ensure (r.job.targetPath ≠ r.job.trashPath) "Purge target and trash paths must differ"
    return some r.job

def Limits.purgeFull (limits : Limits) (key : PurgeJobKey) (T : Table purgeSchema) : Prop :=
  limits.purgeCapacity ≤ T.count (fun _ => true) ∨
    limits.purgePerOwner ≤ T.count fun r => decide (r.job.key.owner = key.owner)

instance (limits : Limits) (key : PurgeJobKey) (T : Table purgeSchema) :
    Decidable (limits.purgeFull key T) :=
  inferInstanceAs (Decidable (_ ∨ _))

/-- The jobs are for the same move. -/
def StoredPurgeJob.sameMove (a b : StoredPurgeJob) : Prop :=
  a.targetPath = b.targetPath ∧ a.trashPath = b.trashPath ∧
    a.sourceIdentity = b.sourceIdentity ∧ a.isDirectory = b.isDirectory

instance (a b : StoredPurgeJob) : Decidable (a.sameMove b) :=
  inferInstanceAs (Decidable (_ ∧ _ ∧ _ ∧ _))

def PurgeRow.prepare (now : TimeMs) (job : StoredPurgeJob) : PurgeRow :=
  ⟨{ job with trashRevision := none, state := .prepared, attempts := 0 }, now, now, now⟩

def PurgeRow.markReady (now : TimeMs) (trashRevision : Revision) (r : PurgeRow) : PurgeRow :=
  { r with
    job := { r.job with state := .ready, trashRevision := some trashRevision }
    nextAttemptAtMs := now
    updatedAtMs := now }

def PurgeRow.claim (now : TimeMs) (r : PurgeRow) : PurgeRow :=
  { r with job := { r.job with state := .claimed }, updatedAtMs := now }

def PurgeRow.retry (now nextAttempt : TimeMs) (r : PurgeRow) : PurgeRow :=
  { r with
    job := { r.job with state := .ready, attempts := min (r.job.attempts + 1) 4294967295 }
    nextAttemptAtMs := nextAttempt
    updatedAtMs := now }

/-- The job may be claimed. -/
def PurgeRow.due (now : TimeMs) (r : PurgeRow) : Bool :=
  decide (r.job.state = .ready) && decide (r.nextAttemptAtMs ≤ now)

def preparePurgeJob (limits : Limits) (now : TimeMs) (proposed : StoredPurgeJob) (db : Database) :
    Result (StorePurgeJob × Database) := do
  proposed.validateNew
  match ← loadPurgeJob proposed.key db with
  | some existing => return (if existing.sameMove proposed then .existing else .conflict, db)
  | none =>
    if 0 < db.purgeJobs.count (fun r => decide (r.job.trashPath = proposed.trashPath)) then
      return (.conflict, db)
    else if limits.purgeFull proposed.key db.purgeJobs then return (.full, db)
    else do
      let purgeJobs ← constrained <| db.purgeJobs.insert (.prepare now proposed)
      return (.inserted, { db with purgeJobs })

/-- An update of the job of a key in the given state; the reply is whether there was one. -/
def updatePurgeJob (key : PurgeJobKey) (state : StoredPurgeState) (f : PurgeRow → PurgeRow)
    (db : Database) : Result (Bool × Database) := do
  let p := fun r : PurgeRow => decide (r.job.key = key) && decide (r.job.state = state)
  let purgeJobs ← constrained <| db.purgeJobs.update p f
  return (decide (db.purgeJobs.count p = 1), { db with purgeJobs })

def markPurgeJobReady (now : TimeMs) (key : PurgeJobKey) (trashRevision : Revision)
    (db : Database) : Result (Bool × Database) := do
  let (changed, db') ← updatePurgeJob key .prepared (.markReady now trashRevision) db
  if changed then return (true, db')
  else do
    let job ← loadPurgeJob key db'
    return (job.any fun j => decide (j.state ≠ .prepared) &&
      decide (j.trashRevision = some trashRevision), db')

/-- The order in which due jobs are claimed. -/
def PurgeRow.dueOrder (r : PurgeRow) : ℤ ×ₗ ℤ ×ₗ ℕ ×ₗ ℕ :=
  toLex (r.nextAttemptAtMs,
    toLex (r.createdAtMs, toLex (r.job.key.owner.toNat, r.job.key.id.toNat)))

def claimDuePurgeJob (now : TimeMs) (db : Database) : Result (Option StoredPurgeJob × Database) :=
  let due := db.purgeJobs.rows.filter (PurgeRow.due now)
  match (due.insertionSort fun a b => a.dueOrder ≤ b.dueOrder).head? with
  | none => .ok (none, db)
  | some first => do
    let (claimed, db') ← updatePurgeJob first.job.key .ready (.claim now) db
    ensure (claimed = true) "A selected purge job could not be claimed"
    match ← loadPurgeJob first.job.key db' with
    | none => throw "A claimed purge job disappeared"
    | some job => return (some job, db')

def retryPurgeJob (now delayMs : TimeMs) (key : PurgeJobKey) (db : Database) :
    Result (Bool × Database) := do
  let nextAttempt ← expirationTime now delayMs
  updatePurgeJob key .claimed (.retry now nextAttempt) db

/-- A deletion of jobs by key; the reply is whether there was one. -/
def deletePurgeJob (p : PurgeRow → Bool) (db : Database) : Bool × Database :=
  (decide (db.purgeJobs.count p = 1), { db with purgeJobs := db.purgeJobs.delete p })

def completePurgeJob (key : PurgeJobKey) (db : Database) : Bool × Database :=
  deletePurgeJob (fun r => decide (r.job.key = key) && decide (r.job.state = .claimed)) db

def removePurgeJob (key : PurgeJobKey) (db : Database) : Bool × Database :=
  deletePurgeJob (fun r => decide (r.job.key = key)) db

/-! ### Blocking paths -/

/-- The order of the cursors is that of the query. -/
def StatePathCursor.order (c : StatePathCursor) : ℕ ×ₗ ℕ ×ₗ ℕ ×ₗ ℕ :=
  toLex (c.kind, toLex (c.owner.toNat, toLex (c.id.toNat, c.slot)))

lemma StatePathCursor.order_injective : Function.Injective order := by
  rintro ⟨kind, owner, id, slot⟩ ⟨kind', owner', id', slot'⟩ h
  simp only [order, toLex_inj, Prod.mk.injEq, BitVec.toNat_inj] at h
  obtain ⟨rfl, rfl, rfl, rfl⟩ := h
  rfl

instance : LinearOrder StatePathCursor := LinearOrder.lift' _ order_injective

/-- The paths of an upload whose row owns a stage. -/
def UploadRow.statePaths (r : UploadRow) : List (StatePathCursor × StateBlockingPath) :=
  if r.session.state.ownsStage then
    [(⟨0, r.session.key.owner, r.session.key.id, 0⟩,
      ⟨r.session.targetPath, decide (r.session.state = .running)⟩),
      (⟨0, r.session.key.owner, r.session.key.id, 1⟩, ⟨r.session.stagePath, false⟩)]
  else []

/-- The trash of a job, and its target until the job is ready. -/
def PurgeRow.statePaths (r : PurgeRow) : List (StatePathCursor × StateBlockingPath) :=
  (if r.job.state = .prepared then
    [(⟨1, r.job.key.owner, r.job.key.id, 0⟩, ⟨r.job.targetPath, false⟩)] else []) ++
  [(⟨1, r.job.key.owner, r.job.key.id, 1⟩, ⟨r.job.trashPath, false⟩)]

/-- The common table expression `state_paths`. -/
def Database.statePaths (db : Database) : List (StatePathCursor × StateBlockingPath) :=
  db.uploadSessions.rows.flatMap UploadRow.statePaths ++
    db.purgeJobs.rows.flatMap PurgeRow.statePaths

/-- `query_state_blocking_paths`. -/
def stateBlockingPaths (after : Option StatePathCursor) (limit : ℕ) (db : Database) :
    Result StatePathPage := do
  let rows := Keyset.page after limit db.statePaths
  rows.forM fun r => validateStoredPath r.2.path "State path"
  return ⟨rows.map Prod.snd, Keyset.next limit rows⟩

end DufsRam
