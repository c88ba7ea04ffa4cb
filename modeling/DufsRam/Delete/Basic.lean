import DufsRam.InternalNames
import DufsRam.Lib.Machine
import DufsRam.StateStore.PurgeStep
import DufsRam.Upload.World
import Mathlib.Logic.Function.Basic

/-!
# DELETE, the purge worker and the reconciler

A DELETE stores a prepared purge job, moves its target to the trash, makes the job ready and only
then reports success (`delete.rs`). The purge worker claims jobs that are ready and removes their
trash; the reconciler takes back jobs that are still prepared while nobody works on them
(`purge.rs`). A step is one command of the state store or one change of the tree, each of which may
fail without an effect, so that every interleaving is a schedule of steps. A restart may come
between any two of them; it loses everything but the state database and the tree.
-/

namespace DufsRam.Delete

/-! ### The tree -/

/-- What is found at a path. -/
structure Entry where
  content : ℕ
  stat : ExistingReplacementTarget
  deriving DecidableEq

abbrev Files := PathMap String Entry

/-- A rename changes the times of the entry. -/
def Entry.touch (times : FileTimes) (x : Entry) : Entry :=
  { x with stat := { x.stat with times } }

/-- `renameat_with` within a directory, with `NOREPLACE`. -/
def rename (f : Files) (path : RelPath) (name : String) (times : FileTimes) : Option Files :=
  (f.renameEntry path name).map fun f' => f'.modify (PathMap.sibling path name) (.touch times)

/-- How a rename may fail: before it has an effect, or when it is to be made durable. -/
inductive RenameFault where
  | before
  | after
  deriving DecidableEq

/-! ### Requests -/

/-- What the response tells about the operation. -/
inductive Told where
  | outcome (outcome : StoredOutcome)
  | rejected
  | unknown
  deriving DecidableEq

inductive Phase where
  /-- The operation is reserved. -/
  | waiting
  /-- The lease on the target is held. -/
  | leased
  /-- The target has the revision of the request. -/
  | inspected (target : ExistingReplacementTarget)
  /-- `has_persisted_path_conflict` has found nothing. -/
  | scanned (target : ExistingReplacementTarget)
  /-- In `prepare_purge_with_identity`, after some rounds. -/
  | preparing (target : ExistingReplacementTarget) (rounds : ℕ)
  | prepared (target : ExistingReplacementTarget) (key : PurgeJobKey)
  | started (target : ExistingReplacementTarget) (key : PurgeJobKey)
  /-- The target is moved but not verified. -/
  | renamed (target : ExistingReplacementTarget) (key : PurgeJobKey)
  | moved (key : PurgeJobKey) (trashRevision : Revision)
  /-- The target is not moved, and the job is to be removed. -/
  | kept (key : PurgeJobKey) (outcome : StoredOutcome)
  | completing (outcome : StoredOutcome)
  | done
  deriving DecidableEq

structure Request where
  operation : OperationKey
  path : RelPath
  revision : Revision
  /-- `MutationProgress` is past `mark_detached_commit`. -/
  detached : Bool
  phase : Phase
  told : Option Told
  deriving DecidableEq

/-- `OperationOutcome::failure`. -/
def failure (status : UInt16) (code : String) : StoredOutcome := ⟨status, .failed, some code⟩

/-- `OperationOutcome::success` with `NO_CONTENT`. -/
def success : StoredOutcome := ⟨204, .succeeded, none⟩

def targetNotFound : StoredOutcome := failure 404 "target_not_found"

def deleteStateConflict : StoredOutcome := failure 409 "delete_state_conflict"

def deleteTargetChanged : StoredOutcome := failure 412 "delete_target_changed"

def deleteNotCommitted : StoredOutcome := failure 500 "delete_not_committed"

def purgeBacklogFull : StoredOutcome := failure 503 "purge_backlog_full"

def purgeStateUnavailable : StoredOutcome := failure 503 "purge_state_unavailable"

/-! ### The worker -/

inductive WorkPhase where
  /-- In `open_purge_work`. -/
  | opening
  | purging
  | quarantining
  | completing
  | deferring
  /-- A `ClaimedPurgeRetry`. -/
  | retrying
  deriving DecidableEq

/-- A job that the worker has claimed. -/
structure Work where
  job : StoredPurgeJob
  phase : WorkPhase
  deriving DecidableEq

/-! ### The state -/

inductive Holder where
  | request (token : Uuid)
  | reconciler (key : PurgeJobKey)
  deriving DecidableEq

/-- A lease of the path coordinator. -/
structure Lease where
  holder : Holder
  paths : List RelPath
  deriving DecidableEq

/-- The record of a target that was moved to the trash: the revision of the trash entry at that
moment and what was below the target. -/
structure Move where
  request : Uuid
  key : PurgeJobKey
  revision : Revision
  subtree : RelPath → Option Entry

/-- The record of what a slice of a purge has removed from below a trash entry. -/
structure Purged where
  key : PurgeJobKey
  revision : Option Revision
  subtree : RelPath → Option Entry

/-- The record of a job that a request has made ready. -/
structure Readied where
  request : Uuid
  key : PurgeJobKey
  revision : Revision
  deriving DecidableEq

/-- Requests are found by the lease tokens of their operations. The job of a reconciliation comes
with whether its trash is quarantined already. The last three fields are records of the run that no
step reads. -/
structure State where
  db : Database
  files : Files
  requests : Uuid → Option Request
  leases : List Lease
  works : PurgeJobKey → Option Work
  reconciliations : PurgeJobKey → Option (StoredPurgeJob × Bool)
  moves : List Move
  readied : List Readied
  purged : List Purged

structure Server where
  limits : Limits
  /-- `target_revision` of an entry that exists. -/
  targetRevision : BitVec 256 → RelPath → ExistingReplacementTarget → Revision
  /-- `ReplacementTargetIdentity::purge_revision`. -/
  purgeRevision : ExistingReplacementTarget → Revision

/-! ### Events -/

/-- How the checked move may fail. -/
inductive MoveFault where
  /-- The target cannot be inspected. -/
  | inspection
  /-- The rename fails; whether the target is then still found in its place. -/
  | rename (found : Bool)
  deriving DecidableEq

/-- Each event of a request carries its token. Faults of the state store are Booleans. -/
inductive Event where
  | begin (token : Uuid) (now : TimeMs) (key : OperationKey) (fingerprint : Fingerprint)
      (path : RelPath) (revision : Revision)
  | status (now : TimeMs) (key : OperationKey)
  | acquire (token : Uuid)
  | inspect (token : Uuid) (fault : Bool)
  /-- The scan may also have seen a row that is gone when it ends. -/
  | scan (token : Uuid) (fault gone : Bool)
  | dispatch (token : Uuid)
  | prepare (token : Uuid) (now : TimeMs) (id : Uuid) (fault : Bool)
  | markCommitStarted (token : Uuid) (now : TimeMs) (fault : Bool)
  | move (token : Uuid) (times : FileTimes) (fault : Option MoveFault)
  | verify (token : Uuid) (fault : Bool)
  | markReady (token : Uuid) (now : TimeMs) (fault : Bool)
  | removeJob (token : Uuid) (now : TimeMs) (fault : Bool)
  | complete (token : Uuid) (now : TimeMs) (fault : Bool)
  /-- The guard of the operation is dropped. -/
  | abandon (token : Uuid) (now : TimeMs) (fault : Bool)
  /-- The request times out, or its client goes away. -/
  | interrupt (token : Uuid) (disconnected : Bool)
  | claim (now : TimeMs) (fault : Bool)
  /-- The error of the inspection, if any, and whether it is of the kind `InvalidData`. -/
  | openWork (key : PurgeJobKey) (fault : Option Bool)
  /-- One entry below the trash is removed with everything below it. -/
  | purgeSlice (key : PurgeJobKey) (below : RelPath) (times : FileTimes)
  /-- A slice fails; whether the error is of the kind `InvalidData`. -/
  | failSlice (key : PurgeJobKey) (invalidData : Bool)
  | quarantineClaimed (key : PurgeJobKey) (id : Uuid) (times : FileTimes)
      (fault : Option RenameFault)
  | completeJob (key : PurgeJobKey) (now : TimeMs) (fault : Bool)
  | deferJob (key : PurgeJobKey) (now delayMs : TimeMs) (fault : Bool)
  | retryClaimed (key : PurgeJobKey)
  | reconcile (key : PurgeJobKey)
  | quarantinePrepared (key : PurgeJobKey) (id : Uuid) (times : FileTimes)
      (fault : Option RenameFault)
  | releasePrepared (key : PurgeJobKey) (now : TimeMs) (fault : Bool)
  | restart (now : TimeMs)

namespace State

variable (server : Server) (s : State)

/-- A command of the state store, which may fail without an effect. -/
def store (fault : Bool) (now : TimeMs) (command : StoreCommand) : StoreReply × Database :=
  if fault then (.failed "The state store is unavailable", s.db)
  else StoreEvent.exec server.limits ⟨now, command⟩ s.db

/-- The paths overlap no path that is leased. -/
def leasable (paths : List RelPath) : Prop :=
  ∀ l ∈ s.leases, ∀ p ∈ l.paths, ∀ q ∈ paths, ¬ lexicalOverlap p q

instance (paths : List RelPath) : Decidable (s.leasable paths) :=
  inferInstanceAs (Decidable (∀ l ∈ s.leases, ∀ p ∈ l.paths, ∀ q ∈ paths, ¬ lexicalOverlap p q))

def release (holder : Holder) : State :=
  { s with leases := s.leases.filter fun l => decide (l.holder ≠ holder) }

variable (t : Uuid) (key : PurgeJobKey) (r : Request) (w : Work)

def setRequest : State :=
  { s with requests := Function.update s.requests t (some r) }

def setPhase (phase : Phase) : State := s.setRequest t { r with phase }

def setWork (w : Option Work) : State :=
  { s with works := Function.update s.works key w }

def setWorkPhase (phase : WorkPhase) : State :=
  s.setWork key (some { w with phase })

def setReconciliation (task : Option (StoredPurgeJob × Bool)) : State :=
  { s with reconciliations := Function.update s.reconciliations key task }

def onRequest (f : Request → Option State) : Option State := (s.requests t).bind f

def onWork (f : Work → Option State) : Option State :=
  (s.works key).bind f

/-! ### The steps of a request -/

/-- The first answer stands. -/
def tell (told : Told) : Request := { r with told := some (r.told.getD told) }

/-- The request ends with an error: it drops its lease and its guard, and the response depends on
whether its commit was dispatched. -/
def fail : State :=
  (s.release (.request t)).setRequest t
    { tell r (if r.detached then .unknown else .rejected) with phase := .done }

def begin (t : Uuid) (now : TimeMs) (key : OperationKey) (fingerprint : Fingerprint)
    (path : RelPath) (revision : Revision) : Option State :=
  if (s.requests t).isSome ∨ ¬ path.Requestable then none
  else
    let result := s.store server false now (.operation (.begin t key fingerprint))
    if result.1 = .operation (.begin (.started t)) then
      some ({ s with db := result.2 }.setRequest t ⟨key, path, revision, false, .waiting, none⟩)
    else some { s with db := result.2 }

def acquire : Option State :=
  if r.phase = .waiting ∧ s.leasable [r.path] then
    some ({ s with leases := ⟨.request t, [r.path]⟩ :: s.leases }.setPhase t r .leased)
  else none

/-- `dispatch_delete` up to the revision of the target. -/
def inspect (fault : Bool) : Option State :=
  if r.phase ≠ .leased then none
  else if fault then some (s.fail t r)
  else some <| s.setPhase t r <| match s.files.entry r.path with
    | none => .completing targetNotFound
    | some x =>
      if server.targetRevision r.operation.owner r.path x.stat = r.revision then .inspected x.stat
      else .completing deleteTargetChanged

/-- A row relies on the path, on one above it or on one below it. -/
def conflicts (path : RelPath) : Bool :=
  s.db.statePaths.any fun p => decide (lexicalOverlap path p.2.path)

def scan (fault gone : Bool) : Option State :=
  match r.phase with
  | .inspected target =>
    if fault then some (s.fail t r)
    else if gone || s.conflicts r.path then some (s.setPhase t r (.completing deleteStateConflict))
    else some (s.setPhase t r (.scanned target))
  | _ => none

/-- `run_operation_commit`. -/
def dispatch : Option State :=
  match r.phase with
  | .scanned target =>
    some (s.setRequest t { r with detached := true, phase := .preparing target 0 })
  | _ => none

/-- The job of a DELETE. -/
def purgeJob (path trashPath : RelPath) (key : PurgeJobKey) (target : ExistingReplacementTarget) :
    StoredPurgeJob where
  key := key
  targetPath := path
  trashPath := trashPath
  sourceIdentity := target.identity
  trashRevision := none
  isDirectory := decide (target.fileType = .directory)
  state := .prepared
  attempts := 0

/-- The phase after a round of `prepare_purge_with_identity`. -/
def preparedPhase (target : ExistingReplacementTarget) (rounds : ℕ) (key : PurgeJobKey) :
    StoreReply → Phase
  | .prepared .inserted => .prepared target key
  | .prepared .existing | .prepared .conflict =>
    if rounds + 1 < 16 then .preparing target (rounds + 1) else .completing purgeStateUnavailable
  | .prepared .full => .completing purgeBacklogFull
  | _ => .completing purgeStateUnavailable

def prepare (t : Uuid) (r : Request) (now : TimeMs) (id : Uuid) (fault : Bool) : Option State :=
  match r.phase with
  | .preparing target rounds =>
    (trashPathForId r.path id).map fun trashPath =>
      let key : PurgeJobKey := ⟨r.operation.owner, id⟩
      let job := purgeJob r.path trashPath key target
      let result := s.store server fault now (.purge (.prepare job))
      { s with db := result.2 }.setPhase t r (preparedPhase target rounds key result.1)
  | _ => none

def markCommitStarted (t : Uuid) (r : Request) (now : TimeMs) (fault : Bool) : Option State :=
  match r.phase with
  | .prepared target key =>
    let result := s.store server fault now (.operation (.markCommitStarted r.operation t))
    let s' := { s with db := result.2 }
    some (if result.1 = .operation (.changed true) then s'.setPhase t r (.started target key)
      else s'.fail t r)
  | _ => none

/-- `classify_failed_checked_trash_rename` when both places can be inspected. -/
def notMoved (target : ExistingReplacementTarget) (source trash : Option Entry) : Bool :=
  decide (source.map (fun x => x.stat.identity) = some target.identity) &&
    decide (trash.map (fun x => x.stat.identity) ≠ some target.identity)

/-- The target is renamed, and the move is recorded. -/
def moved (target : ExistingReplacementTarget) (times : FileTimes) (files : Files) : State :=
  { s with
    files := files
    moves := ⟨t, key, server.purgeRevision { target with times },
      fun rest => s.files.entry (r.path ++ rest)⟩ :: s.moves
  }.setPhase t r (.renamed target key)

/-- `move_to_trash_with_expected_identity_outcome` up to the rename. -/
def move (times : FileTimes) (fault : Option MoveFault) : Option State :=
  match r.phase with
  | .started target key =>
    let name := deleteTrashName key.id
    if fault = some .inspection then some (s.setPhase t r (.kept key deleteNotCommitted))
    else if (s.files.entry r.path).map Entry.stat ≠ some target then
      some (s.setPhase t r (.kept key deleteTargetChanged))
    else match fault, rename s.files r.path name times with
      | none, some files => some (s.moved server t key r target times files)
      | some (.rename false), _ => some (s.fail t r)
      | _, _ =>
        if notMoved target (s.files.entry r.path)
          (s.files.entry (PathMap.sibling r.path name)) then
          some (s.setPhase t r (.kept key deleteNotCommitted))
        else some (s.fail t r)
  | _ => none

/-- The checks after the rename. -/
def verify (fault : Bool) : Option State :=
  match r.phase with
  | .renamed target key =>
    match s.files.entry (PathMap.sibling r.path (deleteTrashName key.id)) with
    | some x =>
      if fault || decide (x.stat.identity ≠ target.identity) then some (s.fail t r)
      else some (s.setPhase t r (.moved key (server.purgeRevision x.stat)))
    | none => some (s.fail t r)
  | _ => none

def markReady (t : Uuid) (r : Request) (now : TimeMs) (fault : Bool) : Option State :=
  match r.phase with
  | .moved key trashRevision =>
    let result := s.store server fault now (.purge (.markReady key trashRevision))
    let s' := { s with db := result.2 }
    some (if result.1 = .changed true then
        { s' with readied := ⟨t, key, trashRevision⟩ :: s'.readied }.setPhase t r
          (.completing success)
      else s'.fail t r)
  | _ => none

def removeJob (now : TimeMs) (fault : Bool) : Option State :=
  match r.phase with
  | .kept key outcome =>
    let result := s.store server fault now (.purge (.remove key))
    let s' := { s with db := result.2 }
    some (if result.1 = .changed true then s'.setPhase t r (.completing outcome) else s'.fail t r)
  | _ => none

def complete (t : Uuid) (r : Request) (now : TimeMs) (fault : Bool) : Option State :=
  match r.phase with
  | .completing outcome =>
    let result := s.store server fault now (.operation (.complete r.operation t outcome))
    let s' := { s with db := result.2 }
    some (if result.1 = .operation (.changed true) then
        (s'.release (.request t)).setRequest t { tell r (.outcome outcome) with phase := .done }
      else s'.fail t r)
  | _ => none

def abandon (t : Uuid) (r : Request) (now : TimeMs) (fault : Bool) : Option State :=
  if r.phase = .done then
    some { s with db := (s.store server fault now (.operation (.abandon r.operation t))).2 }
  else none

/-- Before its commit is dispatched, the request is dropped with its lease; a command to complete
the operation may still be on its way. Afterwards it goes on without a response. -/
def interrupt (disconnected : Bool) : Option State :=
  let answered := if disconnected then r
    else tell r (if r.detached then .unknown else .rejected)
  match r.detached, r.phase with
  | true, _ | false, .done | false, .completing _ => some (s.setRequest t answered)
  | false, _ => some ((s.release (.request t)).setRequest t { answered with phase := .done })

/-! ### The steps of the worker -/

def claim (now : TimeMs) (fault : Bool) : Option State :=
  let result := s.store server fault now (.purge .claimDue)
  let s' := { s with db := result.2 }
  some <| match result.1 with
    | .claimed (some job) => s'.setWork job.key (some ⟨job, .opening⟩)
    | _ => s'

/-- `capture_entry_for_purge_with_revision` and `purge_identity_matches` accept the entry. -/
def captured (job : StoredPurgeJob) (x : Entry) : Prop :=
  decide (x.stat.fileType = .directory) = job.isDirectory ∧
    job.trashRevision = some (server.purgeRevision x.stat) ∧
    x.stat.identity = job.sourceIdentity

instance (job : StoredPurgeJob) (x : Entry) : Decidable (captured server job x) :=
  inferInstanceAs (Decidable (_ ∧ _ ∧ _))

/-- What to do with a job that cannot be purged now. -/
def failedPhase (invalidData : Bool) : WorkPhase :=
  if invalidData then .quarantining else .deferring

def openWork (fault : Option Bool) : Option State :=
  if w.phase ≠ .opening then none
  else some <| s.setWorkPhase key w <|
    if w.job.trashRevision.isNone then .quarantining
    else match fault, s.files.entry w.job.trashPath with
      | some invalidData, _ => failedPhase invalidData
      | none, none => .completing
      | none, some x => if captured server w.job x then .purging else .quarantining

/-- A part of the trash is removed, which changes the times of the trash. -/
def sliced (below : RelPath) (times : FileTimes) : State :=
  let trash := w.job.trashPath
  { s with
    files := (s.files.remove (trash ++ below)).modify trash (.touch times)
    purged := ⟨key, w.job.trashRevision, fun rest =>
      if below <+: rest then s.files.entry (trash ++ rest) else none⟩ :: s.purged
  }.setWorkPhase key w (if below = [] then .completing else .purging)

def purgeSlice (below : RelPath) (times : FileTimes) : Option State :=
  if w.phase = .purging then some (s.sliced key w below times) else none

def failSlice (invalidData : Bool) : Option State :=
  if w.phase = .purging then some (s.setWorkPhase key w (failedPhase invalidData)) else none

/-- `quarantine_internal_trash`; without an entry there is nothing to do. -/
def quarantine (trash : RelPath) (id : Uuid) (times : FileTimes) (fault : Option RenameFault) :
    Option Files :=
  if fault = some .before then none
  else if s.files.entry trash = none then some s.files
  else rename s.files trash (quarantineName id) times

/-- `quarantine_claimed_purge_job` up to the rename. -/
def quarantineClaimed (id : Uuid) (times : FileTimes) (fault : Option RenameFault) : Option State :=
  if w.phase ≠ .quarantining then none
  else some <| match s.quarantine w.job.trashPath id times fault with
    | none => s.setWorkPhase key w .retrying
    | some files =>
      { s with files }.setWorkPhase key w (if fault.isSome then .retrying else .completing)

def completeJob (now : TimeMs) (fault : Bool) : Option State :=
  if w.phase ≠ .completing then none
  else
    let result := s.store server fault now (.purge (.complete key))
    let s' := { s with db := result.2 }
    some (if result.1.error?.isSome then s'.setWorkPhase key w .retrying
      else s'.setWork key none)

def deferJob (now delayMs : TimeMs) (fault : Bool) :
    Option State :=
  if w.phase ≠ .deferring then none
  else
    let result := s.store server fault now (.purge (.retry key delayMs))
    let s' := { s with db := result.2 }
    some (if result.1 = .changed true then s'.setWork key none
      else s'.setWorkPhase key w .retrying)

/-- `retry_claimed_purge_work`. -/
def retryClaimed : Option State :=
  if w.phase ≠ .retrying then none
  else some <| s.setWork key <| ((s.db.purge key).filter fun row =>
    decide (row.job.state = .claimed)).map fun row => ⟨row.job, .opening⟩

/-! ### The steps of the reconciler -/

/-- The reconciler holds the paths of a job. -/
def reconciling (row : PurgeRow) : State :=
  { s with
    leases := ⟨.reconciler key, [row.job.targetPath, row.job.trashPath]⟩ :: s.leases
  }.setReconciliation key (some (row.job, false))

/-- `reconcile_prepared_purge_job` up to the check that the job is still prepared, which is made
under the lease. -/
def reconcile : Option State :=
  (s.db.purge key).bind fun row =>
    if row.job.state = .prepared ∧ s.leasable [row.job.targetPath, row.job.trashPath] then
      some (s.reconciling key row)
    else none

/-- The reconciliation ends and drops its lease. -/
def endReconciliation : State :=
  (s.release (.reconciler key)).setReconciliation key none

def quarantinePrepared (id : Uuid) (times : FileTimes)
    (fault : Option RenameFault) : Option State :=
  (s.reconciliations key).bind fun task =>
    if task.2 then none
    else some <| match s.quarantine task.1.trashPath id times fault with
      | none => s.endReconciliation key
      | some files =>
        let s' := { s with files }
        if fault.isSome then s'.endReconciliation key
        else s'.setReconciliation key (some (task.1, true))

def releasePrepared (now : TimeMs) (fault : Bool) : Option State :=
  (s.reconciliations key).bind fun task =>
    if task.2 then
      some <| endReconciliation
        { s with db := (s.store server fault now (.purge (.remove key))).2 } key
    else none

/-! ### All steps -/

/-- A restart recovers the state database; what the server was about to do is lost. -/
def restart (now : TimeMs) : State :=
  { s with
    db := (StoreEvent.exec server.limits ⟨now, .restart⟩ s.db).2
    requests := fun t => (s.requests t).map fun r => { r with phase := .done }
    leases := []
    works := fun _ => none
    reconciliations := fun _ => none }

end State

open State in
def step (server : Server) (s : State) : Event → Option State
  | .begin t now key fingerprint path revision =>
    s.begin server t now key fingerprint path revision
  | .status now key => some { s with db := (s.store server false now (.operation (.status key))).2 }
  | .acquire t => s.onRequest t fun r => s.acquire t r
  | .inspect t fault => s.onRequest t fun r => s.inspect server t r fault
  | .scan t fault gone => s.onRequest t fun r => s.scan t r fault gone
  | .dispatch t => s.onRequest t fun r => s.dispatch t r
  | .prepare t now id fault => s.onRequest t fun r => s.prepare server t r now id fault
  | .markCommitStarted t now fault =>
    s.onRequest t fun r => s.markCommitStarted server t r now fault
  | .move t times fault => s.onRequest t fun r => s.move server t r times fault
  | .verify t fault => s.onRequest t fun r => s.verify server t r fault
  | .markReady t now fault => s.onRequest t fun r => s.markReady server t r now fault
  | .removeJob t now fault => s.onRequest t fun r => s.removeJob server t r now fault
  | .complete t now fault => s.onRequest t fun r => s.complete server t r now fault
  | .abandon t now fault => s.onRequest t fun r => s.abandon server t r now fault
  | .interrupt t disconnected => s.onRequest t fun r => s.interrupt t r disconnected
  | .claim now fault => s.claim server now fault
  | .openWork key fault => s.onWork key fun w => s.openWork server key w fault
  | .purgeSlice key below times => s.onWork key fun w => s.purgeSlice key w below times
  | .failSlice key invalidData => s.onWork key fun w => s.failSlice key w invalidData
  | .quarantineClaimed key id times fault =>
    s.onWork key fun w => s.quarantineClaimed key w id times fault
  | .completeJob key now fault => s.onWork key fun w => s.completeJob server key w now fault
  | .deferJob key now delayMs fault =>
    s.onWork key fun w => s.deferJob server key w now delayMs fault
  | .retryClaimed key => s.onWork key fun w => s.retryClaimed key w
  | .reconcile key => s.reconcile key
  | .quarantinePrepared key id times fault => s.quarantinePrepared key id times fault
  | .releasePrepared key now fault => s.releasePrepared server key now fault
  | .restart now => some (s.restart server now)

/-- The server starts with an empty database. -/
def machine (server : Server) (files : Files) : Transition.Machine State Event where
  init := ⟨.empty, files, fun _ => none, [], fun _ => none, fun _ => none, [], [], []⟩
  step := step server

end DufsRam.Delete
