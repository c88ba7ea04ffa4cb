import DufsRam.Lib.Machine
import DufsRam.StateStore.PurgeStep

/-!
# The purge worker

`run_purge_worker` of `purge.rs`. The worker claims jobs, opens their trash and deletes it slice by
slice. A job whose next state cannot be stored stays with the worker, in a queue that is ordered by
the time of the next attempt.

The worker is a state machine whose phases are the points at which it waits: for a signal, for the
store or for the file system. Between two of its steps the store may execute commands of others.
What the file system and the clock answer is part of the event.
-/

namespace DufsRam.PurgeWorker

open Transition

def deletePurgeActiveCapacity : ℕ := 64

/-- In milliseconds. -/
def deletePurgeRetryBase : ℕ := 100

def deletePurgeRetryMax : ℕ := 30000

def u32Max : ℕ := 2 ^ 32 - 1

def purgeRetryDelay (failures : ℕ) : ℕ :=
  min (deletePurgeRetryBase * 2 ^ min (failures - 1) 16) deletePurgeRetryMax

inductive PurgeTask where
  | durable (job : StoredPurgeJob)
  /-- Trash that no job knows. -/
  | orphan (trash : RelPath)
  deriving DecidableEq

structure ClaimedPurgeRetry where
  due : ℕ
  job : StoredPurgeJob
  localFailures : ℕ
  deriving DecidableEq

/-- A retry stands behind those that are due no later. -/
def scheduleClaimedPurgeRetry (retries : List ClaimedPurgeRetry) (job : StoredPurgeJob)
    (localFailures now : ℕ) : List ClaimedPurgeRetry :=
  let localFailures := max localFailures 1
  let due := now + purgeRetryDelay localFailures
  retries.takeWhile (fun queued => decide (queued.due ≤ due)) ++
    ⟨due, job, localFailures⟩ :: retries.dropWhile fun queued => decide (queued.due ≤ due)

/-- What led to the job that the worker has in its hands. -/
inductive Origin where
  | retry (localFailures : ℕ)
  | claim
  | slice
  deriving DecidableEq

/-- How a job is to be recorded: by `complete_purge_job`, by `quarantine_claimed_purge_job` or by
`defer_purge_job`. -/
inductive Settlement where
  | complete
  | quarantine
  | defer
  deriving DecidableEq

inductive Phase where
  /-- The beginning of the loop. -/
  | start
  | drain
  | retry
  /-- In `retry_claimed_purge_work`. -/
  | reloading (retry : ClaimedPurgeRetry)
  /-- In `open_purge_work`. -/
  | opening (job : StoredPurgeJob) (origin : Origin)
  | settling (how : Settlement) (job : StoredPurgeJob) (origin : Origin)
  | claim
  | serve
  | slicing (job : StoredPurgeJob)
  | slicingOrphan (trash : RelPath)
  | wait
  | stopped
  deriving DecidableEq

structure State where
  db : Database
  cancelled : Bool
  pending : List PurgeTask
  claimedRetries : List ClaimedPurgeRetry
  phase : Phase

inductive Signal where
  | wake
  | orphan (trash : RelPath)
  /-- No signal, or the end of a sleep. -/
  | empty
  | disconnected
  deriving DecidableEq

/-- What `open_purge_work` finds. -/
inductive Opened where
  /-- The stored path cannot be resolved. -/
  | unresolved
  | matching
  | replaced
  | missing
  | invalidData
  | failed
  deriving DecidableEq

inductive Progress where
  | complete
  | pending
  | invalidData
  | failed
  deriving DecidableEq

inductive Fault where
  | filesystem
  | store
  deriving DecidableEq

inductive Event where
  | begin
  | receive (signal : Signal)
  | checkRetry (now : ℕ)
  | reload (fault : Bool) (now : ℕ)
  | openWork (found : Opened) (now : ℕ)
  | settle (fault : Option Fault) (now : ℕ) (nowMs : TimeMs)
  | claimNext (fault : Bool) (nowMs : TimeMs)
  | take
  | slice (progress : Progress)
  | shutdown
  /-- A command of somebody else. -/
  | store (event : StoreEvent)
  /-- The reconciler removes a job that is still prepared; the lease of its target keeps it so
  between the check and the removal. -/
  | reconcile (key : PurgeJobKey)

/-- Where the worker goes on. -/
def Origin.next : Origin → Phase
  | retry _ | claim => .claim
  | slice => .start

/-- The failures of a job that cannot be recorded. -/
def Origin.failures : Origin → ℕ
  | retry localFailures => min (localFailures + 1) u32Max
  | claim | slice => 1

namespace State

variable (s : State)

/-- There is room for another task. -/
def hasRoom : Bool := s.pending.length + s.claimedRetries.length < deletePurgeActiveCapacity

/-- The worker returns, and its queues go with it. -/
def stop : State := { s with pending := [], claimedRetries := [], phase := .stopped }

def goto (phase : Phase) : State := { s with phase }

def pushBack (task : PurgeTask) : State := { s with pending := s.pending ++ [task] }

/-- The job stays with the worker. -/
def keep (job : StoredPurgeJob) (localFailures now : ℕ) : State :=
  { s with
    claimedRetries := scheduleClaimedPurgeRetry s.claimedRetries job localFailures now }

def begin : Option State :=
  match s.phase with
  | .start => some (if s.cancelled then s.stop else s.goto .drain)
  | _ => none

/-- `try_recv` while there is room, and the final `select!`. -/
def receive (signal : Signal) : Option State :=
  match s.phase with
  | .drain =>
    if s.hasRoom then
      match signal with
      | .wake => some s
      | .orphan trash => some (s.pushBack (.orphan trash))
      | .empty => some (s.goto .retry)
      | .disconnected => some s.stop
    else some (s.goto .retry)
  | .wait =>
    if s.cancelled then some s.stop
    else match signal with
      | .wake => if s.hasRoom then some (s.goto .start) else none
      | .orphan trash =>
        if s.hasRoom then some ((s.pushBack (.orphan trash)).goto .start) else none
      | .empty => some (s.goto .start)
      | .disconnected => if s.hasRoom then some s.stop else none
  | _ => none

def checkRetry (now : ℕ) : Option State :=
  match s.phase, s.claimedRetries with
  | .retry, retry :: rest =>
    if s.pending.length < deletePurgeActiveCapacity ∧ retry.due ≤ now then
      some { s with claimedRetries := rest, phase := .reloading retry }
    else some (s.goto .claim)
  | .retry, [] => some (s.goto .claim)
  | _, _ => none

def reload (fault : Bool) (now : ℕ) : Option State :=
  match s.phase with
  | .reloading retry =>
    let failed := (s.keep retry.job (min (retry.localFailures + 1) u32Max) now).goto .claim
    if fault then some failed
    else match loadPurgeJob retry.job.key s.db with
      | .error _ => some failed
      | .ok none => some (s.goto .claim)
      | .ok (some current) =>
        if current.state = .claimed then
          some (s.goto (.opening current (.retry retry.localFailures)))
        else some (s.goto .claim)
  | _ => none

def openWork (found : Opened) (now : ℕ) : Option State :=
  match s.phase with
  | .opening job origin =>
    match found with
    | .unresolved => some ((s.keep job origin.failures now).goto origin.next)
    | found =>
      if job.trashRevision.isNone then some (s.goto (.settling .quarantine job origin))
      else match found with
        | .matching => some ((s.pushBack (.durable job)).goto origin.next)
        | .missing => some (s.goto (.settling .complete job origin))
        | .failed => some (s.goto (.settling .defer job origin))
        | _ => some (s.goto (.settling .quarantine job origin))
  | _ => none

/-- The command that records what has become of a job, with whether it has been recorded. -/
def record (how : Settlement) (job : StoredPurgeJob) (nowMs : TimeMs) : Bool × Database :=
  match how with
  | .complete => (true, (completePurgeJob job.key s.db).2)
  | .quarantine => completePurgeJob job.key s.db
  | .defer =>
    match retryPurgeJob nowMs (purgeRetryDelay (min (job.attempts + 1) u32Max)) job.key s.db with
    | .ok result => result
    | .error _ => (false, s.db)

/-- The file system is involved only in a quarantine. -/
def settle (fault : Option Fault) (now : ℕ) (nowMs : TimeMs) : Option State :=
  match s.phase with
  | .settling how job origin =>
    match fault with
    | some .filesystem =>
      if how = .quarantine then some ((s.keep job origin.failures now).goto origin.next) else none
    | some .store => some ((s.keep job origin.failures now).goto origin.next)
    | none =>
      let recorded := s.record how job nowMs
      let s' := { s with db := recorded.2 }
      if recorded.1 then some (s'.goto origin.next)
      else some ((s'.keep job origin.failures now).goto origin.next)
  | _ => none

def claimNext (fault : Bool) (nowMs : TimeMs) : Option State :=
  match s.phase with
  | .claim =>
    if s.hasRoom then
      if s.cancelled then some s.stop
      else if fault then some (s.goto .serve)
      else match claimDuePurgeJob nowMs s.db with
        | .error _ => some (s.goto .serve)
        | .ok (none, _) => some (s.goto .serve)
        | .ok (some job, db) => some ({ s with db }.goto (.opening job .claim))
    else some (s.goto .serve)
  | _ => none

def take : Option State :=
  match s.phase, s.pending with
  | .serve, [] => some (s.goto .wait)
  | .serve, .durable job :: rest => some { s with pending := rest, phase := .slicing job }
  | .serve, .orphan trash :: rest => some { s with pending := rest, phase := .slicingOrphan trash }
  | _, _ => none

/-- `process_purge_work` as far as its store command, and the slice of an orphan. -/
def slice (progress : Progress) : Option State :=
  match s.phase with
  | .slicing job =>
    match progress with
    | .complete => some (s.goto (.settling .complete job .slice))
    | .pending => some ((s.pushBack (.durable job)).goto .start)
    | .invalidData => some (s.goto (.settling .quarantine job .slice))
    | .failed => some (s.goto (.settling .defer job .slice))
  | .slicingOrphan trash =>
    match progress with
    | .pending => some ((s.pushBack (.orphan trash)).goto .start)
    | _ => some (s.goto .start)
  | _ => none

end State

/-- Commands that are not reserved for the worker, for the reconciler or for a restart. -/
def ofOthers : StoreCommand → Bool
  | .purge .claimDue | .purge (.retry _ _) | .purge (.complete _) | .purge (.remove _) => false
  | .operation .restart => false
  | _ => true

def State.step (limits : Limits) (s : State) : Event → Option State
  | .begin => s.begin
  | .receive signal => s.receive signal
  | .checkRetry now => s.checkRetry now
  | .reload fault now => s.reload fault now
  | .openWork found now => s.openWork found now
  | .settle fault now nowMs => s.settle fault now nowMs
  | .claimNext fault nowMs => s.claimNext fault nowMs
  | .take => s.take
  | .slice progress => s.slice progress
  | .shutdown => some { s with cancelled := true }
  | .store event =>
    if ofOthers event.command then some { s with db := (event.exec limits s.db).2 }
    else none
  | .reconcile key =>
    if (s.db.purge key).any fun r => decide (r.job.state = .prepared) then
      some { s with db := (removePurgeJob key s.db).2 }
    else none

def machine (limits : Limits) (db : Database) : Machine State Event where
  init := ⟨db, false, [], [], .start⟩
  step := State.step limits

/-- A run of the worker after a start of the server, which has made every claimed job ready. -/
structure Run where
  limits : Limits
  db : Database
  recovered : ∀ k r, db.purge k = some r → r.job.state ≠ .claimed
  schedule : ℕ → Event

def Run.state (ρ : Run) (n : ℕ) : State := (machine ρ.limits ρ.db).run ρ.schedule n

end DufsRam.PurgeWorker
