import Mathlib.Data.Finset.Basic
import Mathlib.Data.List.Sort
import DufsRam.Client.Protocol
import DufsRam.Client.Queue

/-!
# The upload manager

The state of `createUploadManager` (`clients/web/modules/upload/manager.js`) and the functions that
keep its accounts. What is only shown, the messages and the rows of the table, is left out. What an
uploader waits for is a field of its own, since a function that awaits a promise goes on later; in
between the uploader has nothing else to do, except that it may be cancelled.
-/

namespace DufsRam.Client

/-! ### Uploaders -/

inductive UploadLifecycleState where
  | new
  | queued
  | running
  | completed
  | failed
  | unknown
  | cancelled
  deriving DecidableEq

inductive UploadPhase where
  | new
  | transferring
  | checking
  | submitting
  | awaitingConfirmation
  | completed
  | failed
  | unknown
  | cancelled
  deriving DecidableEq

/-- What the button of a terminal row offers. -/
inductive UploadRecoveryAction where
  | none
  | retry
  | queryUpload
  deriving DecidableEq

/-- What the code of an uploader waits for. -/
inductive Awaiting where
  | nothing
  /-- The request of `sendBody` or `publishStaged`. -/
  | transfer
  /-- The `HEAD` of `queryCheckpoint`. -/
  | checkpoint (queryingUnknown retryAfterCheck : Bool)
  /-- The dialog of `resolveDestinationConflict`. -/
  | choice (revision : String) (staged : Bool)
  /-- The `POST` of `discardStaged`. -/
  | discard (restartAfterDiscard : Bool)
  /-- The `HEAD` of `reconcileDiscard`. -/
  | reconcile (restartAfterDiscard : Bool)
  deriving DecidableEq

structure Uploader where
  name : String
  size : ℕ
  batchId : ℕ
  targetRevision : Option String
  uploadId : String
  missingTargetRetryUsed : Bool := false
  uploadOffset : ℕ := 0
  state : UploadLifecycleState := .new
  phase : UploadPhase := .new
  pendingRecovery : UploadRecoveryAction := .none
  recoveryAction : UploadRecoveryAction := .none
  /-- Nothing stands for a delay that no timer can wait for. -/
  recoveryAvailableAt : Option ℕ := some 0
  recoveryTimer : Bool := false
  runningAccounted : Bool := false
  pendingAccounted : Bool := false
  queueEntry : Option ℕ := none
  /-- There is an `abortController`. -/
  abortable : Bool := false
  abortOutcomeUnknown : Bool := false
  uploadRequestPhase : UploadRequestPhase := .fresh
  requestDispatched : Bool := false
  awaiting : Awaiting := .nothing
  deriving DecidableEq

/-! ### Selections -/

structure UploadSelectionEntry where
  name : String
  size : ℕ
  deriving DecidableEq

structure QueuedUploadEntry where
  name : String
  size : ℕ
  revision : Option String
  deriving DecidableEq

structure PreflightReservation where
  count : ℕ
  active : Bool
  deriving DecidableEq

/-- A destination that exists, with the revision that the preflight has found. -/
structure UploadConflict where
  entry : UploadSelectionEntry
  revision : Option String
  deriving DecidableEq

/-- How far `enqueueReservedSelection` has come. -/
inductive SelectionStage where
  | waiting
  | preflight (accepted : List UploadSelectionEntry)
  | choice (accepted : List UploadSelectionEntry) (uploadEntries : List QueuedUploadEntry)
      (conflicts : List UploadConflict)
  /-- The loop has yielded to the browser and has these entries left. -/
  | enqueuing (batchId : ℕ) (entries : List QueuedUploadEntry)
  deriving DecidableEq

structure SelectionJob where
  entries : List UploadSelectionEntry
  reservation : PreflightReservation
  stage : SelectionStage
  deriving DecidableEq

structure Batch where
  members : List ℕ
  enqueueComplete : Bool
  cancelRequested : Bool
  remainingEntries : ℕ
  deriving DecidableEq

/-! ### The manager -/

inductive QueueState where
  | running
  | pausedAuth
  | pausedUnknown
  deriving DecidableEq

structure TerminalUploadRow where
  index : ℕ
  /-- The row has a button, which goes with it. -/
  disposable : Bool
  deriving DecidableEq

/-- A `PUT` or `PATCH` as it was sent. -/
structure SentRequest where
  index : ℕ
  phase : UploadRequestPhase
  uploadId : String
  uploadLength : ℕ
  uploadOffset : Option ℕ
  overwrite : Bool
  targetRevision : Option String
  deriving DecidableEq

/-- What the manager is given. -/
structure UploadEnvironment where
  maxConcurrentUploads : ℕ
  maxTerminalRows : ℕ
  /-- The results of `crypto.randomUUID`, in order. -/
  randomUUID : ℕ → String
  /-- `logicalChildPath` in the folder of the page. -/
  logicalChildPath : String → String
  /-- Whether the browser accepts the requests to be sent, in order. -/
  dispatches : ℕ → Bool

def uploadPendingRowLimit : ℕ := 512

def enqueueBatchSize : ℕ := 50

def maxTimerDelayMs : ℕ := 2147483647

structure Manager where
  queue : UploadQueue ℕ
  uploaders : ℕ → Option Uploader
  nextIndex : ℕ
  failed : Finset ℕ
  unresolvedUnknown : Finset ℕ
  knownTargets : Finset String
  running : ℤ
  pendingRows : ℤ
  preflightReservedRows : ℤ
  batches : ℕ → Option Batch
  nextBatchId : ℕ
  cancellingBatch : Bool
  queueState : QueueState
  /-- The selections in the order of `enqueueTail`. -/
  jobs : List SelectionJob
  terminalHistory : List TerminalUploadRow
  /-- How many identifiers were drawn. -/
  drawn : ℕ
  /-- How many requests were handed to the browser. -/
  attempts : ℕ
  /-- The requests that were sent. -/
  sent : List SentRequest
  /-- What was unresolved whenever an uploader was started. -/
  starts : List (Finset ℕ)
  /-- A reservation could not be turned into rows. -/
  transferFailed : Bool

/-- `createUploadManager`. -/
def createUploadManager : Manager where
  queue := createUploadQueue
  uploaders := fun _ => none
  nextIndex := 0
  failed := ∅
  unresolvedUnknown := ∅
  knownTargets := ∅
  running := 0
  pendingRows := 0
  preflightReservedRows := 0
  batches := fun _ => none
  nextBatchId := 0
  cancellingBatch := false
  queueState := .running
  jobs := []
  terminalHistory := []
  drawn := 0
  attempts := 0
  sent := []
  starts := []
  transferFailed := false

namespace Manager

variable (env : UploadEnvironment) (i : ℕ) (m : Manager)

def modify (f : Uploader → Uploader) : Manager :=
  { m with uploaders := Function.update m.uploaders i ((m.uploaders i).map f) }

/-- The uploader has this lifecycle state. -/
def hasState (state : UploadLifecycleState) : Prop := ∃ u ∈ m.uploaders i, u.state = state

instance (state : UploadLifecycleState) : Decidable (m.hasState i state) :=
  decidable_of_iff ((m.uploaders i).any fun u => decide (u.state = state)) (by
    cases h : m.uploaders i <;> simp [hasState, h])

/-! ### Terminal rows -/

/-- The timers themselves fire as events of their own. -/
def clearTimeouts : Manager :=
  m.modify i fun u => { u with abortable := false, abortOutcomeUnknown := false }

def clearRecovery : Manager :=
  { m.modify i fun u =>
      { u with recoveryTimer := false, recoveryAction := .none, recoveryAvailableAt := some 0 } with
    failed := m.failed.erase i }

def hasPendingCapacity (additionalRows : ℕ) : Prop :=
  m.pendingRows + m.preflightReservedRows + additionalRows ≤ uploadPendingRowLimit

instance (additionalRows : ℕ) : Decidable (m.hasPendingCapacity additionalRows) :=
  inferInstanceAs (Decidable (_ ≤ _))

/-- The batch without the uploader; a batch that is complete and empty goes. -/
def Batch.without (i : ℕ) (batch : Batch) : Option Batch :=
  let members := batch.members.erase i
  if batch.enqueueComplete = true ∧ members = [] then none else some { batch with members }

def leaveBatch (batchId : ℕ) : Manager :=
  { m with
    batches := Function.update m.batches batchId ((m.batches batchId).bind (Batch.without i)) }

/-- `terminalHistory.add`: the oldest rows beyond the limit go, with their buttons. -/
def addTerminalRow (row : TerminalUploadRow) : Manager :=
  let rows := m.terminalHistory ++ [row]
  let excess := rows.length - env.maxTerminalRows
  (rows.take excess).foldl
    (fun m evicted => if evicted.disposable then m.clearRecovery evicted.index else m)
    { m with terminalHistory := rows.drop excess }

/-- `terminalHistory.remove` with the row of the uploader. -/
def removeTerminalRow : Manager :=
  { m with terminalHistory := m.terminalHistory.filter fun row => decide (row.index ≠ i) }

/-- The row of the uploader counts as pending no longer. -/
def releasePending : Manager :=
  match m.uploaders i with
  | some u =>
    if u.pendingAccounted then
      { m.modify i fun u => { u with pendingAccounted := false } with
        pendingRows := max 0 (m.pendingRows - 1) }
    else m
  | none => m

def retainTerminalRow (disposable : Bool) : Manager :=
  match m.uploaders i with
  | some u =>
    let m := (m.releasePending i).removeTerminalRow i
    let m := { m with knownTargets := m.knownTargets.erase u.name }
    (m.leaveBatch i u.batchId).addTerminalRow env ⟨i, disposable⟩
  | none => m

/-! ### Pausing -/

def pauseForAuthentication : Manager := { m with queueState := .pausedAuth }

def pauseForUnknown : Manager :=
  { m with
    unresolvedUnknown := insert i m.unresolvedUnknown
    queueState := if m.queueState = .pausedAuth then .pausedAuth else .pausedUnknown }

/-- The recovery that a terminal row offers, and when. -/
structure Recovery where
  action : UploadRecoveryAction
  retryAfter : Option ℕ
  now : ℕ
  deriving DecidableEq

def Recovery.none : Recovery := ⟨.none, .none, 0⟩

/-- A recovery that is available at once. -/
def Recovery.atOnce (action : UploadRecoveryAction) : Recovery := ⟨action, .none, 0⟩

def createRecoveryButton (recovery : Recovery) : Manager :=
  if recovery.action = .none then m
  else
    { m.modify i fun u =>
        let u := { u with recoveryAction := recovery.action }
        match recovery.retryAfter with
        | none | some 0 => u
        | some seconds =>
          if maxTimerDelayMs < seconds * 1000 then { u with recoveryAvailableAt := .none }
          else
            { u with
              recoveryAvailableAt := some (recovery.now + seconds * 1000)
              recoveryTimer := true } with
      failed := insert i m.failed }

/-! ### The end of a run -/

/-- How an uploader ends, with the phase of the same name. -/
inductive Ending where
  | completed
  | failed
  | unknown
  | cancelled
  deriving DecidableEq

def Ending.state : Ending → UploadLifecycleState
  | completed => .completed
  | failed => .failed
  | unknown => .unknown
  | cancelled => .cancelled

def Ending.phase : Ending → UploadPhase
  | completed => .completed
  | failed => .failed
  | unknown => .unknown
  | cancelled => .cancelled

/-- What `complete`, `fail`, `unknown` and `skipConflict` do before `finishRunning`. -/
def conclude (ending : Ending) (recovery : Recovery) : Manager :=
  let m := (m.clearTimeouts i).clearRecovery i
  let m := m.modify i fun u =>
    { u with state := ending.state, phase := ending.phase, awaiting := .nothing }
  let m := if ending = .unknown then m.pauseForUnknown i else m
  let m := m.createRecoveryButton i recovery
  m.retainTerminalRow env i (decide (recovery.action ≠ .none))

/-- The slot of the uploader is free again. -/
def releaseSlot : Manager :=
  { m.modify i fun u => { u with runningAccounted := false } with
    running := max 0 (m.running - 1) }

end Manager

end DufsRam.Client
