import DufsRam.Client.Handlers
import DufsRam.Lib.Machine

/-!
# Selections

`addFiles` and `enqueueReservedSelection` of `clients/web/modules/upload/manager.js`. A selection
reserves its rows at once; its destinations are checked and its files are enqueued when the
selections before it are done. The functions here are what happens between two `await`s.
-/

namespace DufsRam.Client

open Function

/-- A target of the response to a preflight. -/
structure PreflightValue where
  path : String
  exists_ : Bool
  revision : Option String
  replaceable : Bool
  deriving DecidableEq

/-- Each value is about the path that was asked for, and has a revision exactly if it exists. -/
def parseUploadPreflight (payload : List PreflightValue) (requestedPaths : List String) :
    Option (List PreflightValue) :=
  if payload.map PreflightValue.path = requestedPaths ∧ requestedPaths.Nodup ∧
      (∀ value ∈ payload, value.exists_ = value.revision.isSome) ∧
      (∀ value ∈ payload, ∀ revision ∈ value.revision, isRevision revision = true) then
    some payload
  else none

def uploadBatchPathBytesLimit : ℕ := 256 * 1024

/-- The first entry of every name that nothing else targets. -/
def acceptEntries (knownTargets : Finset String) :
    List UploadSelectionEntry → List UploadSelectionEntry → List UploadSelectionEntry
  | accepted, [] => accepted
  | accepted, entry :: rest =>
    if entry.name ∈ knownTargets ∨ entry.name ∈ accepted.map UploadSelectionEntry.name then
      acceptEntries knownTargets accepted rest
    else acceptEntries knownTargets (accepted ++ [entry]) rest

/-- What the preflight says of an entry: it is blocked, in conflict or free. -/
def freeEntry : UploadSelectionEntry × PreflightValue → Option QueuedUploadEntry
  | (entry, target) =>
    if target.replaceable = true ∧ target.exists_ = false then some ⟨entry.name, entry.size, none⟩
    else none

def conflictEntry : UploadSelectionEntry × PreflightValue → Option UploadConflict
  | (entry, target) =>
    if target.replaceable = true ∧ target.exists_ = true then some ⟨entry, target.revision⟩
    else none

/-- An entry that the user has agreed to replace. -/
def UploadConflict.confirmed (conflict : UploadConflict) : QueuedUploadEntry :=
  ⟨conflict.entry.name, conflict.entry.size, conflict.revision⟩

namespace Manager

variable (env : UploadEnvironment) (now : ℕ) (m : Manager)

/-! ### Reservations -/

/-- `addFiles` with a selection that was found to be valid. -/
def addFiles (entries : List UploadSelectionEntry) : Manager :=
  if entries = [] ∨ ¬ m.hasPendingCapacity entries.length then m
  else
    { m with
      preflightReservedRows := m.preflightReservedRows + entries.length
      jobs := m.jobs ++ [⟨entries, ⟨entries.length, true⟩, .waiting⟩] }

/-- `releasePreflightRows`, which would throw without the rows that were reserved. -/
def releasePreflightRows (reservation : PreflightReservation) : Manager :=
  if reservation.active = true ∧ (reservation.count : ℤ) ≤ m.preflightReservedRows then
    { m with preflightReservedRows := m.preflightReservedRows - reservation.count }
  else m

/-- The result of `transferPreflightRows`, which may throw. -/
inductive Transfer where
  | thrown
  | refused
  | done (m : Manager)

def transferPreflightRows (reservation : PreflightReservation) (admittedRows : ℕ) : Transfer :=
  if reservation.active = false ∨ admittedRows < 1 ∨ reservation.count < admittedRows ∨
      m.preflightReservedRows < reservation.count then .thrown
  else
    let remainingReserved := m.preflightReservedRows - reservation.count
    if (uploadPendingRowLimit : ℤ) < m.pendingRows + remainingReserved + admittedRows then .refused
    else
      .done { m with
        preflightReservedRows := remainingReserved
        pendingRows := m.pendingRows + admittedRows }

/-! ### The first selection -/

/-- The selection is done with, and what it still reserves is released. -/
def endJob (job : SelectionJob) (rest : List SelectionJob) : Manager :=
  { m with jobs := rest }.releasePreflightRows job.reservation

def awaitStage (job : SelectionJob) (rest : List SelectionJob) (stage : SelectionStage) : Manager :=
  { m with jobs := { job with stage } :: rest }

/-- The selection has its turn. -/
def beginSelection (job : SelectionJob) (rest : List SelectionJob) : Manager :=
  if m.queueState ≠ .running then m.endJob job rest
  else
    let accepted := acceptEntries m.knownTargets [] job.entries
    let paths := accepted.map fun entry => env.logicalChildPath entry.name
    if accepted = [] ∨ uploadBatchPathBytesLimit < (paths.map String.utf8ByteSize).sum then
      m.endJob job rest
    else m.awaitStage job rest (.preflight accepted)

/-! ### Enqueuing -/

/-- The uploader of an entry, before it is enqueued. -/
def createUploader (batchId : ℕ) (entry : QueuedUploadEntry) : Manager :=
  { m with
    uploaders := update m.uploaders m.nextIndex (some
      { name := entry.name
        size := entry.size
        batchId := batchId
        targetRevision := entry.revision
        uploadId := env.randomUUID m.drawn
        pendingAccounted := true })
    nextIndex := m.nextIndex + 1
    drawn := m.drawn + 1
    batches := update m.batches batchId ((m.batches batchId).map fun batch =>
      { batch with members := batch.members ++ [m.nextIndex] }) }

/-- One round of the loop: the entry has its uploader and is no longer one of the remaining. -/
def materialize (batchId : ℕ) (entry : QueuedUploadEntry) : Manager :=
  let i := m.nextIndex
  let m := (m.createUploader env batchId entry).enqueue env i .none
  { m with
    batches := update m.batches batchId ((m.batches batchId).map fun batch =>
      { batch with remainingEntries := batch.remainingEntries - 1 }) }

def cancelRequested (batchId : ℕ) : Prop :=
  ∃ batch ∈ m.batches batchId, batch.cancelRequested = true

instance (batchId : ℕ) : Decidable (m.cancelRequested batchId) :=
  decidable_of_iff ((m.batches batchId).any Batch.cancelRequested) (by
    cases h : m.batches batchId <;> simp [cancelRequested, h])

/-- The `finally` of the loop: the names and rows of the entries that are left are released. -/
def closeBatch (batchId : ℕ) (left : List QueuedUploadEntry) : Manager :=
  let remaining := ((m.batches batchId).map Batch.remainingEntries).getD 0
  { m with
    knownTargets := m.knownTargets \ (left.map QueuedUploadEntry.name).toFinset
    pendingRows := max 0 (m.pendingRows - remaining)
    batches := update m.batches batchId ((m.batches batchId).bind fun batch =>
      if batch.members = [] then none
      else some { batch with remainingEntries := 0, enqueueComplete := true }) }

/-- The loop until it yields, after a whole number of chunks, or ends. -/
def enqueueLoop (job : SelectionJob) (rest : List SelectionJob) (batchId : ℕ) :
    ℕ → List QueuedUploadEntry → Manager → Manager
  | _, [], m => (m.closeBatch batchId []).endJob job rest
  | chunk, entry :: entries, m =>
    if m.cancelRequested batchId then (m.closeBatch batchId (entry :: entries)).endJob job rest
    else
      let m := m.materialize env batchId entry
      match chunk with
      | 0 | 1 => m.awaitStage job rest (.enqueuing batchId entries)
      | chunk + 2 => enqueueLoop job rest batchId (chunk + 1) entries m

/-- The batch of the entries, whose names are claimed. -/
def openBatch (entries : List QueuedUploadEntry) : Manager :=
  { m with
    batches := update m.batches m.nextBatchId (some ⟨[], false, false, entries.length⟩)
    nextBatchId := m.nextBatchId + 1
    knownTargets := m.knownTargets ∪ (entries.map QueuedUploadEntry.name).toFinset }

/-- The place of an entry in the selection. -/
def selectionOrder (accepted : List UploadSelectionEntry) (entry : QueuedUploadEntry) : ℕ :=
  (accepted.map UploadSelectionEntry.name).idxOf entry.name

/-- The entries that are uploaded, in the order of the selection and without those that something
else targets by now. -/
def admissible (accepted : List UploadSelectionEntry) (uploadEntries : List QueuedUploadEntry) :
    List QueuedUploadEntry :=
  (uploadEntries.insertionSort fun a b =>
    selectionOrder accepted a ≤ selectionOrder accepted b).filter
    fun entry => decide (entry.name ∉ m.knownTargets)

/-- The rest of `enqueueReservedSelection` once it is known what to upload. -/
def admitEntries (job : SelectionJob) (rest : List SelectionJob)
    (accepted : List UploadSelectionEntry) (uploadEntries : List QueuedUploadEntry) : Manager :=
  let entries := m.admissible accepted uploadEntries
  if entries = [] then m.endJob job rest
  else
    match m.transferPreflightRows job.reservation entries.length with
    | .thrown | .refused => { m with transferFailed := true }.endJob job rest
    | .done m =>
      let job := { job with reservation := { job.reservation with active := false } }
      enqueueLoop env job rest m.nextBatchId enqueueBatchSize entries (m.openBatch entries)

/-- The response to the preflight. -/
def preflightReply (job : SelectionJob) (rest : List SelectionJob)
    (accepted : List UploadSelectionEntry) (payload : List PreflightValue) : Manager :=
  match parseUploadPreflight payload
      (accepted.map fun entry => env.logicalChildPath entry.name) with
  | none => m.endJob job rest
  | some targets =>
    if m.queueState ≠ .running then m.endJob job rest
    else
      let uploadEntries := (accepted.zip targets).filterMap freeEntry
      let conflicts := (accepted.zip targets).filterMap conflictEntry
      if conflicts = [] then m.admitEntries env job rest accepted uploadEntries
      else m.awaitStage job rest (.choice accepted uploadEntries conflicts)

def preflightFailed (job : SelectionJob) (rest : List SelectionJob) (authentication : Bool) :
    Manager :=
  (if authentication then m.pauseForAuthentication else m).endJob job rest

/-- The dialog over the destinations that exist. -/
def chooseBatch (job : SelectionJob) (rest : List SelectionJob)
    (accepted : List UploadSelectionEntry) (uploadEntries : List QueuedUploadEntry)
    (conflicts : List UploadConflict) (choice : DialogChoice) : Manager :=
  if choice = .cancel ∨ m.queueState ≠ .running then m.endJob job rest
  else if choice = .confirm then
    m.admitEntries env job rest accepted (uploadEntries ++ conflicts.map UploadConflict.confirmed)
  else m.admitEntries env job rest accepted uploadEntries

end Manager

/-! ### Events -/

/-- What the user, the browser and the server do, and when. -/
inductive ManagerEvent where
  | addFiles (entries : List UploadSelectionEntry)
  | beginSelection
  | preflightReply (payload : List PreflightValue)
  | preflightFailed (authentication : Bool)
  | chooseBatch (choice : Manager.DialogChoice)
  /-- The loop goes on after it has yielded. -/
  | continueBatch
  | bodySent (i : ℕ)
  | uploadResponse (i : ℕ) (response : Response)
  | networkError (i : ℕ)
  | oversizedResponse (i : ℕ)
  | timeout (i : ℕ)
  | checkpointReply (i : ℕ) (response : Response)
  | checkpointFailed (i : ℕ) (action : UploadRecoveryAction) (retryAfter : Option ℕ)
  | chooseConflict (i : ℕ) (choice : Manager.DialogChoice)
  | discardReply (i : ℕ) (response : Response)
  | discardFailed (i : ℕ) (authentication : Bool)
  | reconcileReply (i : ℕ) (response : Response)
  | reconcileFailed (i : ℕ) (authentication : Bool)
  | recoveryTimer (i : ℕ)
  | recover (i : ℕ) (recovery : UploadRecoveryAction)
  | cancel (i : ℕ)

namespace Manager

variable (env : UploadEnvironment) (now : ℕ) (m : Manager)

/-- The event of an uploader, if it waits for it. -/
def uploaderStep (i : ℕ) : Awaiting → ManagerEvent → Option Manager
  | .transfer, .uploadResponse _ response => some (m.handleUploadResponse env now i response)
  | .transfer, .networkError _ => some (m.handleNetworkError env i)
  | .transfer, .oversizedResponse _ => some (m.handleOversizedResponse env i)
  | .transfer, .timeout _ => some (m.handleTimeout env i)
  | .checkpoint _ retryAfterCheck, .checkpointReply _ response =>
    some (m.checkpointReply env now i retryAfterCheck response)
  | .checkpoint queryingUnknown _, .checkpointFailed _ action retryAfter =>
    some (m.checkpointFailed env i queryingUnknown ⟨action, retryAfter, now⟩)
  | .choice revision staged, .chooseConflict _ choice =>
    some (m.chooseConflict env i revision staged choice)
  | .discard restart, .discardReply _ response => some (m.discardReply env i restart response)
  | .discard restart, .discardFailed _ authentication =>
    some (m.discardFailed env i restart authentication)
  | .reconcile restart, .reconcileReply _ response =>
    some (m.reconcileReply env i restart response)
  | .reconcile restart, .reconcileFailed _ authentication =>
    some (m.reconcileFailed env i restart authentication)
  | _, _ => none

/-- The event of the first selection, if it waits for it. -/
def selectionStep (job : SelectionJob) (rest : List SelectionJob) :
    SelectionStage → ManagerEvent → Option Manager
  | .waiting, .beginSelection => some (m.beginSelection env job rest)
  | .preflight accepted, .preflightReply payload =>
    some (m.preflightReply env job rest accepted payload)
  | .preflight _, .preflightFailed authentication =>
    some (m.preflightFailed job rest authentication)
  | .choice accepted uploadEntries conflicts, .chooseBatch choice =>
    some (m.chooseBatch env job rest accepted uploadEntries conflicts choice)
  | .enqueuing batchId entries, .continueBatch =>
    some (enqueueLoop env job rest batchId enqueueBatchSize entries m)
  | _, _ => none

/-- The uploader that an event is for. -/
def eventIndex : ManagerEvent → Option ℕ
  | .bodySent i | .uploadResponse i _ | .networkError i | .oversizedResponse i | .timeout i
  | .checkpointReply i _ | .checkpointFailed i _ _ | .chooseConflict i _ | .discardReply i _
  | .discardFailed i _ | .reconcileReply i _ | .reconcileFailed i _ | .recoveryTimer i
  | .recover i _ | .cancel i => some i
  | .addFiles _ | .beginSelection | .preflightReply _ | .preflightFailed _ | .chooseBatch _
  | .continueBatch => none

def step (event : ManagerEvent) : Option Manager :=
  match event with
  | .addFiles entries => some (m.addFiles entries)
  | .bodySent i => some (m.beginCommitWait i)
  | .recoveryTimer i => some (m.recoveryTimer i)
  | .recover i recovery => if recovery = .none then none else some (m.recover env now i recovery)
  | .cancel i => some (m.cancel env i)
  | _ =>
    match eventIndex event with
    | some i => (m.uploaders i).bind fun u => m.uploaderStep env now i u.awaiting event
    | none =>
      match m.jobs with
      | [] => none
      | job :: rest => m.selectionStep env job rest job.stage event

end Manager

/-- The manager of a page; every event carries the time at which it happens. -/
def uploadManager (env : UploadEnvironment) : Transition.Machine Manager (ℕ × ManagerEvent) where
  init := createUploadManager
  step m event := m.step env event.1 event.2

end DufsRam.Client
