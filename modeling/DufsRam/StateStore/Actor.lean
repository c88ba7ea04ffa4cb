import Mathlib.Logic.Function.Basic
import DufsRam.StateStore.Commands

/-!
# The thread of the store and its callers

`StoreWorker::run` of `state_store/actor.rs`, with the parties that reserve operations through it:
the callers of `begin_operation`, which may be dropped at any await, the envelope that carries a
reservation to its caller, and the guard that owns it afterwards.

Commands reach the thread over a bounded queue, cancellations over an unbounded one. Whoever sends a
cancellation afterwards tries to put a `Wake` on the bounded queue; the two sends are two steps
here, and so are the execution of a `Begin` and the delivery of its reply. What the thread does with
one control command, a store transaction included, is one step.
-/

namespace DufsRam.Actor

open Transition

/-- The key and the lease of a reserved row. -/
structure Reservation where
  key : OperationKey
  lease : Uuid
  deriving DecidableEq

/-! ### Messages -/

structure ReservationCleanup where
  reservation : Reservation
  armed : Bool
  deriving DecidableEq

structure BeginEnvelope where
  begin : StoreBegin
  cleanup : Option ReservationCleanup
  deriving DecidableEq

namespace BeginEnvelope

def new (begin : StoreBegin) (key : OperationKey) : BeginEnvelope where
  begin := begin
  cleanup := match begin with
    | .started lease => some ⟨⟨key, lease⟩, true⟩
    | _ => none

def reservation (envelope : BeginEnvelope) : Option Uuid :=
  match envelope.begin with
  | .started lease => some lease
  | _ => none

def disarm (envelope : BeginEnvelope) : StoreBegin := envelope.begin

/-- What dropping the envelope abandons. -/
def armed (envelope : BeginEnvelope) : Option Reservation :=
  (envelope.cleanup.filter (·.armed)).map (·.reservation)

end BeginEnvelope

/-- A cancellation names the caller that sends it. -/
inductive ControlCommand where
  | abandon (sender : ℕ) (reservation : Reservation)
  | shutdown
  deriving DecidableEq

/-- The commands that do not concern a reservation; those that only read are left out. -/
inductive OtherCommand where
  | status (key : OperationKey)
  | upload (command : UploadCommand)
  | purge (command : PurgeCommand)
  deriving DecidableEq

def OtherCommand.command : OtherCommand → StoreCommand
  | status key => .operation (.status key)
  | upload command => .upload command
  | purge command => .purge command

/-- A command of the operation protocol names the caller that holds the receiver of its reply. -/
inductive Command where
  | wake
  | begin (caller : ℕ) (key : OperationKey) (fp : Fingerprint)
  | markCommitStarted (caller : ℕ) (reservation : Reservation)
  | complete (caller : ℕ) (reservation : Reservation) (outcome : StoredOutcome)
  | other (command : OtherCommand)
  deriving DecidableEq

/-! ### Parties -/

/-- What a guard waits for. -/
inductive Call where
  | markCommitStarted
  | complete
  deriving DecidableEq

inductive Caller where
  | idle
  /-- In `begin_operation`, with what its reply channel holds. -/
  | beginning (key : OperationKey) (reply : Option (Result BeginEnvelope))
  /-- Owner of an `OperationGuard` that is not completed, with the call it waits for. -/
  | guarding (guard : Reservation) (call : Option (Call × Option (Result Bool)))
  /-- Between the two sends of `send_control`. -/
  | waking
  | finished

inductive Phase where
  /-- The beginning of the loop, before `retry_one_deferred_abandon`. -/
  | controls
  /-- In the loop of `process_controls`. -/
  | draining
  /-- In `command_receiver.recv()`. -/
  | receiving
  /-- Between the execution of a `Begin` and the send of its reply. -/
  | replying (caller : ℕ) (key : OperationKey) (result : Result BeginEnvelope)
  | stopped

/-- `close_blocking` sends its control command once. -/
inductive Closer where
  | idle
  | waking
  | joining
  deriving DecidableEq

structure Config where
  limits : Limits
  commandQueueCapacity : ℕ
  capacity_pos : 0 < commandQueueCapacity

structure State where
  db : Database
  healthy : Bool
  commands : List Command
  controls : List ControlCommand
  actor : Phase
  deferredAbandons : List Reservation
  callers : ℕ → Caller
  closer : Closer

/-- Each event of the thread tells whether the store command in it fails, and at what time it
runs. -/
inductive Event where
  | start (caller : ℕ) (key : OperationKey) (fp : Fingerprint)
  /-- The future of the caller is polled and finds its reply. -/
  | receive (caller : ℕ)
  /-- The future of the caller is dropped. -/
  | cancel (caller : ℕ)
  | mark (caller : ℕ)
  | complete (caller : ℕ) (outcome : StoredOutcome)
  | wake (caller : ℕ)
  | submit (command : OtherCommand)
  | close
  | closeWake
  | retryDeferred (fault : Bool) (now : TimeMs)
  | control (fault : Bool) (now : TimeMs)
  | command (fault : Bool) (now : TimeMs) (lease : Uuid)
  | reply (fault : Bool) (now : TimeMs)

/-- A store command that may fail for a reason of its own. -/
def attempt {α : Type} (fault : Bool) (x : Result α) : Result α :=
  if fault then .error "The state database is unavailable" else x

namespace State

variable (cfg : Config) (s : State)

/-! ### Sending -/

def set (caller : ℕ) (c : Caller) : State :=
  { s with callers := Function.update s.callers caller c }

def goto (phase : Phase) : State := { s with actor := phase }

def isStopped : Bool :=
  match s.actor with
  | .stopped => true
  | _ => false

/-- `try_send` on the bounded queue. -/
def trySend (command : Command) : Option State :=
  if s.isStopped ∨ cfg.commandQueueCapacity ≤ s.commands.length then none
  else some { s with commands := s.commands ++ [command] }

def send (command : Command) : Option State :=
  if s.healthy then s.trySend cfg command else none

/-- The first half of `send_control`; the channel is gone with the thread. -/
def sendControl (caller : ℕ) (reservation : Reservation) : State :=
  if s.isStopped then s.set caller .finished
  else { s.set caller .waking with controls := s.controls ++ [.abandon caller reservation] }

/-- The second half of `send_control`: a queue that is full needs no `Wake`. -/
def sendWake : State := (s.trySend cfg .wake).getD s

/-! ### Callers -/

def start (caller : ℕ) (key : OperationKey) (fp : Fingerprint) : Option State :=
  match s.callers caller with
  | .idle =>
    match s.send cfg (.begin caller key fp) with
    | some s' => some (s'.set caller (.beginning key none))
    | none => some (s.set caller .finished)
  | _ => none

/-- `OperationRegistry::begin` on the reply of the store. -/
def accept (caller : ℕ) (key : OperationKey) (begin : StoreBegin) : State :=
  match begin with
  | .started lease => s.set caller (.guarding ⟨key, lease⟩ none)
  | _ => s.set caller .finished

def receive (caller : ℕ) : Option State :=
  match s.callers caller with
  | .beginning key (some (.ok envelope)) => some (s.accept caller key envelope.disarm)
  | .beginning _ (some (.error _)) => some (s.set caller .finished)
  | .beginning _ none =>
    if s.isStopped then some { s.set caller .finished with healthy := false } else none
  | .guarding guard (some (call, reply)) =>
    match call, reply with
    | .markCommitStarted, some _ => some (s.set caller (.guarding guard none))
    -- the guard is completed, and dropping it does nothing
    | .complete, some (.ok true) => some (s.set caller .finished)
    | .complete, some _ => some (s.sendControl caller guard)
    | call, none =>
      if s.isStopped then
        match call with
        | .markCommitStarted => some (s.set caller (.guarding guard none))
        | .complete => some (s.sendControl caller guard)
      else none
  | _ => none

def cancel (caller : ℕ) : Option State :=
  match s.callers caller with
  | .beginning _ (some (.ok envelope)) =>
    match envelope.armed with
    | some reservation => some (s.sendControl caller reservation)
    | none => some (s.set caller .finished)
  | .beginning _ _ => some (s.set caller .finished)
  | .guarding guard _ => some (s.sendControl caller guard)
  | _ => none

/-- Without a place on the queue the call returns at once, and the guard stays. -/
def mark (caller : ℕ) : Option State :=
  match s.callers caller with
  | .guarding guard none =>
    (s.send cfg (.markCommitStarted caller guard)).map
      (·.set caller (.guarding guard (some (.markCommitStarted, none))))
  | _ => none

/-- Without a place on the queue the guard, which the call owns, is dropped. -/
def complete (caller : ℕ) (outcome : StoredOutcome) : Option State :=
  match s.callers caller with
  | .guarding guard none =>
    match outcome.validate, s.send cfg (.complete caller guard outcome) with
    | .ok _, some s' => some (s'.set caller (.guarding guard (some (.complete, none))))
    | _, _ => some (s.sendControl caller guard)
  | _ => none

def wake (caller : ℕ) : Option State :=
  match s.callers caller with
  | .waking => some ((s.sendWake cfg).set caller .finished)
  | _ => none

def close : Option State :=
  match s.closer with
  | .idle =>
    some { s with
      healthy := false
      controls := if s.isStopped then s.controls else s.controls ++ [.shutdown]
      closer := .waking }
  | _ => none

def closeWake : Option State :=
  match s.closer with
  | .waking => some { s.sendWake cfg with closer := .joining }
  | _ => none

/-! ### The thread -/

/-- The database after a cancellation that succeeded. -/
def abandonOperation (fault : Bool) (now : TimeMs) (r : Reservation) : Option Database :=
  match attempt fault (DufsRam.abandonOperation cfg.limits now r.key r.lease s.db) with
  | .ok (_, db') => some db'
  | .error _ => none

def deferAbandon (r : Reservation) : State :=
  if r ∈ s.deferredAbandons then s
  else { s with deferredAbandons := s.deferredAbandons ++ [r] }

/-- A cancellation that fails is kept for later. -/
def abandonOrDefer (fault : Bool) (now : TimeMs) (r : Reservation) : State :=
  match s.abandonOperation cfg fault now r with
  | some db' => { s with db := db' }
  | none => s.deferAbandon r

def retryDeferred (fault : Bool) (now : TimeMs) : Option State :=
  match s.actor, s.deferredAbandons with
  | .controls, [] => some (s.goto .draining)
  | .controls, r :: rest =>
    match s.abandonOperation cfg fault now r with
    | some db' => some { s with db := db', deferredAbandons := rest, actor := .draining }
    | none => some { s with deferredAbandons := rest ++ [r], actor := .draining }
  | _, _ => none

/-- The thread returns: its receivers are dropped, and what they hold with them. -/
def stop : State :=
  { s with
    healthy := false
    commands := []
    controls := []
    deferredAbandons := []
    actor := .stopped }

def control (fault : Bool) (now : TimeMs) : Option State :=
  match s.actor, s.controls with
  | .draining, [] => some (s.goto .receiving)
  | .draining, .abandon _ r :: rest =>
    some ({ s with controls := rest }.abandonOrDefer cfg fault now r)
  | .draining, .shutdown :: _ => some s.stop
  | _, _ => none

/-- `reply.is_closed()` of the reply channel that `begin_operation` made. -/
def isClosed (caller : ℕ) : Bool :=
  match s.callers caller with
  | .beginning _ _ => false
  | _ => true

/-- The reply to a guard that still waits for it. -/
def deliver (caller : ℕ) (reply : Result Bool) : State :=
  match s.callers caller with
  | .guarding guard (some (call, none)) =>
    s.set caller (.guarding guard (some (call, some reply)))
  | _ => s

/-- The execution of a command whose reply is a flag. -/
def answer (caller : ℕ) (result : Result (Bool × Database)) : State :=
  match result with
  | .ok (changed, db') => { s with db := db' }.deliver caller (.ok changed)
  | .error message => s.deliver caller (.error message)

def executeBegin (fault : Bool) (now : TimeMs) (lease : Uuid) (caller : ℕ) (key : OperationKey)
    (fp : Fingerprint) : State :=
  match attempt fault (beginOperation cfg.limits now lease key fp s.db) with
  | .ok (begin, db') =>
    { s with db := db', actor := .replying caller key (.ok (.new begin key)) }
  | .error message => s.goto (.replying caller key (.error message))

def execute (fault : Bool) (now : TimeMs) (lease : Uuid) : Command → State
  | .wake => s
  | .begin caller key fp =>
    if s.isClosed caller then s else s.executeBegin cfg fault now lease caller key fp
  | .markCommitStarted caller r =>
    s.answer caller (attempt fault (markOperationCommitStarted now r.key r.lease s.db))
  | .complete caller r outcome =>
    s.answer caller
      (attempt fault (completeOperation cfg.limits now r.key r.lease outcome s.db))
  | .other command =>
    if fault then s
    else { s with db := (StoreEvent.exec cfg.limits ⟨now, command.command⟩ s.db).2 }

/-- The thread takes a command; it returns to the beginning of its loop unless a reply is due. -/
def command (fault : Bool) (now : TimeMs) (lease : Uuid) : Option State :=
  match s.actor, s.commands with
  | .receiving, command :: rest =>
    some ({ s with commands := rest, actor := .controls }.execute cfg fault now lease command)
  | _, _ => none

/-- The reply comes back when its receiver is gone; a reservation in it is abandoned here. -/
def returned (fault : Bool) (now : TimeMs) (key : OperationKey) (result : Result BeginEnvelope) :
    State :=
  match result with
  | .ok envelope =>
    match envelope.reservation with
    | some lease => s.abandonOrDefer cfg fault now ⟨key, lease⟩
    | none => s
  | .error _ => s

def reply (fault : Bool) (now : TimeMs) : Option State :=
  match s.actor with
  | .replying caller key result =>
    match s.callers caller with
    | .beginning key' none =>
      some ((s.set caller (.beginning key' (some result))).goto .controls)
    | _ => some ((s.goto .controls).returned cfg fault now key result)
  | _ => none

def step (s : State) : Event → Option State
  | .start caller key fp => s.start cfg caller key fp
  | .receive caller => s.receive caller
  | .cancel caller => s.cancel caller
  | .mark caller => s.mark cfg caller
  | .complete caller outcome => s.complete cfg caller outcome
  | .wake caller => s.wake cfg caller
  | .submit command => s.send cfg (.other command)
  | .close => s.close
  | .closeWake => s.closeWake cfg
  | .retryDeferred fault now => s.retryDeferred cfg fault now
  | .control fault now => s.control cfg fault now
  | .command fault now lease => s.command cfg fault now lease
  | .reply fault now => s.reply cfg fault now

end State

/-- A store that has been opened: recovery has run, and no caller has come yet. -/
structure Run extends Config where
  stored : Database
  recoveryNow : TimeMs
  db : Database
  recovered : recoverDatabase limits.ttlMs limits.uploadTtlMs recoveryNow stored = .ok db
  schedule : ℕ → Event

namespace Run

variable (R : Run)

def init : State where
  db := R.db
  healthy := true
  commands := []
  controls := []
  actor := .controls
  deferredAbandons := []
  callers _ := .idle
  closer := .idle

def machine : Machine State Event := ⟨R.init, State.step R.toConfig⟩

def state (n : ℕ) : State := R.machine.run R.schedule n

end Run

end DufsRam.Actor
