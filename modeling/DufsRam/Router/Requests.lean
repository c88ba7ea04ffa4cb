import DufsRam.Lib.Machine
import DufsRam.Upload.Boundary

/-!
# Requests, their deadlines and the work they leave behind

A request that changes something waits for work that does not stop with it: an upload for its
tracked task (`run_tracked_upload`), a tracked operation for its detached commit
(`run_operation_commit`). The waiting future is answered by the work, by the deadline or not at all,
when the client goes away first; the work goes on in every case. Both sides share one
`MutationProgress`.
-/

namespace DufsRam

open Crash Transition

/-- The future that waits for the outcome of a request. -/
inductive Waiter (ρ : Type) where
  | waiting
  | answered (res : ρ)
  /-- The client has gone away, and the future is dropped. -/
  | gone
  deriving DecidableEq

/-- What the cell holds after a step of the task, which now takes it to hold `seen`. A step in
which the task sees what the cell does not hold cannot happen. -/
def MutationProgress.observe (cell seen : MutationProgress) : Option MutationProgress :=
  match seen with
  | .detachedCommit =>
    if cell.beginUploadMutation.1 then some cell.beginUploadMutation.2 else none
  | .cancelledBeforeUploadMutation =>
    if cell = .cancelledBeforeUploadMutation then some cell else none
  | .preflight | .reserved => if cell.outcomeCanBeUnknown then none else some cell

/-! ### Uploads -/

namespace TrackedUpload

/-- The answers the environment has given to the task, once it is spawned, and the shared cell. -/
structure State where
  answers : Option (List Answer)
  mutation : MutationProgress
  waiter : Waiter UploadResponse

inductive Event where
  /-- The request is turned away before its task is spawned. -/
  | refuse (reason : UploadRejection)
  | spawn
  /-- The task goes on to its next call of the environment, or ends. -/
  | task (a : Answer)
  /-- The timer of `await_tracked_upload_task` fires. -/
  | deadline
  /-- The task has ended and its result is taken. -/
  | join
  | disconnect

/-- An upload and the world it starts in. -/
structure Run where
  site : Site
  request : UploadRequest
  world : World
  fresh : world.mutation = .preflight
  schedule : ℕ → Event

namespace Run

variable (ρ : Run)

/-- The task after some answers: it waits for the next one as long as it is cut short. -/
def task (answers : List Answer) : Outcome Answer World Exit UploadResponse :=
  handleUpload ρ.site ρ.request answers ρ.world

/-- The response of the router to the result of the task. -/
def joined (mutation : MutationProgress) :
    Outcome Answer World Exit UploadResponse → Option UploadResponse
  | .done res _ _ | .raised (.reply res) _ _ => some res
  | .raised (.error e) _ _ => some (renderUploadError ρ.request mutation e)
  | .crashed _ => none

def stepTask (s : State) (answers : List Answer) (a : Answer) : Option State :=
  match ρ.task answers with
  | .crashed _ =>
    (s.mutation.observe (ρ.task (answers ++ [a])).state.mutation).map fun mutation =>
      { s with answers := some (answers ++ [a]), mutation }
  | .done _ _ _ | .raised _ _ _ => none

/-- `await_tracked_upload_task` at its deadline: it closes the boundary if it is still open. -/
def stepDeadline (s : State) : State :=
  { s with
    mutation := s.mutation.cancelUploadBeforeMutation.2
    waiter := .answered (deadlineResponse ρ.request s.mutation.cancelUploadBeforeMutation.1) }

def step (s : State) : Event → Option State
  | .refuse reason =>
    if s.answers.isNone ∧ s.waiter = .waiting then
      some { s with waiter := .answered (ρ.request.rejection reason) }
    else none
  | .spawn =>
    if s.answers.isNone ∧ s.waiter = .waiting then some { s with answers := some [] } else none
  | .task a => s.answers.bind fun answers => ρ.stepTask s answers a
  | .deadline =>
    if s.answers.isSome ∧ s.waiter = .waiting then some (ρ.stepDeadline s) else none
  | .join =>
    if s.waiter = .waiting then
      (s.answers.bind fun answers => ρ.joined s.mutation (ρ.task answers)).map fun res =>
        { s with waiter := .answered res }
    else none
  | .disconnect => if s.waiter = .waiting then some { s with waiter := .gone } else none

def machine : Machine State Event where
  init := ⟨none, .preflight, .waiting⟩
  step := ρ.step

def state (n : ℕ) : State := ρ.machine.run ρ.schedule n

/-- The database and the files as the task has left them so far. -/
def tracked (n : ℕ) : Tracked :=
  match (ρ.state n).answers with
  | none => ρ.world.tracked
  | some answers => (ρ.task answers).state.tracked

/-- The deadline does not pass between two reads of the clock in one stop of the preparation. -/
def Steady : Prop :=
  ∀ n answers, (ρ.state n).answers = some answers →
    ¬ SlipsAtStop ρ.site ρ.request answers ρ.world

end Run

end TrackedUpload

/-! ### Tracked operations -/

inductive OperationPublicState where
  | running
  | succeeded
  | failed
  | rejected
  | unknown
  deriving DecidableEq

structure OperationProblem where
  code : String
  detail : String
  recovery : RecoveryAdvice
  deriving DecidableEq

structure OperationResponse where
  status : StatusCode
  state : OperationPublicState
  problem : Option OperationProblem
  deriving DecidableEq

def applyOperationTimeout (mutation : MutationProgress) : OperationResponse :=
  if mutation.outcomeCanBeUnknown then
    ⟨.gatewayTimeout, .unknown, some ⟨"operation_result_unknown",
      "Request timed out after commit dispatch; query the operation status before retrying",
      .queryJob⟩⟩
  else
    ⟨.gatewayTimeout, .rejected, some ⟨"request_timeout",
      "Request timed out before filesystem commit; retrying with the same operation ID is safe",
      .retry⟩⟩

/-- The response of the router to an error that escaped the handler. -/
def renderOperationError (mutation : MutationProgress) : OperationResponse :=
  if mutation.outcomeCanBeUnknown then
    ⟨.internalServerError, .unknown, some ⟨"outcome_uncertain",
      "Operation outcome is uncertain; inspect the target before trying again", .queryJob⟩⟩
  else
    ⟨.internalServerError, .rejected, some ⟨"operation_not_committed",
      "Request failed before filesystem commit; retrying with the same operation ID is safe",
      .retry⟩⟩

namespace TrackedOperation

/-- How far the handler is. Before it commits it only reads. -/
inductive Phase (χ : Type) where
  | preflight
  /-- The operation is registered. -/
  | reserved
  /-- The commit is spawned; the answers the environment has given to it. -/
  | committing (answers : List χ)

structure State (χ : Type) where
  phase : Phase χ
  mutation : MutationProgress
  waiter : Waiter OperationResponse

inductive Event (χ : Type) where
  | reserve
  /-- The handler answers without a commit. -/
  | reply (res : OperationResponse)
  /-- The handler fails without a commit. -/
  | fail
  /-- `run_commit_inner` gets its permit, marks the commit and spawns it. -/
  | dispatch
  | commit (c : χ)
  | join
  /-- The request timeout of the router. -/
  | timeout
  | disconnect

/-- An operation with its commit, an arbitrary program over the files and rows it may change, and
the response of its handler to what the commit returns. -/
structure Run (χ σ ε α : Type) where
  commit : Prog χ σ ε α
  render : α → OperationResponse
  files : σ
  schedule : ℕ → Event χ

namespace Run

variable {χ σ ε α : Type} (ρ : Run χ σ ε α)

def joined (mutation : MutationProgress) : Outcome χ σ ε α → Option OperationResponse
  | .done a _ _ => some (ρ.render a)
  | .raised _ _ _ => some (renderOperationError mutation)
  | .crashed _ => none

/-- The steps of the handler itself, which end when its future is dropped. -/
def stepHandler (s : State χ) : Event χ → Option (State χ)
  | .reserve =>
    match s.phase with
    | .preflight => some { s with phase := .reserved, mutation := s.mutation.markReserved }
    | .reserved | .committing _ => none
  | .reply res =>
    match s.phase with
    | .preflight | .reserved => some { s with waiter := .answered res }
    | .committing _ => none
  | .fail =>
    match s.phase with
    | .preflight | .reserved =>
      some { s with waiter := .answered (renderOperationError s.mutation) }
    | .committing _ => none
  | .dispatch =>
    match s.phase with
    | .reserved =>
      some { s with phase := .committing [], mutation := s.mutation.markDetachedCommit }
    | .preflight | .committing _ => none
  | .join =>
    match s.phase with
    | .committing answers => (ρ.joined s.mutation (ρ.commit answers ρ.files)).map fun res =>
        { s with waiter := .answered res }
    | .preflight | .reserved => none
  | .timeout => some { s with waiter := .answered (applyOperationTimeout s.mutation) }
  | .disconnect => some { s with waiter := .gone }
  | .commit _ => none

/-- A step of the spawned commit. -/
def stepCommit (s : State χ) (c : χ) : Option (State χ) :=
  match s.phase with
  | .preflight | .reserved => none
  | .committing answers =>
    match ρ.commit answers ρ.files with
    | .crashed _ => some { s with phase := .committing (answers ++ [c]) }
    | .done _ _ _ | .raised _ _ _ => none

def step (s : State χ) : Event χ → Option (State χ)
  | .commit c => ρ.stepCommit s c
  | e => if s.waiter = .waiting then ρ.stepHandler s e else none

def machine : Machine (State χ) (Event χ) where
  init := ⟨.preflight, .preflight, .waiting⟩
  step := ρ.step

def state (n : ℕ) : State χ := ρ.machine.run ρ.schedule n

/-- The files and rows as the commit has left them so far. -/
def tracked (n : ℕ) : σ :=
  match (ρ.state n).phase with
  | .preflight | .reserved => ρ.files
  | .committing answers => (ρ.commit answers ρ.files).state

end Run

end TrackedOperation

end DufsRam
