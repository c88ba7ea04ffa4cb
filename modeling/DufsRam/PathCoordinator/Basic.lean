import DufsRam.Lib.Machine
import DufsRam.PathCoordinator.Key
import Mathlib.Data.List.AList
import Mathlib.Data.List.Sort

/-!
# The path coordinator

Any number of `acquire_inner` calls run concurrently, each as its own request with a program
counter. A step of the system is what one request does while it holds a lock, or one access to an
atomic or to the watch channel outside of any lock, so that every interleaving of the source is a
schedule of steps. The counters are unbounded.
-/

namespace DufsRam.PathCoordinator

/-! ### Waiters -/

inductive WaiterState where
  | resolving (paths : List RelPath)
  | resolved (keys : List LeaseKey)
  deriving DecidableEq

def waiterConflicts (waiter : WaiterState) (requested : List LeaseKey) : Prop :=
  match waiter with
  | .resolving paths => ∃ left ∈ paths, ∃ right ∈ requested, lexicalOverlap left right.lexical
  | .resolved keys => pathsConflict keys requested

instance (waiter : WaiterState) (requested : List LeaseKey) :
    Decidable (waiterConflicts waiter requested) :=
  match waiter with
  | .resolving paths => inferInstanceAs <| Decidable <|
    ∃ left ∈ paths, ∃ right ∈ requested, lexicalOverlap left right.lexical
  | .resolved keys => inferInstanceAs (Decidable (pathsConflict keys requested))

def waiterLexicallyConflicts (waiter : WaiterState) (requested : List RelPath) : Prop :=
  match waiter with
  | .resolving paths => ∃ left ∈ paths, ∃ right ∈ requested, lexicalOverlap left right
  | .resolved keys => ∃ left ∈ keys, ∃ right ∈ requested, lexicalOverlap left.lexical right

instance (waiter : WaiterState) (requested : List RelPath) :
    Decidable (waiterLexicallyConflicts waiter requested) :=
  match waiter with
  | .resolving paths => inferInstanceAs <| Decidable <|
    ∃ left ∈ paths, ∃ right ∈ requested, lexicalOverlap left right
  | .resolved keys => inferInstanceAs <| Decidable <|
    ∃ left ∈ keys, ∃ right ∈ requested, lexicalOverlap left.lexical right

/-! ### Requests -/

/-- Where an `acquire_inner` call stands. -/
inductive Phase where
  /-- The identifier is drawn, the waiter is not in the map yet. -/
  | registering
  /-- At the top of the loop. -/
  | polling
  /-- The change version is marked as seen. -/
  | observed
  /-- The lease epoch is loaded. -/
  | loaded (epoch : ℕ)
  /-- The paths are resolved one after the other. -/
  | resolving (epoch : ℕ) (keys : List LeaseKey) (inFlight : Bool)
  /-- Keys of the loaded epoch are at hand. -/
  | ready (epoch : ℕ)
  /-- In `changes.changed().await`. -/
  | parked
  | granted (lease : ℕ)
  /-- The registration is dropped: the waiter is removed and its version bump outstanding. -/
  | cancelling
  | finished
  deriving DecidableEq

/-- One `acquire_inner` call. -/
structure Request where
  lexical : List RelPath
  phase : Phase
  /-- The change version the receiver has marked as seen. -/
  seen : ℕ
  /-- `resolved_paths`: the keys with the epoch they were resolved under. -/
  resolved : Option (ℕ × List LeaseKey)
  /-- How many leases had been released when the first of the current keys began to resolve. The
  source does not keep this number. -/
  since : ℕ
  deriving DecidableEq

/-- `PathLease::drop` inside the lease lock, with the keys of the lease. -/
inductive LeaseDrop where
  /-- The lease is out of the map, the epoch not advanced yet. -/
  | removed (keys : List LeaseKey)
  /-- The epoch is advanced, the version bump outstanding. -/
  | advanced (keys : List LeaseKey)
  deriving DecidableEq

def LeaseDrop.keys : LeaseDrop → List LeaseKey
  | .removed keys => keys
  | .advanced keys => keys

/-- `CoordinatorInner` with the requests and the lease drop that work on it. -/
structure System where
  leases : AList fun _ : ℕ => List LeaseKey
  waiters : AList fun _ : ℕ => WaiterState
  nextId : ℕ
  nextWaiterId : ℕ
  leaseEpoch : ℕ
  changes : ℕ
  dropping : Option LeaseDrop
  /-- The requests by their waiter identifier. -/
  requests : ℕ → Option Request

def System.new : System where
  leases := ∅
  waiters := ∅
  nextId := 1
  nextWaiterId := 1
  leaseEpoch := 0
  changes := 0
  dropping := none
  requests := fun _ => none

namespace System

/-- How many leases have been released. -/
def released (s : System) : ℕ :=
  s.leaseEpoch + match s.dropping with
    | some (.removed _) => 1
    | _ => 0

def setRequest (s : System) (i : ℕ) (r : Request) : System :=
  { s with requests := Function.update s.requests i (some r) }

/-- Change the state of a waiter that is in the map. -/
def setWaiter (s : System) (i : ℕ) (waiter : WaiterState) : AList fun _ : ℕ => WaiterState :=
  if i ∈ s.waiters then s.waiters.insert i waiter else s.waiters

/-- `waiters.range(..id).any(..)`. -/
def earlierWaiter (s : System) (i : ℕ) (p : WaiterState → Prop) : Prop :=
  ∃ e ∈ s.waiters.entries, e.1 < i ∧ p e.2

instance (s : System) (i : ℕ) (p : WaiterState → Prop) [DecidablePred p] :
    Decidable (s.earlierWaiter i p) :=
  inferInstanceAs (Decidable (∃ e ∈ s.waiters.entries, e.1 < i ∧ p e.2))

/-- The test of `mark_resolving_if_eligible`. -/
def blockedByEarlier (s : System) (i : ℕ) (lexical : List RelPath)
    (previous : Option (List LeaseKey)) : Prop :=
  match previous with
  | none => s.earlierWaiter i fun w => waiterLexicallyConflicts w lexical
  | some keys => s.earlierWaiter i fun w => waiterConflicts w keys

instance (s : System) (i : ℕ) (lexical : List RelPath) (previous : Option (List LeaseKey)) :
    Decidable (s.blockedByEarlier i lexical previous) :=
  match previous with
  | none => inferInstanceAs <| Decidable <|
    s.earlierWaiter i fun w => waiterLexicallyConflicts w lexical
  | some keys => inferInstanceAs <| Decidable <| s.earlierWaiter i fun w => waiterConflicts w keys

/-- The test of `try_acquire`. -/
def blocked (s : System) (i : ℕ) (requested : List LeaseKey) : Prop :=
  (∃ e ∈ s.leases.entries, pathsConflict e.2 requested) ∨
    s.earlierWaiter i fun w => waiterConflicts w requested

instance (s : System) (i : ℕ) (requested : List LeaseKey) : Decidable (s.blocked i requested) :=
  inferInstanceAs (Decidable ((∃ e ∈ s.leases.entries, pathsConflict e.2 requested) ∨ _))

end System

inductive AcquireAttempt where
  | acquired
  | blocked (becameResolved : Bool)
  | stale
  deriving DecidableEq

def WaiterState.isResolving : WaiterState → Bool
  | .resolving _ => true
  | .resolved _ => false

/-- The decision of `try_acquire`. -/
def System.tryAcquire (s : System) (i : ℕ) (requested : List LeaseKey) (epoch : ℕ) :
    AcquireAttempt :=
  if s.leaseEpoch ≠ epoch then .stale
  else match s.waiters.lookup i with
    | none => .stale
    | some waiter => if s.blocked i requested then .blocked waiter.isResolving else .acquired

/-- `lexical_paths.sort(); lexical_paths.dedup()`. -/
def sortPaths (paths : List RelPath) : List RelPath := (paths.insertionSort (· ≤ ·)).dedup

/-! ### Steps -/

inductive Action where
  /-- A call draws its waiter identifier. -/
  | register (paths : List RelPath)
  /-- `WaiterRegistration::new` inserts the waiter; the call subscribes to the changes. -/
  | insert (i : ℕ)
  /-- `changes.borrow_and_update()`. -/
  | observe (i : ℕ)
  | loadEpoch (i : ℕ)
  /-- Use the keys at hand, or `mark_resolving_if_eligible`. -/
  | markResolving (i : ℕ)
  | startResolve (i : ℕ)
  /-- A resolution ends with a key or fails. -/
  | finishResolve (i : ℕ) (result : Option ResolvedPathKey)
  | conclude (i : ℕ)
  | tryAcquire (i : ℕ)
  /-- `changes.changed()` returns. -/
  | wake (i : ℕ)
  /-- The future is dropped while it waits: the waiter is removed. -/
  | cancel (i : ℕ)
  | cancelNotify (i : ℕ)
  /-- `PathLease::drop` takes the lease lock and removes the lease. -/
  | dropRemove (lease : ℕ)
  | dropAdvance
  | dropNotify
  deriving DecidableEq

/-- The requests wait only while they resolve a path or are parked. -/
def Phase.cancellable : Phase → Bool
  | .resolving .. | .parked => true
  | _ => false

namespace System

variable (s : System) (i : ℕ)

/-- A request that `step` finds in the phase it needs takes a step. -/
def onRequest (f : Request → Option System) : Option System := (s.requests i).bind f

def register (paths : List RelPath) : Option System :=
  if paths = [] then none
  else some ({ s with nextWaiterId := s.nextWaiterId + 1 }.setRequest s.nextWaiterId
    ⟨sortPaths paths, .registering, 0, none, 0⟩)

def insertWaiter : Option System :=
  s.onRequest i fun r => match r.phase with
    | .registering =>
      some ({ s with waiters := s.waiters.insert i (.resolving r.lexical) }.setRequest i
        { r with phase := .polling, seen := s.changes })
    | _ => none

def observe : Option System :=
  s.onRequest i fun r => match r.phase with
    | .polling => some (s.setRequest i { r with phase := .observed, seen := s.changes })
    | _ => none

def loadEpoch : Option System :=
  s.onRequest i fun r => match r.phase with
    | .observed => some (s.setRequest i { r with phase := .loaded s.leaseEpoch })
    | _ => none

def markResolving : Option System :=
  s.onRequest i fun r => match r.phase with
    | .loaded epoch =>
      if r.resolved.map Prod.fst = some epoch then
        some (s.setRequest i { r with phase := .ready epoch })
      else if s.blockedByEarlier i r.lexical (r.resolved.map Prod.snd) then
        some (s.setRequest i { r with phase := .parked })
      else
        some ({ s with waiters := s.setWaiter i (.resolving r.lexical) }.setRequest i
          { r with phase := .resolving epoch [] false })
    | _ => none

def startResolve : Option System :=
  s.onRequest i fun r => match r.phase with
    | .resolving epoch keys false =>
      if keys.length < r.lexical.length then
        some (s.setRequest i
          { r with
            phase := .resolving epoch keys true
            since := if keys = [] then s.released else r.since })
      else none
    | _ => none

/-- A failed resolution uses the conservative key. -/
def finishResolve (root : FileIdentity) (i : ℕ) (result : Option ResolvedPathKey) :
    Option System :=
  s.onRequest i fun r => match r.phase with
    | .resolving epoch keys true => (r.lexical[keys.length]?).map fun lexical =>
      s.setRequest i
        { r with phase :=
            .resolving epoch (keys ++ [⟨lexical, result.getD (conservativePathKey root)⟩]) false }
    | _ => none

def conclude : Option System :=
  s.onRequest i fun r => match r.phase with
    | .resolving epoch keys false =>
      if keys.length = r.lexical.length then
        some (s.setRequest i { r with phase := .ready epoch, resolved := some (epoch, keys) })
      else none
    | _ => none

/-- The effect of `try_acquire` and of what the loop does with its result. -/
def afterAttempt (r : Request) (keys : List LeaseKey) : AcquireAttempt → System
  | .stale => s.setRequest i { r with phase := .polling }
  | .blocked becameResolved =>
    { s with
      waiters := s.setWaiter i (.resolved keys)
      changes := if becameResolved then s.changes + 1 else s.changes }.setRequest i
        { r with phase := .parked }
  | .acquired =>
    { s with
      nextId := s.nextId + 1
      waiters := s.waiters.erase i
      leases := s.leases.insert s.nextId keys
      changes := s.changes + 1 }.setRequest i { r with phase := .granted s.nextId }

/-- `try_acquire` waits for the lease lock, which a lease drop holds. -/
def acquire : Option System :=
  s.onRequest i fun r => match r.phase, s.dropping, r.resolved with
    | .ready epoch, none, some (_, keys) =>
      some (s.afterAttempt i r keys (s.tryAcquire i keys epoch))
    | _, _, _ => none

def wake : Option System :=
  s.onRequest i fun r => match r.phase with
    | .parked =>
      if r.seen ≠ s.changes then
        some (s.setRequest i { r with phase := .polling, seen := s.changes })
      else none
    | _ => none

def cancel : Option System :=
  s.onRequest i fun r =>
    if r.phase.cancellable then
      some ({ s with waiters := s.waiters.erase i }.setRequest i
        { r with phase := if i ∈ s.waiters then .cancelling else .finished })
    else none

def cancelNotify : Option System :=
  s.onRequest i fun r => match r.phase with
    | .cancelling =>
      some ({ s with changes := s.changes + 1 }.setRequest i { r with phase := .finished })
    | _ => none

def dropRemove (lease : ℕ) : Option System :=
  match s.leases.lookup lease, s.dropping with
  | some keys, none =>
    some { s with leases := s.leases.erase lease, dropping := some (.removed keys) }
  | _, _ => none

def dropAdvance : Option System :=
  match s.dropping with
  | some (.removed keys) =>
    some { s with leaseEpoch := s.leaseEpoch + 1, dropping := some (.advanced keys) }
  | _ => none

def dropNotify : Option System :=
  match s.dropping with
  | some (.advanced _) => some { s with changes := s.changes + 1, dropping := none }
  | _ => none

end System

/-- One step of the system; `root` is the identity of the shared root. -/
def step (root : FileIdentity) (s : System) : Action → Option System
  | .register paths => s.register paths
  | .insert i => s.insertWaiter i
  | .observe i => s.observe i
  | .loadEpoch i => s.loadEpoch i
  | .markResolving i => s.markResolving i
  | .startResolve i => s.startResolve i
  | .finishResolve i result => s.finishResolve root i result
  | .conclude i => s.conclude i
  | .tryAcquire i => s.acquire i
  | .wake i => s.wake i
  | .cancel i => s.cancel i
  | .cancelNotify i => s.cancelNotify i
  | .dropRemove lease => s.dropRemove lease
  | .dropAdvance => s.dropAdvance
  | .dropNotify => s.dropNotify

def machine (root : FileIdentity) : Transition.Machine System Action where
  init := .new
  step := step root

end DufsRam.PathCoordinator
