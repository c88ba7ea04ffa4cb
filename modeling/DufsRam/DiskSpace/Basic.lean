import DufsRam.Lib.Ledger
import DufsRam.Lib.Machine
import DufsRam.Upload.World

/-!
# Disk space reservations

`disk_space.rs`: a tracker holds, for each device, the bytes that are promised to uploads and a
revision that every change of this amount moves. A reservation is attempted with a free-space probe
that is made without the lock and only counts if the revision has not moved since. What a holder has
written it gives back in batches.

A step is one section under the lock, one probe, one change of a handle by its owner or one change
of the free space on a device. Steps of different threads interleave in any order.
-/

namespace DufsRam.DiskSpace

open Transition Function

/-- `st_dev`. -/
abbrev Device := ℕ

def maxCapacitySnapshotRetries : ℕ := 8

def reservationReleaseBatchBytes : ℕ := 1024 * 1024

/-- `checked_add` of 64 bit integers. -/
def checkedAdd (a b : ℕ) : Option ℕ := if a + b ≤ u64Max then some (a + b) else none

/-- `DiskSpaceReservation`. A flush first takes the pending bytes out of the handle and then waits
for the lock; in between they are `releasing`. The last field records the bytes that are written but
not consumed yet. -/
structure Reservation where
  device : Device
  remaining : ℕ
  pendingRelease : ℕ
  releasing : Option ℕ
  written : ℕ
  deriving DecidableEq

/-- Where a call of `reserve_on_device` is. -/
inductive AttemptPhase where
  | start
  | observed (revision : ℕ)
  | probed (revision available : ℕ)
  /-- The reservation is granted, as the handle of this number. -/
  | granted (handle : ℕ)
  | refused
  /-- The probe has failed. -/
  | failed
  /-- No stable snapshot was found. -/
  | wouldBlock
  deriving DecidableEq

structure Attempt where
  device : Device
  requested : ℕ
  minimumFree : ℕ
  /-- The rounds that are left. -/
  rounds : ℕ
  phase : AttemptPhase
  deriving DecidableEq

/-- The tracker, the calls and handles of its users, and the free space of the devices. `faulted`
records that an `expect` or a debug assertion of the accounting has failed. -/
structure State where
  reserved : Device → Option ℕ
  revisions : Device → Option ℕ
  attempts : ℕ → Option Attempt
  reservations : ℕ → Option Reservation
  opened : ℕ
  available : Device → ℕ
  faulted : Bool

inductive Event where
  | begin (attempt : ℕ) (device : Device) (requested minimumFree : ℕ)
  | observe (attempt : ℕ)
  | probe (attempt : ℕ) (fault : Bool)
  | reserve (attempt : ℕ)
  | consume (handle bytes : ℕ)
  | flush (handle : ℕ)
  | release (handle : ℕ)
  | drop (handle : ℕ)
  /-- A holder writes, and the free space goes down. -/
  | write (handle bytes lowered : ℕ)
  /-- The free space changes for another reason. -/
  | elsewhere (device : Device) (available : ℕ)

/-! ### The tracker -/

def spaceBudgetFits (available alreadyReserved requested minimumFree : ℕ) : Bool :=
  ((checkedAdd minimumFree alreadyReserved).bind fun required =>
    checkedAdd required requested).any fun required => decide (required ≤ available)

namespace State

variable (s : State)

def reservedOn (device : Device) : ℕ := (s.reserved device).getD 0

def revisionOf (device : Device) : ℕ := (s.revisions device).getD 0

def bumpRevision (device : Device) : State :=
  { s with revisions :=
      update s.revisions device (some ((s.revisionOf device + 1) % 2 ^ 64)) }

/-- The sum a reservation adds up to, unless the addition overflows. -/
def addReserved (device : Device) (requested : ℕ) : State :=
  match checkedAdd (s.reservedOn device) requested with
  | some sum => { s with reserved := update s.reserved device (some sum) }
  | none => { s with faulted := true }

/-- The new handle. -/
def openReservation (device : Device) (requested : ℕ) : State :=
  { s with
    reservations := update s.reservations s.opened (some ⟨device, requested, 0, none, 0⟩)
    opened := s.opened + 1 }

def reserveLocked (device : Device) (available requested minimumFree : ℕ) : Option State :=
  if spaceBudgetFits available (s.reservedOn device) requested minimumFree then
    if 0 < requested then
      some (((s.addReserved device requested).bumpRevision device).openReservation device requested)
    else some (s.openReservation device requested)
  else none

/-- `DiskSpaceTracker::release`. The bucket of a device is removed with its last byte. -/
def giveBack (device : Device) (bytes : ℕ) : State :=
  if bytes = 0 then s
  else match s.reserved device with
    | some reserved =>
      { s with
        reserved := update s.reserved device
          (if reserved - bytes = 0 then none else some (reserved - bytes))
        faulted := s.faulted || decide (reserved < bytes) }.bumpRevision device
    | none => { s with faulted := true }.bumpRevision device

/-! ### Attempts -/

def setAttempt (t : ℕ) (a : Attempt) : State :=
  { s with attempts := update s.attempts t (some a) }

def begin (t : ℕ) (device : Device) (requested minimumFree : ℕ) : Option State :=
  if (s.attempts t).isSome then none
  else some (s.setAttempt t
    ⟨device, requested, minimumFree, maxCapacitySnapshotRetries, .start⟩)

def observe (t : ℕ) (a : Attempt) : Option State :=
  match a.phase with
  | .start =>
    if a.rounds = 0 then some (s.setAttempt t { a with phase := .wouldBlock })
    else
      some (s.setAttempt t { a with
        rounds := a.rounds - 1
        phase := .observed (s.revisionOf a.device) })
  | _ => none

/-- A probe fails when its result does not fit into 64 bits. -/
def probe (t : ℕ) (a : Attempt) (fault : Bool) : Option State :=
  match a.phase with
  | .observed revision =>
    some (s.setAttempt t { a with
      phase :=
        if fault ∨ u64Max < s.available a.device then .failed
        else .probed revision (s.available a.device) })
  | _ => none

/-- The section of `reserve_on_device` that follows the probe. -/
def reserve (t : ℕ) (a : Attempt) : Option State :=
  match a.phase with
  | .probed revision available =>
    if s.revisionOf a.device ≠ revision then some (s.setAttempt t { a with phase := .start })
    else match s.reserveLocked a.device available a.requested a.minimumFree with
      | some s' => some (s'.setAttempt t { a with phase := .granted s.opened })
      | none => some (s.setAttempt t { a with phase := .refused })
  | _ => none

/-! ### Handles -/

def setReservation (h : ℕ) (r : Option Reservation) : State :=
  { s with reservations := update s.reservations h r }

end State

/-- `flush_pending_release` as far as the lock. -/
def Reservation.takePending (r : Reservation) : Reservation :=
  { r with pendingRelease := 0, releasing := some r.pendingRelease }

namespace State

variable (s : State)

/-- Nothing else can be done with a handle while it is flushed. -/
def onIdle (h : ℕ) (f : Reservation → Option State) : Option State :=
  (s.reservations h).bind fun r => if r.releasing.isNone then f r else none

def consume (h bytes : ℕ) (r : Reservation) : State :=
  match checkedAdd r.pendingRelease (min bytes r.remaining) with
  | none => { s with faulted := true }
  | some pending =>
    let r' : Reservation := { r with
      remaining := r.remaining - min bytes r.remaining
      pendingRelease := pending
      written := r.written - bytes }
    s.setReservation h <| some <|
      if reservationReleaseBatchBytes ≤ pending then r'.takePending else r'

def release (h : ℕ) (r : Reservation) : Option State :=
  r.releasing.map fun bytes =>
    (s.setReservation h (some { r with releasing := none })).giveBack r.device bytes

def drop (h : ℕ) (r : Reservation) : State :=
  match checkedAdd r.remaining r.pendingRelease with
  | none => { s with faulted := true }
  | some tracked => (s.setReservation h none).giveBack r.device tracked

def write (h bytes lowered : ℕ) (r : Reservation) : State :=
  { s.setReservation h (some { r with written := r.written + bytes }) with
    available := update s.available r.device (s.available r.device - lowered) }

def step (s : State) : Event → Option State
  | .begin t device requested minimumFree => s.begin t device requested minimumFree
  | .observe t => (s.attempts t).bind fun a => s.observe t a
  | .probe t fault => (s.attempts t).bind fun a => s.probe t a fault
  | .reserve t => (s.attempts t).bind fun a => s.reserve t a
  | .consume h bytes => s.onIdle h fun r => some (s.consume h bytes r)
  | .flush h => s.onIdle h fun r => some (s.setReservation h (some r.takePending))
  | .release h => (s.reservations h).bind fun r => s.release h r
  | .drop h => s.onIdle h fun r => some (s.drop h r)
  | .write h bytes lowered => s.onIdle h fun r => some (s.write h bytes lowered r)
  | .elsewhere device available =>
    some { s with available := update s.available device available }

end State

/-- The tracker starts empty, with any free space on the devices. -/
def machine (available : Device → ℕ) : Machine State Event where
  init := ⟨fun _ => none, fun _ => none, fun _ => none, fun _ => none, 0, available, false⟩
  step := State.step

/-- A run of the tracker and its users. -/
structure Run where
  available : Device → ℕ
  schedule : ℕ → Event

def Run.state (ρ : Run) (n : ℕ) : State := (machine ρ.available).run ρ.schedule n

end DufsRam.DiskSpace
