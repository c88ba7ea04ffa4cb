import Mathlib.Data.Nat.Notation

/-!
# The queue of the upload manager

`createUploadQueue` of `clients/web/modules/upload/queue.js`: a FIFO whose entries are cancelled in
place and skipped later. An entry is an object of its own; here it is known by its serial number. An
entry that `compact` has dropped was taken or cancelled before, so that it need not be found again.
-/

namespace DufsRam.Client

variable {α : Type}

structure QueueEntry (α : Type) where
  serial : ℕ
  active : Bool
  value : α
  deriving DecidableEq

structure UploadQueue (α : Type) where
  entries : List (QueueEntry α)
  head : ℕ
  size : ℕ
  nextSerial : ℕ
  deriving DecidableEq

/-- `createUploadQueue`. -/
def createUploadQueue : UploadQueue α := ⟨[], 0, 0, 0⟩

variable {q q' : UploadQueue α}

namespace UploadQueue

/-- The queue with the value at its end, and the entry that holds it. -/
def enqueue (value : α) (q : UploadQueue α) : UploadQueue α × ℕ :=
  ({ q with
      entries := q.entries ++ [⟨q.nextSerial, true, value⟩]
      size := q.size + 1
      nextSerial := q.nextSerial + 1 },
    q.nextSerial)

def compact (force : Bool) (q : UploadQueue α) : UploadQueue α :=
  if force = false ∧ (q.head < 256 ∨ q.head * 2 < q.entries.length) then q
  else { q with entries := q.entries.drop q.head, head := 0 }

/-- The entries with this one switched off. -/
def deactivate (serial : ℕ) (entries : List (QueueEntry α)) : List (QueueEntry α) :=
  entries.map fun e => if e.serial = serial then { e with active := false } else e

/-- Nothing is returned for an entry that is not active any more. -/
def cancel (entry : Option ℕ) (q : UploadQueue α) : Option (UploadQueue α) :=
  match entry with
  | none => none
  | some serial =>
    if q.entries.any fun e => e.active && decide (e.serial = serial) then
      some (compact false { q with entries := deactivate serial q.entries, size := q.size - 1 })
    else none

/-- The first active entry, and how many are passed on the way to the place after it. -/
def firstActive : List (QueueEntry α) → Option (ℕ × QueueEntry α)
  | [] => none
  | e :: rest =>
    if e.active then some (1, e) else (firstActive rest).map fun found => (found.1 + 1, found.2)

def dequeue (q : UploadQueue α) : Option α × UploadQueue α :=
  match firstActive (q.entries.drop q.head) with
  | none => (none, compact true { q with head := q.entries.length })
  | some (passed, e) =>
    (some e.value, compact false { q with
        head := q.head + passed
        entries := deactivate e.serial q.entries
        size := q.size - 1 })

/-! ### Progress -/

/-- What the queue has still to look at. -/
def remaining (q : UploadQueue α) : ℕ := q.entries.length - q.head

lemma remaining_compact (force : Bool) (q : UploadQueue α) :
    (q.compact force).remaining = q.remaining := by
  unfold compact
  split
  · rfl
  · simp [remaining]

lemma firstActive_passed {entries : List (QueueEntry α)} {passed : ℕ} {e : QueueEntry α}
    (h : firstActive entries = some (passed, e)) : 0 < passed ∧ passed ≤ entries.length := by
  induction entries generalizing passed with
  | nil => cases h
  | cons first rest ih =>
    unfold firstActive at h
    split at h
    · cases h
      simp
    · obtain ⟨⟨p, e'⟩, hrest, hp⟩ := Option.map_eq_some_iff.1 h
      cases hp
      have hpass := ih hrest
      simp only [List.length_cons]
      omega

/-- Every value that is taken brings the end of the queue nearer. -/
lemma remaining_dequeue {value : α} (h : q.dequeue = (some value, q')) :
    q'.remaining < q.remaining := by
  unfold dequeue at h
  split at h
  · cases h
  · next passed e hfst =>
    cases h
    have hpass := firstActive_passed hfst
    rw [remaining_compact]
    simp only [remaining, deactivate, List.length_map, List.length_drop] at hpass ⊢
    omega

/-- A queue that has given nothing has nothing to give. -/
lemma dequeue_of_empty (h : q.dequeue = (none, q')) : q'.dequeue.1 = none := by
  unfold dequeue at h
  split at h <;> cases h
  simp [dequeue, compact, firstActive]

end UploadQueue

end DufsRam.Client
