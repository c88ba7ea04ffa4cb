import DufsRam.Delete.Store

/-!
# What holds between two steps

A job that is prepared belongs to the request or the reconciliation that holds a lease on its
target; what is found below the trash of a job that is past prepared was moved there by the rename
whose revision the job has; and below no reserved name of the trash is anything without a job.
-/

namespace DufsRam.Delete

/-- The trash of the job of a key. -/
def trashOf (path : RelPath) (key : PurgeJobKey) : RelPath :=
  PathMap.sibling path (deleteTrashName key.id)

variable (s : State) (t : Uuid)

/-- The request has moved nothing. -/
def NotMoved : Prop := ∀ m ∈ s.moves, m.request ≠ t

/-- The request has moved its target and made the job of that move ready. -/
def HasReadied : Prop :=
  ∃ d ∈ s.readied, d.request = t ∧
    ∃ m ∈ s.moves, m.request = t ∧ m.key = d.key ∧ m.revision = d.revision

/-- The request holds the lease on its target. -/
def Holds (path : RelPath) : Prop := ⟨.request t, [path]⟩ ∈ s.leases

/-- The trash of no job is below the path. -/
def Clear (path : RelPath) : Prop :=
  ∀ k r, s.db.purge k = some r → ¬ path <+: r.job.trashPath

/-- The prepared job of a request. -/
structure Job (s : State) (t : Uuid) (path : RelPath) (key : PurgeJobKey) : Prop where
  holds : Holds s t path
  row : ∃ r, s.db.purge key = some r ∧ r.job.state = .prepared ∧ r.job.targetPath = path

/-- Everything below the trash was moved there. -/
def Move.Covers (m : Move) (f : Files) (trash : RelPath) : Prop :=
  ∀ rest x, f.entry (trash ++ rest) = some x → ∃ y, m.subtree rest = some y ∧ y.content = x.content

/-- The phases after which a request moves nothing. -/
def Phase.finishing : Phase → Prop
  | .completing _ | .done => True
  | _ => False

/-- A known outcome is the right one. -/
structure Sound (s : State) (t : Uuid) (o : StoredTerminalState) : Prop where
  succeeded : o = .succeeded → HasReadied s t
  failed : o = .failed → NotMoved s t

def PhaseOk (server : Server) (s : State) (t : Uuid) (r : Request) : Phase → Prop
  | .waiting => NotMoved s t
  | .leased | .inspected _ => NotMoved s t ∧ Holds s t r.path
  | .scanned _ => NotMoved s t ∧ Holds s t r.path ∧ Clear s r.path
  | .preparing _ _ => r.detached = true ∧ NotMoved s t ∧ Holds s t r.path ∧ Clear s r.path
  | .prepared _ key | .started _ key => r.detached = true ∧ NotMoved s t ∧ Clear s r.path ∧
      Job s t r.path key ∧ s.files.Vacant (trashOf r.path key)
  | .renamed _ key => Job s t r.path key ∧
      ∃ m ∈ s.moves, m.request = t ∧ m.key = key ∧ m.Covers s.files (trashOf r.path key) ∧
        ∀ x, s.files.entry (trashOf r.path key) = some x → m.revision = server.purgeRevision x.stat
  | .moved key trashRevision => Job s t r.path key ∧
      ∃ m ∈ s.moves, m.request = t ∧ m.key = key ∧ m.Covers s.files (trashOf r.path key) ∧
        m.revision = trashRevision
  | .kept key outcome => NotMoved s t ∧ Job s t r.path key ∧
      s.files.Vacant (trashOf r.path key) ∧ outcome.state = .failed
  | .completing outcome => Sound s t outcome.state
  | .done => True

/-- What the client is told is right and stays so. -/
def ToldOk (r : Request) : Prop :=
  match r.told with
  | some (.outcome o) => Sound s t o.state ∧ (o.state = .failed → r.phase.finishing)
  | some .rejected => NotMoved s t ∧ r.phase.finishing
  | some .unknown | none => True

structure RequestOk (server : Server) (s : State) (t : Uuid) (r : Request) : Prop where
  requestable : r.path.Requestable
  undispatched : r.detached = false → NotMoved s t
  phase : PhaseOk server s t r r.phase
  told : ToldOk s t r

/-- The move and the record by which a job became ready. -/
structure Backed (s : State) (k : PurgeJobKey) (revision : Option Revision) (m : Move) : Prop where
  move : m ∈ s.moves
  key : m.key = k
  revision : revision = some m.revision
  readied : ∃ d ∈ s.readied, d.key = k ∧ d.revision = m.revision

structure RowOk (s : State) (k : PurgeJobKey) (r : PurgeRow) : Prop where
  requestable : r.job.targetPath.Requestable
  trash : r.job.trashPath = trashOf r.job.targetPath k
  backed : r.job.state ≠ .prepared →
    ∃ m, Backed s k r.job.trashRevision m ∧ m.Covers s.files r.job.trashPath

def WorkOk (k : PurgeJobKey) (w : Work) : Prop :=
  ∃ r, s.db.purge k = some r ∧ r.job.state = .claimed ∧ r.job = w.job ∧
    (w.phase = .completing → s.files.Vacant r.job.trashPath)

def TaskOk (k : PurgeJobKey) (task : StoredPurgeJob × Bool) : Prop :=
  ∃ r, s.db.purge k = some r ∧ r.job.state = .prepared ∧ r.job = task.1 ∧
    ⟨.reconciler k, [r.job.targetPath, r.job.trashPath]⟩ ∈ s.leases ∧
    (task.2 = true → s.files.Vacant r.job.trashPath)

structure Inv (server : Server) (s : State) : Prop where
  leases : ∀ l ∈ s.leases, ∀ l' ∈ s.leases, l.holder ≠ l'.holder →
    ∀ p ∈ l.paths, ∀ q ∈ l'.paths, ¬ lexicalOverlap p q
  row : ∀ k r, s.db.purge k = some r → RowOk s k r
  trash : ∀ parents id rest x, s.files.entry (parents ++ deleteTrashName id :: rest) = some x →
    ∃ k r, s.db.purge k = some r ∧ r.job.trashPath = parents ++ [deleteTrashName id]
  request : ∀ t r, s.requests t = some r → RequestOk server s t r
  work : ∀ k w, s.works k = some w → WorkOk s k w
  task : ∀ k task, s.reconciliations k = some task → TaskOk s k task
  operation : ∀ k r o, s.db.operation k = some r → Decides r o →
    Sound s r.leaseToken o ∧
      (o = .failed → ∃ request, s.requests r.leaseToken = some request ∧ request.phase.finishing)
  mover : ∀ m ∈ s.moves, s.requests m.request ≠ none
  purged : ∀ p ∈ s.purged, ∀ rest x, p.subtree rest = some x →
    ∃ m, Backed s p.key p.revision m ∧ ∃ y, m.subtree rest = some y ∧ y.content = x.content

end DufsRam.Delete
