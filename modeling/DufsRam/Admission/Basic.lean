import DufsRam.InternalNames
import DufsRam.PathCoordinator.Basic
import DufsRam.PathCoordinator.Scan
import DufsRam.RootedFs.Mutation
import DufsRam.RootedFs.PathKey
import DufsRam.StateStore.Commands

/-!
# Requests that change the tree

Uploads, DELETE, relocation and the creation of a directory, each as a request that holds a lease on
its paths from before its first look at the state database until it is done. A step is one step of
the path coordinator, one command of the state store, one page of a scan that is read or compared,
or one change of the tree, so that every interleaving of requests is a schedule of steps. A request
may give up between any two of its steps.
-/

namespace DufsRam.Admission

open PathCoordinator

/-! ### Requests -/

/-- What a request is for. A resumed upload is a PATCH, which continues or confirms an upload. -/
inductive Task where
  | delete (path : RelPath)
  | relocate (source destination : RelPath) (overwrite : Bool)
  | mkdir (path : RelPath)
  | upload (path : RelPath) (key : UploadSessionKey) (resumed : Bool)
  deriving DecidableEq

/-- The paths a request holds its lease on. -/
def Task.paths : Task → List RelPath
  | .delete path | .mkdir path | .upload path _ _ => [path]
  | .relocate source destination _ => [source, destination]

inductive Phase where
  /-- Before the next page after the cursor is read. -/
  | scanning (scanner : StatePathScanner) (after : Option StatePathCursor)
  /-- A page is read but not compared yet. -/
  | comparing (scanner : StatePathScanner) (page : StatePathPage)
  /-- The scan has found nothing, or there is none to make. -/
  | admitted
  /-- A DELETE has stored its purge job. -/
  | prepared (key : PurgeJobKey)
  /-- The change of the tree is made. -/
  | committed
  deriving DecidableEq

structure Request where
  task : Task
  phase : Phase
  deriving DecidableEq

/-- `has_persisted_path_conflict` for all but uploads, `has_persisted_path_descendant` for a fresh
one. A resumed upload makes no scan. -/
def Task.initialPhase : Task → Phase
  | .delete path | .mkdir path => .scanning (statePathConflictScanner [path]) none
  | .relocate source destination _ =>
    .scanning (statePathConflictScanner [source, destination]) none
  | .upload path _ false => .scanning (statePathDescendantScanner path) none
  | .upload _ _ true => .admitted

/-- The limits of the store and the digest in the names of stages. -/
structure Server where
  limits : Limits
  digest : String → BitVec 256

/-- The requests are found by their leases. -/
structure State where
  coordinator : PathCoordinator.System
  db : Database
  tree : FileTree
  requests : AList fun _ : ℕ => Request

/-- `STATE_PATH_ADMISSION_PAGE_SIZE`. -/
def statePathAdmissionPageSize : ℕ := 256

def resolveIn (T : FileTree) (faults : Faults) (path : RelPath) : Option ResolvedPathKey :=
  (RootedFs.resolvedPathKeyBlocking T.toTree faults path).toOption

/-! ### Events -/

inductive Event where
  /-- A step of the coordinator other than the end of a resolution. -/
  | coordinate (action : PathCoordinator.Action)
  /-- A waiter resolves its next path. -/
  | resolve (waiter : ℕ) (faults : Faults)
  | begin (lease : ℕ) (task : Task)
  | readPage (lease : ℕ)
  | comparePage (lease : ℕ) (faults : Faults)
  /-- A missing directory above a path of the request is made. -/
  | makeAncestor (lease : ℕ) (path : RelPath) (directory : FileIdentity)
  /-- One round of `prepare_purge_with_identity`. -/
  | prepare (lease : ℕ) (now : TimeMs) (key : PurgeJobKey) (identity : StoredFileIdentity)
      (isDirectory : Bool)
  /-- The trash rename, the relocation, or the new directory. -/
  | commit (lease : ℕ) (directory : FileIdentity)
  | makeStageDirectory (lease : ℕ) (directory : FileIdentity)
  | createStage (lease : ℕ)
  | save (lease : ℕ) (now : TimeMs) (session : StoredUploadSession) (ttlMs : TimeMs)
  | publish (lease : ℕ)
  /-- The request is answered or given up, and keeps its lease until it drops it. -/
  | finish (lease : ℕ)
  /-- Any other command of the store. -/
  | store (event : StoreEvent)

namespace State

variable (s : State) (l : ℕ)

def onRequest (f : Request → Option State) : Option State := (s.requests.lookup l).bind f

def setPhase (r : Request) (phase : Phase) : State :=
  { s with requests := s.requests.insert l { r with phase } }

def close : State := { s with requests := s.requests.erase l }

/-- The coordinator moves on; a lease in use is not dropped. -/
def coordinate (action : PathCoordinator.Action) : Option State :=
  match action with
  | .finishResolve .. => none
  | .dropRemove l =>
    if l ∈ s.requests then none
    else (step s.tree.root s.coordinator action).map
      fun coordinator => { s with coordinator }
  | _ => (step s.tree.root s.coordinator action).map
      fun coordinator => { s with coordinator }

/-- The path that a waiter resolves next. -/
def nextPath (i : ℕ) : Option RelPath :=
  (s.coordinator.requests i).bind fun r => match r.phase with
    | .resolving _ keys _ => r.lexical[keys.length]?
    | _ => none

def resolve (i : ℕ) (faults : Faults) : Option State :=
  (s.nextPath i).bind fun path =>
    (s.coordinator.finishResolve s.tree.root i (resolveIn s.tree faults path)).map
      fun coordinator => { s with coordinator }

/-- A request starts with a lease on exactly its paths, which no other request uses. -/
def begin (task : Task) : Option State :=
  match s.coordinator.leases.lookup l with
  | none => none
  | some keys =>
    if keys.map LeaseKey.lexical = sortPaths task.paths ∧
        (∀ p ∈ task.paths, p.Requestable) ∧ l ∉ s.requests then
      some { s with requests := s.requests.insert l ⟨task, task.initialPhase⟩ }
    else none

/-- A store that cannot be read ends the request. -/
def readPage : Option State :=
  s.onRequest l fun r => match r.phase with
    | .scanning scanner after =>
      match stateBlockingPaths after statePathAdmissionPageSize s.db with
      | .ok page => some (s.setPhase l r (.comparing scanner page))
      | .error _ => some (s.close l)
    | _ => none

def comparePage (faults : Faults) : Option State :=
  s.onRequest l fun r => match r.phase with
    | .comparing scanner page =>
      match scanner.pageConflicts (resolveIn s.tree faults) page.paths, page.next with
      | (true, _), _ => some (s.close l)
      | (false, _), none => some (s.setPhase l r .admitted)
      | (false, scanner'), some c => some (s.setPhase l r (.scanning scanner' (some c)))
    | _ => none

/-- A request that was admitted makes a missing directory above one of its paths. -/
def makeAncestor (path : RelPath) (f : FileIdentity) : Option State :=
  s.onRequest l fun r => match r.phase with
    | .admitted | .prepared _ =>
      if ∃ p ∈ r.task.paths, strictlyBelow path p then
        (s.tree.makeDirectoryAt path f).map fun tree => { s with tree }
      else none
    | _ => none

def purgeJob (path : RelPath) (key : PurgeJobKey) (identity : StoredFileIdentity)
    (isDirectory : Bool) (trashPath : RelPath) : StoredPurgeJob where
  key := key
  targetPath := path
  trashPath := trashPath
  sourceIdentity := identity
  trashRevision := none
  isDirectory := isDirectory
  state := .prepared
  attempts := 0

/-- A job that is not inserted is tried again under another key. -/
def prepare (server : Server) (l : ℕ) (now : TimeMs) (key : PurgeJobKey)
    (identity : StoredFileIdentity) (isDirectory : Bool) : Option State :=
  s.onRequest l fun r => match r.task, r.phase with
    | .delete path, .admitted =>
      (trashPathForId path key.id).map fun trashPath =>
        match StoreEvent.exec server.limits
            ⟨now, .purge (.prepare (purgeJob path key identity isDirectory trashPath))⟩ s.db with
        | (.prepared .inserted, db) => { s with db }.setPhase l r (.prepared key)
        | (_, db) => { s with db }
    | _, _ => none

/-- The change of the tree that the request was admitted for. -/
def commitTree (task : Task) (phase : Phase) (directory : FileIdentity) : Option FileTree :=
  match task, phase with
  | .delete path, .prepared key =>
    (trashPathForId path key.id).bind fun trashPath => s.tree.renameAt path trashPath false
  | .relocate source destination overwrite, .admitted =>
    if FileTree.isDirectoryEntry (s.tree.lookup source) ∧ source <+: destination then none
    else s.tree.renameAt source destination overwrite
  | .mkdir path, .admitted => s.tree.makeDirectoryAt path directory
  | _, _ => none

def commit (directory : FileIdentity) : Option State :=
  s.onRequest l fun r => (s.commitTree r.task r.phase directory).map fun tree =>
    { s with tree }.setPhase l r .committed

/-! ### Uploads -/

/-- The path and the key of an upload that was admitted. -/
def uploading (r : Request) : Option (RelPath × UploadSessionKey) :=
  match r.task, r.phase with
  | .upload path key _, .admitted | .upload path key _, .committed => some (path, key)
  | _, _ => none

def makeStageDirectory (directory : FileIdentity) : Option State :=
  s.onRequest l fun r => (uploading r).bind fun u =>
    (s.tree.makeDirectoryAt (u.1.dropLast ++ [uploadStageDirectory]) directory).map
      fun tree => { s with tree }

def createStage (server : Server) (l : ℕ) : Option State :=
  s.onRequest l fun r => (uploading r).bind fun u =>
    (uploadTempPath server.digest u.1 u.2.id).bind fun stagePath =>
      (s.tree.createFileAt stagePath).map fun tree => { s with tree }

/-- An upload saves its own session. -/
def save (server : Server) (l : ℕ) (now : TimeMs) (session : StoredUploadSession)
    (ttlMs : TimeMs) : Option State :=
  s.onRequest l fun r => (uploading r).bind fun u =>
    if session.key = u.2 ∧ session.targetPath = u.1 ∧
        uploadTempPath server.digest u.1 u.2.id = some session.stagePath then
      some { s with
        db := (StoreEvent.exec server.limits ⟨now, .upload (.save session ttlMs)⟩ s.db).2 }
    else none

/-- What an upload may replace: nothing, a file or a link, but no directory or device. -/
def replaceableEntry (o : Option Entry) : Bool :=
  match o with
  | none | some (.file .regularFile) | some (.symlink _) => true
  | _ => false

/-- The stage of a session whose commit has started is renamed to its target. -/
def publish (server : Server) (l : ℕ) : Option State :=
  s.onRequest l fun r => match r.task, r.phase with
    | .upload path key _, .admitted =>
      (uploadTempPath server.digest path key.id).bind fun stagePath =>
        if (s.db.uploadSessions.lookup key).any (fun row =>
              decide (row.session.state = .commitStarted)) ∧
            s.tree.lookup stagePath = some (.file .regularFile) ∧
            replaceableEntry (s.tree.lookup path) = true then
          (s.tree.renameAt stagePath path true).map fun tree =>
            { s with tree }.setPhase l r .committed
        else none
    | _, _ => none

/-! ### Other commands -/

/-- The key is that of the job with which a DELETE is about to move its target. -/
def PreparedKey (key : PurgeJobKey) : Prop :=
  ∃ e ∈ s.requests.entries, e.2.phase = .prepared key

instance (key : PurgeJobKey) : Decidable (s.PreparedKey key) :=
  inferInstanceAs (Decidable (∃ e ∈ s.requests.entries, e.2.phase = .prepared key))

/-- The command inserts no row, and leaves the jobs of requests under way alone. -/
def allowed : StoreCommand → Prop
  | .operation command => command ≠ .restart
  | .upload (.save ..) | .purge (.prepare _) => False
  | .upload _ | .purge .claimDue => True
  | .purge (.markReady key _) | .purge (.retry key _) | .purge (.complete key)
  | .purge (.remove key) => ¬ s.PreparedKey key

instance (command : StoreCommand) : Decidable (s.allowed command) :=
  match command with
  | .operation command => inferInstanceAs (Decidable (command ≠ .restart))
  | .upload (.save ..) | .purge (.prepare _) => isFalse id
  | .upload (.reject ..) | .upload (.removeIfMatches _) | .upload (.removeExpiredIfMatches _)
  | .purge .claimDue => isTrue trivial
  | .purge (.markReady key _) | .purge (.retry key _) | .purge (.complete key)
  | .purge (.remove key) => inferInstanceAs (Decidable (¬ s.PreparedKey key))

def store (server : Server) (e : StoreEvent) : Option State :=
  if s.allowed e.command then some { s with db := (e.exec server.limits s.db).2 } else none

end State

def step (server : Server) (s : State) : Event → Option State
  | .coordinate action => s.coordinate action
  | .resolve i faults => s.resolve i faults
  | .begin l task => s.begin l task
  | .readPage l => s.readPage l
  | .comparePage l faults => s.comparePage l faults
  | .makeAncestor l path f => s.makeAncestor l path f
  | .prepare l now key identity isDirectory => s.prepare server l now key identity isDirectory
  | .commit l f => s.commit l f
  | .makeStageDirectory l f => s.makeStageDirectory l f
  | .createStage l => s.createStage server l
  | .save l now session ttlMs => s.save server l now session ttlMs
  | .publish l => s.publish server l
  | .finish l => s.onRequest l fun _ => some (s.close l)
  | .store e => s.store server e

/-- The server starts with the rows and the tree it finds. -/
def machine (server : Server) (db : Database) (tree : FileTree) :
    Transition.Machine State Event where
  init := ⟨.new, db, tree, ∅⟩
  step := step server

end DufsRam.Admission
