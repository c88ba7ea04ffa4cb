import DufsRam.Lib.Machine
import DufsRam.StateStore.OperationRow
import DufsRam.StateStore.Purge

/-!
# Runs of the state store

The worker of the store takes one command at a time, at the time it reads from its clock; a restart
recovers the database first. A command edits one table, by deletions, by updates that leave the keys
and by the insertion of a row for which there is room, and leaves the other two as they are.
-/

namespace DufsRam

open Relational Result

inductive UploadCommand where
  | save (session : StoredUploadSession) (ttlMs : TimeMs)
  | reject (key : UploadSessionKey) (targetPath stagePath : RelPath) (ttlMs : TimeMs)
  | removeIfMatches (expected : StoredUploadSession)
  | removeExpiredIfMatches (expected : ExpiredUploadSession)
  deriving DecidableEq

inductive PurgeCommand where
  | prepare (job : StoredPurgeJob)
  | markReady (key : PurgeJobKey) (trashRevision : Revision)
  | claimDue
  | retry (key : PurgeJobKey) (delayMs : TimeMs)
  | complete (key : PurgeJobKey)
  | remove (key : PurgeJobKey)
  deriving DecidableEq

/-- The commands that write. -/
inductive StoreCommand where
  | operation (command : OperationCommand)
  | upload (command : UploadCommand)
  | purge (command : PurgeCommand)
  deriving DecidableEq

abbrev StoreCommand.restart : StoreCommand := .operation .restart

structure StoreEvent where
  now : TimeMs
  command : StoreCommand
  deriving DecidableEq

inductive StoreReply where
  | operation (reply : OperationReply)
  | saved (reply : StoreUploadSession)
  | rejected (reply : RejectUploadSession)
  | prepared (reply : StorePurgeJob)
  | claimed (job : Option StoredPurgeJob)
  | changed (changed : Bool)
  | failed (message : String)
  deriving DecidableEq

/-- The message of a command that failed. -/
def StoreReply.error? : StoreReply → Option String
  | .operation (.failed message) | .failed message => some message
  | _ => none

/-! ### One event -/

def UploadCommand.exec (limits : Limits) (now : TimeMs) (db : Database) :
    UploadCommand → Result (StoreReply × Database)
  | .save session ttlMs =>
    (fun a => (.saved a.1, a.2)) <$> saveUploadSession limits now ttlMs session db
  | .reject key targetPath stagePath ttlMs =>
    (fun a => (.rejected a.1, a.2)) <$> rejectUploadSession now ttlMs key targetPath stagePath db
  | .removeIfMatches expected =>
    (fun a => (.changed a.1, a.2)) <$> removeUploadSessionIfMatches expected db
  | .removeExpiredIfMatches expected =>
    (fun a => (.changed a.1, a.2)) <$> removeExpiredUploadSessionIfMatches now expected db

def PurgeCommand.exec (limits : Limits) (now : TimeMs) (db : Database) :
    PurgeCommand → Result (StoreReply × Database)
  | .prepare job => (fun a => (.prepared a.1, a.2)) <$> preparePurgeJob limits now job db
  | .markReady key trashRevision =>
    (fun a => (.changed a.1, a.2)) <$> markPurgeJobReady now key trashRevision db
  | .claimDue => (fun a => (.claimed a.1, a.2)) <$> claimDuePurgeJob now db
  | .retry key delayMs => (fun a => (.changed a.1, a.2)) <$> retryPurgeJob now delayMs key db
  | .complete key => .ok (.changed (completePurgeJob key db).1, (completePurgeJob key db).2)
  | .remove key => .ok (.changed (removePurgeJob key db).1, (removePurgeJob key db).2)

/-- A command that fails has no effect. -/
def answer (db : Database) : Result (StoreReply × Database) → StoreReply × Database
  | .ok result => result
  | .error message => (.failed message, db)

def StoreEvent.exec (limits : Limits) (e : StoreEvent) (db : Database) : StoreReply × Database :=
  match e.command with
  | .operation command =>
    let result := OperationEvent.exec limits ⟨e.now, command⟩ db
    (.operation result.1, result.2)
  | .upload command => answer db (command.exec limits e.now db)
  | .purge command => answer db (command.exec limits e.now db)

/-! ### Failures -/

variable {result : StoreReply × Database} {now : TimeMs} {α : Type} {cmd : UploadCommand}
  {limits : Limits}

section Failure

variable {e : StoreEvent} {db : Database} {message : String}

lemma settle_of_failed {f : α → OperationReply} {x : Result (α × Database)}
    (hf : ∀ a, f a ≠ .failed message) (h : (settle db f x).1 = .failed message) :
    (settle db f x).2 = db := by
  cases x with
  | error message' => rfl
  | ok result => exact absurd h (hf result.1)

lemma OperationEvent.exec_of_failed {e : OperationEvent}
    (h : (e.exec limits db).1 = .failed message) : (e.exec limits db).2 = db := by
  unfold OperationEvent.exec at h ⊢
  split at h <;> exact settle_of_failed (by simp) h

/-- The replies of the commands that succeed are no failures. -/
lemma UploadCommand.exec_error?
    (h : cmd.exec limits now db = .ok result) : result.1.error? = none := by
  cases cmd <;> obtain ⟨a, -, rfl⟩ := map_eq_ok_iff.1 h <;> rfl

lemma PurgeCommand.exec_error? {cmd : PurgeCommand}
    (h : cmd.exec limits now db = .ok result) : result.1.error? = none := by
  cases cmd with
  | complete | remove => cases h; rfl
  | _ => obtain ⟨a, -, rfl⟩ := map_eq_ok_iff.1 h; rfl

end Failure

/-! ### What a function returns -/

/-- What holds of the value of a function that succeeds. -/
def Result.Yields (x : Result α) (P : α → Prop) : Prop := ∀ a, x = .ok a → P a

namespace Result.Yields

variable {β : Type} {x : Result α} {P : β → Prop} {f : α → Result β}

lemma ok {b : β} (h : P b) : Result.Yields (.ok b) P := by
  rintro _ ⟨⟩
  exact h

lemma bind (h : ∀ a, x = .ok a → (f a).Yields P) : Result.Yields (x >>= f) P := by
  intro b hb
  obtain ⟨a, ha, hb⟩ := bind_eq_ok_iff.1 hb
  exact h a ha b hb

lemma constrained {o : Option α} (h : ∀ a, o = some a → (f a).Yields P) :
    Result.Yields (constrained o >>= f) P :=
  bind fun a ha => h a (constrained_eq_ok_iff.1 ha)

lemma map {f : α → β} (h : x.Yields fun a => P (f a)) : Result.Yields (f <$> x) P := by
  intro b hb
  obtain ⟨a, ha, rfl⟩ := map_eq_ok_iff.1 hb
  exact h a ha

end Result.Yields

/-! ### Edits of a table -/

section Edits

variable {ρ υ : Type} [DecidableEq υ] {S : Schema ρ StoreKey υ}

/-- The rows of an owner. -/
def ofOwner (S : Schema ρ StoreKey υ) (owner : OwnerDigest) (r : ρ) : Bool :=
  decide ((S.key r).owner = owner)

/-- What the statements of one command may do to its table. -/
inductive Edits (capacity perOwner : ℕ) : Table S → Table S → Prop
  | refl (T) : Edits capacity perOwner T T
  | delete {T T'} (p : ρ → Bool) (h : Edits capacity perOwner T T') :
      Edits capacity perOwner T (T'.delete p)
  | update {T T' T''} {p : ρ → Bool} {f : ρ → ρ} (h : Edits capacity perOwner T T')
      (hupdate : T'.update p f = some T'') (hkey : ∀ r, S.key (f r) = S.key r) :
      Edits capacity perOwner T T''
  | insert {T T' T''} {r : ρ} (h : Edits capacity perOwner T T') (hinsert : T'.insert r = some T'')
      (hroom : ¬ (capacity ≤ T'.count (fun _ => true) ∨
        perOwner ≤ T'.count (ofOwner S (S.key r).owner))) :
      Edits capacity perOwner T T''

end Edits

/-! ### Each command edits one table -/

section Writes

variable {db db' : Database}

/-- The command edits the table of the operations and nothing else. -/
def WritesOperations (limits : Limits) (db db' : Database) : Prop :=
  ∃ T, db' = { db with operations := T } ∧
    Edits limits.capacity limits.perOwner db.operations T

def WritesUploads (limits : Limits) (db db' : Database) : Prop :=
  ∃ T, db' = { db with uploadSessions := T } ∧
    Edits limits.uploadCapacity limits.uploadPerOwner db.uploadSessions T

def WritesPurgeJobs (limits : Limits) (db db' : Database) : Prop :=
  ∃ T, db' = { db with purgeJobs := T } ∧
    Edits limits.purgeCapacity limits.purgePerOwner db.purgeJobs T

lemma settle_writes {f : α → OperationReply} {x : Result (α × Database)}
    (h : x.Yields fun a => WritesOperations limits db a.2) :
    WritesOperations limits db (settle db f x).2 := by
  cases x with
  | error message => exact ⟨_, rfl, .refl _⟩
  | ok result => exact h result rfl

lemma OperationEvent.exec_writes {e : OperationEvent} (h : e.command ≠ .restart) :
    WritesOperations limits db (e.exec limits db).2 := by
  unfold OperationEvent.exec
  split
  · refine settle_writes ?_
    unfold beginOperation
    split
    · exact .bind fun _ _ => .ok ⟨_, rfl, .delete _ (.refl _)⟩
    · split_ifs with hfull
      · exact .ok ⟨_, rfl, .delete _ (.refl _)⟩
      · exact .constrained fun _ hins => .ok ⟨_, rfl, .insert (.delete _ (.refl _)) hins hfull⟩
  · exact settle_writes (.bind fun _ _ => .ok ⟨_, rfl, .delete _ (.refl _)⟩)
  · exact settle_writes (.constrained fun _ hupd =>
      .ok ⟨_, rfl, .update (.refl _) hupd fun _ => rfl⟩)
  · exact settle_writes (.bind fun _ _ => .constrained fun _ hupd =>
      .ok ⟨_, rfl, .update (.refl _) hupd fun _ => rfl⟩)
  · refine settle_writes (.bind fun _ _ => ?_)
    split_ifs
    · exact .constrained fun _ hupd =>
        .ok ⟨_, rfl, .update (.delete _ (.refl _)) hupd fun _ => rfl⟩
    · exact .ok ⟨_, rfl, .delete _ (.refl _)⟩
  · exact absurd ‹_› h

lemma OperationEvent.exec_frame {e : OperationEvent} (h : e.command ≠ .restart) :
    (e.exec limits db).2.uploadSessions = db.uploadSessions ∧
      (e.exec limits db).2.purgeJobs = db.purgeJobs := by
  obtain ⟨T, hdb, -⟩ : WritesOperations limits db (e.exec limits db).2 := exec_writes h
  rw [hdb]
  exact ⟨rfl, rfl⟩

lemma saveUploadSession_writes {ttlMs : TimeMs} {proposed : StoredUploadSession} :
    (saveUploadSession limits now ttlMs proposed db).Yields
      fun a => WritesUploads limits db a.2 := by
  refine .bind fun expiresAt _ => .bind fun existing _ => ?_
  split
  case isTrue => exact .ok ⟨_, rfl, .delete _ (.refl _)⟩
  case isFalse =>
    cases existing with
    | none =>
      split_ifs with hfull
      · exact .ok ⟨_, rfl, .delete _ (.refl _)⟩
      · exact .constrained fun _ hins => .ok ⟨_, rfl, .insert (.delete _ (.refl _)) hins hfull⟩
    | some existing =>
      cases hmerge : mergeUploadSession existing proposed with
      | none =>
        simp only [hmerge]
        exact .ok ⟨_, rfl, .delete _ (.refl _)⟩
      | some stored =>
        simp only [hmerge]
        exact .constrained fun _ hupd =>
          .ok ⟨_, rfl, .update (.delete _ (.refl _)) hupd fun _ => rfl⟩

lemma UploadCommand.exec_writes :
    (cmd.exec limits now db).Yields fun result => WritesUploads limits db result.2 := by
  cases cmd with
  | save session ttlMs => exact .map saveUploadSession_writes
  | reject key targetPath stagePath ttlMs =>
    refine .map (.bind fun session _ => ?_)
    cases session with
    | none => exact .ok ⟨_, rfl, .refl _⟩
    | some session =>
      simp only
      split_ifs
      · exact .ok ⟨_, rfl, .refl _⟩
      · exact .ok ⟨_, rfl, .refl _⟩
      · exact .ok ⟨_, rfl, .refl _⟩
      · exact .bind fun _ _ => .constrained fun _ hupd =>
          .ok ⟨_, rfl, .update (.refl _) hupd fun _ => rfl⟩
  | removeIfMatches expected =>
    refine .map (.bind fun loaded _ => ?_)
    split_ifs
    · exact .ok ⟨_, rfl, .delete _ (.refl _)⟩
    · exact .ok ⟨_, rfl, .refl _⟩
  | removeExpiredIfMatches expected =>
    refine .map (.bind fun loaded _ => ?_)
    simp only
    split_ifs
    · exact .ok ⟨_, rfl, .refl _⟩
    · exact .ok ⟨_, rfl, .delete _ (.refl _)⟩

lemma UploadCommand.exec_frame (h : cmd.exec limits now db = .ok result) :
    result.2.operations = db.operations ∧ result.2.purgeJobs = db.purgeJobs := by
  obtain ⟨T, hdb, -⟩ := UploadCommand.exec_writes _ h
  rw [hdb]
  exact ⟨rfl, rfl⟩

lemma updatePurgeJob_writes {key : PurgeJobKey} {state : StoredPurgeState} {f : PurgeRow → PurgeRow}
    {changed : Bool} (h : updatePurgeJob key state f db = .ok (changed, db'))
    (hkey : ∀ r, (f r).job.key = r.job.key) : WritesPurgeJobs limits db db' := by
  obtain ⟨T, hupd, h⟩ := bind_eq_ok_iff.1 h
  cases h
  exact ⟨_, rfl, .update (.refl _) (constrained_eq_ok_iff.1 hupd) hkey⟩

lemma PurgeCommand.exec_writes {cmd : PurgeCommand} :
    (cmd.exec limits now db).Yields fun result => WritesPurgeJobs limits db result.2 := by
  cases cmd with
  | prepare job =>
    refine .map (.bind fun _ _ => .bind fun existing _ => ?_)
    cases existing with
    | some existing => exact .ok ⟨_, rfl, .refl _⟩
    | none =>
      split_ifs with hfull hroom
      · exact .ok ⟨_, rfl, .refl _⟩
      · exact .ok ⟨_, rfl, .refl _⟩
      · exact .constrained fun _ hins => .ok ⟨_, rfl, .insert (.refl _) hins hroom⟩
  | markReady key trashRevision =>
    refine .map (.bind fun result hupd => ?_)
    obtain ⟨changed, db'⟩ := result
    simp only
    split_ifs
    · exact .ok (updatePurgeJob_writes hupd fun _ => rfl)
    · exact .bind fun _ _ => .ok (updatePurgeJob_writes hupd fun _ => rfl)
  | claimDue =>
    refine .map ?_
    unfold claimDuePurgeJob
    simp only
    split
    · exact .ok ⟨_, rfl, .refl _⟩
    · refine .bind fun result hupd => .bind fun _ _ => .bind fun job _ => ?_
      cases job with
      | none => rintro _ ⟨⟩
      | some job => exact .ok (updatePurgeJob_writes hupd fun _ => rfl)
  | retry key delayMs =>
    exact .map (.bind fun _ _ _ h => updatePurgeJob_writes h fun _ => rfl)
  | complete | remove => exact .ok ⟨_, rfl, .delete _ (.refl _)⟩

lemma PurgeCommand.exec_frame {cmd : PurgeCommand} (h : cmd.exec limits now db = .ok result) :
    result.2.operations = db.operations ∧ result.2.uploadSessions = db.uploadSessions := by
  obtain ⟨T, hdb, -⟩ := PurgeCommand.exec_writes _ h
  rw [hdb]
  exact ⟨rfl, rfl⟩

lemma answer_operations {x : Result (StoreReply × Database)}
    (h : ∀ result, x = .ok result → result.2.operations = db.operations) :
    (answer db x).2.operations = db.operations := by
  cases x with
  | error message => rfl
  | ok result => exact h result rfl

/-- What an event may do: fail without effect, recover the database, or execute its command. -/
inductive StoreEvent.Does (limits : Limits) (e : StoreEvent) (db : Database) :
    StoreReply × Database → Prop
  | failed {message : String} {reply : StoreReply} (h : reply.error? = some message) :
      e.Does limits db (reply, db)
  | restarted {db' : Database} (hcommand : e.command = .restart)
      (h : recoverDatabase limits.ttlMs limits.uploadTtlMs e.now db = .ok db') :
      e.Does limits db (.operation .done, db')
  | operation {command : OperationCommand} (hcommand : e.command = .operation command)
      (h : command ≠ .restart) :
      e.Does limits db (.operation (OperationEvent.exec limits ⟨e.now, command⟩ db).1,
        (OperationEvent.exec limits ⟨e.now, command⟩ db).2)
  | upload {command : UploadCommand} {result : StoreReply × Database}
      (hcommand : e.command = .upload command) (h : command.exec limits e.now db = .ok result) :
      e.Does limits db result
  | purge {command : PurgeCommand} {result : StoreReply × Database}
      (hcommand : e.command = .purge command) (h : command.exec limits e.now db = .ok result) :
      e.Does limits db result

lemma StoreEvent.exec_does (limits : Limits) (e : StoreEvent) (db : Database) :
    e.Does limits db (e.exec limits db) := by
  unfold StoreEvent.exec
  cases hcmd : e.command with
  | operation command =>
    by_cases hrst : command = .restart
    · subst hrst
      simp only [OperationEvent.exec]
      cases h : recoverDatabase limits.ttlMs limits.uploadTtlMs e.now db with
      | error message => exact .failed rfl
      | ok db' => exact .restarted hcmd h
    · exact .operation hcmd hrst
  | upload command =>
    simp only
    cases h : command.exec limits e.now db with
    | error message => exact .failed rfl
    | ok result => exact .upload hcmd h
  | purge command =>
    simp only
    cases h : command.exec limits e.now db with
    | error message => exact .failed rfl
    | ok result => exact .purge hcmd h

/-- A command that fails changes nothing. -/
lemma StoreEvent.exec_of_failed {e : StoreEvent} {message : String}
    (h : (e.exec limits db).1.error? = some message) : (e.exec limits db).2 = db := by
  have hdoes := e.exec_does limits db
  generalize e.exec limits db = result at hdoes h ⊢
  cases hdoes with
  | failed => rfl
  | restarted => cases h
  | @operation command _ _ =>
    cases hrep : (OperationEvent.exec limits ⟨e.now, command⟩ db).1 with
    | failed message' => exact OperationEvent.exec_of_failed hrep
    | _ => simp [hrep, StoreReply.error?] at h
  | upload _ hres => cases (UploadCommand.exec_error? hres).symm.trans h
  | purge _ hres => cases (PurgeCommand.exec_error? hres).symm.trans h

end Writes

/-! ### Runs -/

/-- The store, empty at first. -/
def storeMachine (limits : Limits) : Transition.Machine Database StoreEvent where
  init := .empty
  step db e := some (e.exec limits db).2

/-- Any sequence of commands and restarts; the times the events read from the clock are
arbitrary. -/
structure StoreRun where
  limits : Limits
  events : ℕ → StoreEvent

namespace StoreRun

variable (R : StoreRun)

/-- The database before the `n`-th event. -/
def db (n : ℕ) : Database := (storeMachine R.limits).run R.events n

def reply (n : ℕ) : StoreReply := ((R.events n).exec R.limits (R.db n)).1

/-- The run of a finite list of events, followed by removals of no job. -/
def ofList (limits : Limits) (events : List StoreEvent) : StoreRun where
  limits := limits
  events n := (events[n]?).getD ⟨0, .purge (.remove ⟨0, 0⟩)⟩

lemma db_succ (n : ℕ) : R.db (n + 1) = ((R.events n).exec R.limits (R.db n)).2 := rfl

/-- What holds of the empty database and is kept by every event holds along the run. -/
lemma db_invariant {P : Database → Prop} (hemp : P .empty)
    (hstep : ∀ n, P (R.db n) → P (R.db (n + 1))) (n : ℕ) : P (R.db n) := by
  induction n with
  | zero => exact hemp
  | succ n ih => exact hstep n ih

end StoreRun

end DufsRam
