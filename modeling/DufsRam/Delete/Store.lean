import DufsRam.Delete.Basic
import DufsRam.StateStore.BlockingPaths

/-!
# What the commands do to the rows

Each command of the state store as the steps of a DELETE see it: what the reply says about the rows
of the purge jobs, and that only the command that completes an operation decides its outcome.
-/

namespace DufsRam.Delete

open Relational Result OperationEvent StoreReply Option

/-! ### Quiet commands -/

/-- The operation is known to have succeeded or failed. -/
structure Decides (r : OperationRow) (o : StoredTerminalState) : Prop where
  state : r.state = .completed
  terminal : r.terminalState = some o
  known : o ≠ .unknown

/-- The purge jobs stay, and no operation is decided. -/
structure Quiet (db db' : Database) : Prop where
  purge : ∀ k, db'.purge k = db.purge k
  decided : ∀ k r' o, db'.operation k = some r' → Decides r' o →
    ∃ r, db.operation k = some r ∧ Decides r o ∧ r.leaseToken = r'.leaseToken

lemma Quiet.refl (db : Database) : Quiet db db :=
  ⟨fun _ => rfl, fun _ r' _ h hdec => ⟨r', h, hdec, rfl⟩⟩

variable {db db' : Database} {k : OperationKey} {r' : OperationRow} {o : StoredTerminalState}
  {cmd : OperationCommand} {reply : StoreReply}

/-- The row of one purge job is written. -/
structure Writes (db db' : Database) (key : PurgeJobKey) (row : Option PurgeRow) : Prop where
  purge : ∀ k, db'.purge k = if key = k then row else db.purge k
  operations : db'.operations = db.operations

/-- Only `complete` decides an operation. -/
lemma decided_of_operationStep {e : OperationEvent} {reply : OperationReply}
    {row : Option OperationRow} (h : OperationStep e reply k row (some r')) (hdec : Decides r' o) :
    (∃ r, row = some r ∧ Decides r o ∧ r.leaseToken = r'.leaseToken) ∨
      ∃ outcome, e.command = .complete k r'.leaseToken outcome ∧ reply = .changed true ∧
        outcome.state = o := by
  obtain ⟨hst, hterm, hknown⟩ := hdec
  cases h with
  | kept => exact .inl ⟨r', rfl, ⟨hst, hterm, hknown⟩, rfl⟩
  | started | marked => cases hst
  | completed hcmd hrep => exact .inr ⟨_, hcmd, hrep, some.inj hterm⟩
  | abandonedCommitStarted | recoveredCommitStarted =>
    exact absurd (some.inj hterm).symm hknown
  | clamped hcmd hcmpl =>
    exact .inl ⟨_, rfl, ⟨hcmpl, hterm, hknown⟩, rfl⟩

section Commands

variable {server : Server} {s : State} {fault : Bool} {now : TimeMs} {key : PurgeJobKey}
  {r : PurgeRow}

/-- The commands on operations leave the purge jobs. -/
lemma store_operation_purge (h : cmd ≠ .restart) (k : PurgeJobKey) :
    (s.store server fault now (.operation cmd)).2.purge k = s.db.purge k := by
  unfold State.store
  split_ifs
  · rfl
  · simp only [StoreEvent.exec, Database.purge, (exec_frame (e := ⟨now, cmd⟩) h).2]

/-- A command on operations is quiet unless it completes one. -/
lemma store_operation_quiet (hrst : cmd ≠ .restart) (h : ∀ k t o, cmd = .complete k t o →
      (s.store server fault now (.operation cmd)).1 ≠ .operation (.changed true)) :
    Quiet s.db (s.store server fault now (.operation cmd)).2 := by
  refine ⟨store_operation_purge hrst, fun k r' o hrow hdec => ?_⟩
  unfold State.store at h hrow
  split_ifs at h hrow with hfault
  · exact ⟨r', hrow, hdec, rfl⟩
  · have hstep := exec_step server.limits ⟨now, cmd⟩ s.db k
    have hrow' : (exec server.limits ⟨now, cmd⟩ s.db).2.operation k = some r' := hrow
    rw [hrow'] at hstep
    refine (decided_of_operationStep hstep hdec).resolve_right ?_
    rintro ⟨outcome, hcmd, hrep, -⟩
    exact h _ _ _ hcmd (congrArg operation hrep)

/-- A row that an operation's completion decides has the token and the outcome of the command. -/
lemma store_complete_operation {key : OperationKey} {t : Uuid} {outcome : StoredOutcome}
    (hrow : (s.store server fault now (.operation (.complete key t outcome))).2.operation k =
      some r') (hdec : Decides r' o) :
    (∃ r, s.db.operation k = some r ∧ Decides r o ∧ r.leaseToken = r'.leaseToken) ∨
      (r'.leaseToken = t ∧ outcome.state = o) := by
  unfold State.store at hrow
  split_ifs at hrow
  · exact .inl ⟨r', hrow, hdec, rfl⟩
  · have hstep := exec_step server.limits ⟨now, .complete key t outcome⟩ s.db k
    have hrow' : (exec server.limits ⟨now, .complete key t outcome⟩
        s.db).2.operation k = some r' := hrow
    rw [hrow'] at hstep
    refine (decided_of_operationStep hstep hdec).imp_right ?_
    rintro ⟨outcome', hcmd, -, hst⟩
    cases hcmd
    exact ⟨rfl, hst⟩

/-- A command on purge jobs fails without an effect or runs; it leaves the operations. -/
lemma store_purge_cases (server : Server) (s : State) (fault : Bool) (now : TimeMs)
    (cmd : PurgeCommand) : ((s.store server fault now (.purge cmd)).1.error?.isSome ∧
      (s.store server fault now (.purge cmd)).2 = s.db) ∨
    ∃ res, cmd.exec server.limits now s.db = .ok res ∧
      s.store server fault now (.purge cmd) = res ∧ res.2.operations = s.db.operations := by
  unfold State.store
  split_ifs
  · exact .inl ⟨rfl, rfl⟩
  · simp only [StoreEvent.exec]
    cases h : cmd.exec server.limits now s.db with
    | error message => exact .inl ⟨rfl, rfl⟩
    | ok res => exact .inr ⟨res, rfl, rfl, (PurgeCommand.exec_frame h).1⟩

lemma reply_ne_of_failed {reply' : StoreReply} (h : reply.error?.isSome)
    (h' : reply'.error? = none) : reply ≠ reply' := by
  rintro rfl
  rw [h'] at h
  cases h

/-- The command gives the reply and has its effect, or it gives another one and is quiet. -/
abbrev Acts (db : Database) (reply : StoreReply) (effect : Database → Prop)
    (x : StoreReply × Database) : Prop :=
  (x.1 ≠ reply ∧ Quiet db x.2) ∨ (x.1 = reply ∧ effect x.2)

lemma acts_of_exec {cmd : PurgeCommand} {effect : Database → Prop}
    (hrep : reply.error? = none) (h : ∀ res, cmd.exec server.limits now s.db = .ok res →
      res.2.operations = s.db.operations → Acts s.db reply effect res) :
    Acts s.db reply effect (s.store server fault now (.purge cmd)) := by
  obtain ⟨hfail, hdb⟩ | ⟨res, hrun, heq, hops⟩ :=
    store_purge_cases server s fault now cmd
  · exact .inl ⟨reply_ne_of_failed hfail hrep, hdb ▸ Quiet.refl _⟩
  · exact heq ▸ h res hrun hops

/-- What the command `prepare` does. -/
lemma store_prepare (server : Server) (s : State) (fault : Bool) (now : TimeMs)
    (job : StoredPurgeJob) : Acts s.db (.prepared .inserted) (fun db' => s.db.purge job.key = none ∧
      Writes s.db db' job.key (some (.prepare now job)))
      (s.store server fault now (.purge (.prepare job))) := by
  refine acts_of_exec rfl fun res hrun hops => ?_
  obtain ⟨⟨reply, db'⟩, hprp, rfl⟩ := map_eq_ok_iff.1 hrun
  obtain ⟨hrep, rfl⟩ | ⟨hrep, -, hfr, -, -, hrows⟩ := preparePurgeJob_cases hprp
  · exact .inl ⟨fun heq => hrep (prepared.inj heq), Quiet.refl _⟩
  · exact .inr ⟨congrArg prepared hrep, hfr, hrows, hops⟩

/-- What an update of the job of a key does to its row. -/
lemma rows_updatePurgeJob {state : StoredPurgeState} {f : PurgeRow → PurgeRow} {changed : Bool}
    (h : updatePurgeJob key state f db = .ok (changed, db'))
    (hkey : ∀ r, (f r).job.key = r.job.key) (hrow : db.purge key = some r) :
    (changed = false ∧ r.job.state ≠ state) ∨
      (changed = true ∧ ∀ k, db'.purge k = if key = k then some (f r) else db.purge k) := by
  obtain ⟨r', hr', -, hst, hchg, hkey'⟩ | ⟨-, hoth⟩ := purge_updatePurgeJob h hkey key
  · cases hrow.symm.trans hr'
    refine .inr ⟨hchg, fun k => ?_⟩
    split_ifs with hk
    · rw [← hk, hkey']
    · obtain ⟨-, -, hk', -⟩ | ⟨hsame, -⟩ := purge_updatePurgeJob h hkey k
      · exact absurd hk'.symm hk
      · exact hsame
  · exact .inl ⟨(hoth rfl).1, (hoth rfl).2 r hrow⟩

/-- What the command `markReady` does to a job that is prepared. -/
lemma store_markReady (server : Server) (fault : Bool) (now : TimeMs) (trashRevision : Revision)
    (hrow : s.db.purge key = some r) (hst : r.job.state = .prepared) :
    Acts s.db (.changed true) (Writes s.db · key (some (r.markReady now trashRevision)))
      (s.store server fault now (.purge (.markReady key trashRevision))) := by
  refine acts_of_exec rfl fun res hrun hops => ?_
  obtain ⟨⟨changed, db'⟩, hrdy, rfl⟩ := map_eq_ok_iff.1 hrun
  obtain ⟨⟨updated, db''⟩, hupd, hrdy⟩ := bind_eq_ok_iff.1 hrdy
  obtain ⟨-, hnot⟩ | ⟨rfl, hwrt⟩ := rows_updatePurgeJob hupd (fun _ => rfl) hrow
  · exact absurd hst hnot
  · cases hrdy
    exact .inr ⟨rfl, hwrt, hops⟩

/-- What the command `retry` does to a job that is claimed. -/
lemma store_retry (server : Server) (fault : Bool) (now delayMs : TimeMs)
    (hrow : s.db.purge key = some r) (hst : r.job.state = .claimed) : Acts s.db (.changed true)
      (fun db' => ∃ nextAttempt, Writes s.db db' key (some (r.retry now nextAttempt)))
      (s.store server fault now (.purge (.retry key delayMs))) := by
  refine acts_of_exec rfl fun res hrun hops => ?_
  obtain ⟨⟨changed, db'⟩, hretry, rfl⟩ := map_eq_ok_iff.1 hrun
  obtain ⟨nextAttempt, -, hupd⟩ := bind_eq_ok_iff.1 hretry
  obtain ⟨-, hnot⟩ | ⟨rfl, hwrt⟩ := rows_updatePurgeJob hupd (fun _ => rfl) hrow
  · exact absurd hst hnot
  · exact .inr ⟨rfl, nextAttempt, hwrt, hops⟩

/-- What the command `claimDue` does. -/
lemma store_claimDue (server : Server) (s : State) (fault : Bool) (now : TimeMs) :
    ((∀ job, (s.store server fault now (.purge .claimDue)).1 ≠ .claimed (some job)) ∧
      Quiet s.db (s.store server fault now (.purge .claimDue)).2) ∨
    ∃ r, s.db.purge r.job.key = some r ∧ r.job.state = .ready ∧
      (s.store server fault now (.purge .claimDue)).1 = .claimed (some (r.claim now).job) ∧
      Writes s.db (s.store server fault now (.purge .claimDue)).2 r.job.key
        (some (r.claim now)) := by
  obtain ⟨hfail, hdb⟩ | ⟨result, hrun, h, hops⟩ :=
    store_purge_cases server s fault now .claimDue
  · exact .inl ⟨fun job => reply_ne_of_failed hfail rfl, hdb ▸ Quiet.refl _⟩
  · rw [h]
    obtain ⟨⟨claimed, db'⟩, hclm, rfl⟩ := map_eq_ok_iff.1 hrun
    obtain ⟨rfl, rfl, -⟩ | ⟨r, hr, hdue, -, rfl, hrows⟩ := claimDuePurgeJob_cases hclm
    · exact .inl ⟨fun job => by simp, Quiet.refl _⟩
    · exact .inr ⟨r, purge_eq_some_iff.2 ⟨hr, rfl⟩, (PurgeRow.due_iff.1 hdue).1, rfl, hrows, hops⟩

/-- A deletion of the job of a key; the reply tells whether there was one. -/
lemma rows_deletePurgeJob (db : Database) (p : PurgeRow → Bool)
    (hp : ∀ r, p r = true → r.job.key = key) : ((deletePurgeJob p db).1 = true ∧
      ∀ k, (deletePurgeJob p db).2.purge k = if key = k then none else db.purge k) ∨
    ((deletePurgeJob p db).1 = false ∧ (∀ k, (deletePurgeJob p db).2.purge k = db.purge k) ∧
      ∀ r, db.purge key = some r → p r = false) := by
  have hcount := Table.count_eq_one_iff (T := db.purgeJobs) (k := key) hp
  have hkept : ∀ {k r}, db.purge k = some r → p r = false →
      (deletePurgeJob p db).2.purge k = db.purge k := by
    intro k r hrow hr
    rw [purge_deletePurgeJob, hrow]
    exact filter_some_pos (by simp [hr])
  have hoth : ∀ k, key ≠ k → (deletePurgeJob p db).2.purge k = db.purge k := by
    intro k hk
    cases hrow : db.purge k with
    | none => rw [purge_deletePurgeJob, hrow, filter_none]
    | some r =>
      rw [← hrow]
      refine hkept hrow (Bool.eq_false_iff.2 fun hr => hk ?_)
      rw [← hp r hr]
      exact Table.key_of_lookup hrow
  by_cases hdel : ∃ r, db.purge key = some r ∧ p r = true
  · obtain ⟨r, hrow, hr⟩ := hdel
    refine .inl ⟨?_, fun k => ?_⟩
    · rw [deletePurgeJob, decide_eq_true_eq, hcount]
      exact ⟨r, hrow, hr⟩
    · split_ifs with hk
      · rw [← hk, purge_deletePurgeJob, hrow]
        exact filter_some_neg (by simp [hr])
      · exact hoth k hk
  · have hnot : ∀ r, db.purge key = some r → p r = false := fun r hrow =>
      Bool.eq_false_iff.2 fun hr => hdel ⟨r, hrow, hr⟩
    refine .inr ⟨?_, fun k => ?_, hnot⟩
    · rw [deletePurgeJob, decide_eq_false_iff_not, hcount]
      exact hdel
    · by_cases hk : key = k
      · subst hk
        cases hrow : db.purge key with
        | none => rw [purge_deletePurgeJob, hrow, filter_none]
        | some r => rw [← hrow, hkept hrow (hnot r hrow)]
      · exact hoth k hk

/-- What the command `remove` does. -/
lemma store_remove (server : Server) (s : State) (fault : Bool) (now : TimeMs) (key : PurgeJobKey) :
    Acts s.db (.changed true) (Writes s.db · key none)
      (s.store server fault now (.purge (.remove key))) := by
  refine acts_of_exec rfl fun res hrun hops => ?_
  cases hrun
  obtain ⟨hdel, hwrt⟩ | ⟨hkept, hsame, -⟩ :=
    rows_deletePurgeJob s.db (fun r => decide (r.job.key = key)) fun r hr => of_decide_eq_true hr
  · exact .inr ⟨congrArg changed hdel, hwrt, hops⟩
  · refine .inl ⟨fun hrep => ?_, hsame, fun k r' o h hdec => ⟨r', ?_, hdec, rfl⟩⟩
    · exact absurd (changed.inj hrep) (by rw [removePurgeJob, hkept]; decide)
    · rwa [Database.operation, ← hops]

/-- What the command `complete` does to a job that is claimed. -/
lemma store_completeJob (server : Server) (fault : Bool) (now : TimeMs)
    (hrow : s.db.purge key = some r) (hst : r.job.state = .claimed) :
    ((s.store server fault now (.purge (.complete key))).1.error?.isSome ∧
      Quiet s.db (s.store server fault now (.purge (.complete key))).2) ∨
    ((s.store server fault now (.purge (.complete key))).1.error? = none ∧
      Writes s.db (s.store server fault now (.purge (.complete key))).2 key none) := by
  obtain ⟨hfail, hdb⟩ | ⟨result, hrun, h, hops⟩ :=
    store_purge_cases server s fault now (.complete key)
  · exact .inl ⟨hfail, hdb ▸ Quiet.refl _⟩
  · rw [h]
    cases hrun
    obtain ⟨-, hwrt⟩ | ⟨-, -, hnot⟩ := rows_deletePurgeJob s.db
      (fun r => decide (r.job.key = key) && decide (r.job.state = .claimed))
      fun r hr => of_decide_eq_true (Bool.and_eq_true_iff.1 hr).1
    · exact .inr ⟨rfl, hwrt, hops⟩
    · have := hnot r hrow
      simp [hst, (purge_eq_some_iff.1 hrow).2] at this

end Commands

end DufsRam.Delete
