import DufsRam.Delete.Invariants

/-!
# The steps of a DELETE, the worker and the reconciler

`Step` lists everything a step can do in a state in which the invariants hold. Most steps of a
request change its phase and at most the operations in the database; the others are the rename, the
three commands that write the row of its job and the completion of its operation.
-/

namespace DufsRam.Delete

open State Option Quiet

/-! ### What a step can do -/

/-- A request goes on without touching its lease, the tree or the rows of the jobs. -/
inductive Advance (server : Server) (s : State) (r : Request) : Request → Prop
  | inspected {x} (hphase : r.phase = .leased) :
      Advance server s r { r with phase := .inspected x }
  | rejected {outcome} (hphase : r.phase = .leased ∨ (∃ target, r.phase = .inspected target) ∨
        ∃ target rounds, r.phase = .preparing target rounds) (hfailed : outcome.state = .failed) :
      Advance server s r { r with phase := .completing outcome }
  | scanned {target} (hphase : r.phase = .inspected target) (hclear : s.conflicts r.path = false) :
      Advance server s r { r with phase := .scanned target }
  | dispatched {target} (hphase : r.phase = .scanned target) :
      Advance server s r { r with detached := true, phase := .preparing target 0 }
  | again {target rounds rounds'} (hphase : r.phase = .preparing target rounds) :
      Advance server s r { r with phase := .preparing target rounds' }
  | started {target key} (hphase : r.phase = .prepared target key) :
      Advance server s r { r with phase := .started target key }
  | kept {target key outcome} (hphase : r.phase = .started target key)
      (hfailed : outcome.state = .failed) :
      Advance server s r { r with phase := .kept key outcome }
  | verified {target key x} (hphase : r.phase = .renamed target key)
      (hentry : s.files.entry (trashOf r.path key) = some x) :
      Advance server s r { r with phase := .moved key (server.purgeRevision x.stat) }
  | told {told} (htold : told = .unknown ∨
        told = .rejected ∧ r.detached = false ∧ r.phase.finishing) :
      Advance server s r (State.tell r told)
  | silent : Advance server s r r

/-- A request is dropped with its lease. -/
inductive Ends (r : Request) : Request → Prop
  | silent : Ends r { r with phase := .done }
  | told : Ends r { State.tell r (if r.detached then .unknown else .rejected) with phase := .done }

/-- The trash of a job goes to the quarantine if there is any. -/
def Quarantines (f f' : Files) (trash : RelPath) : Prop :=
  (f.entry trash = none ∧ f' = f) ∨ ∃ id times, rename f trash (quarantineName id) times = some f'

inductive Step (server : Server) (s : State) : Event → State → Prop
  | quiet {e db'} (hdb : Quiet s.db db') : Step server s e { s with db := db' }
  | begin {e t key path revision db'} (hfresh : s.requests t = none) (hpath : path.Requestable)
      (hdb : Quiet s.db db') : Step server s e
        ({ s with db := db' }.setRequest t ⟨key, path, revision, false, .waiting, none⟩)
  | acquire {e t r} (hr : s.requests t = some r) (hphase : r.phase = .waiting)
      (hfree : s.leasable [r.path]) : Step server s e
        ({ s with leases := ⟨.request t, [r.path]⟩ :: s.leases }.setPhase t r .leased)
  | advance {e t r r' db'} (hr : s.requests t = some r) (hdb : Quiet s.db db')
      (h : Advance server s r r') : Step server s e ({ s with db := db' }.setRequest t r')
  | close {e t r r' db'} (hr : s.requests t = some r) (hdb : Quiet s.db db') (h : Ends r r') :
      Step server s e (({ s with db := db' }.release (.request t)).setRequest t r')
  | complete {e t r outcome db'} (hr : s.requests t = some r)
      (hphase : r.phase = .completing outcome) (hpurge : ∀ k, db'.purge k = s.db.purge k)
      (hdecided : ∀ k r' o, db'.operation k = some r' → Decides r' o →
        (∃ row, s.db.operation k = some row ∧ Decides row o ∧ row.leaseToken = r'.leaseToken) ∨
          (r'.leaseToken = t ∧ outcome.state = o)) :
      Step server s e (({ s with db := db' }.release (.request t)).setRequest t
        { State.tell r (.outcome outcome) with phase := .done })
  | prepare {e t r target rounds now key db'} (hr : s.requests t = some r)
      (hphase : r.phase = .preparing target rounds) (hfresh : s.db.purge key = none)
      (hdb : Writes s.db db' key
        (some (.prepare now (State.purgeJob r.path (trashOf r.path key) key target)))) :
      Step server s e ({ s with db := db' }.setPhase t r (.prepared target key))
  | move {e t r target key times files} (hr : s.requests t = some r)
      (hphase : r.phase = .started target key)
      (htarget : (s.files.entry r.path).map Entry.stat = some target)
      (hrename : rename s.files r.path (deleteTrashName key.id) times = some files) :
      Step server s e (s.moved server t key r target times files)
  | ready {e t r key trashRevision row now db'} (hr : s.requests t = some r)
      (hphase : r.phase = .moved key trashRevision) (hrow : s.db.purge key = some row)
      (hdb : Writes s.db db' key (some (row.markReady now trashRevision))) :
      Step server s e ({ s with
        db := db'
        readied := ⟨t, key, trashRevision⟩ :: s.readied }.setPhase t r (.completing success))
  | remove {e t r key outcome db'} (hr : s.requests t = some r)
      (hphase : r.phase = .kept key outcome) (hdb : Writes s.db db' key none) :
      Step server s e ({ s with db := db' }.setPhase t r (.completing outcome))
  | claim {e k row now db'} (hrow : s.db.purge k = some row) (hready : row.job.state = .ready)
      (hdb : Writes s.db db' k (some (row.claim now))) :
      Step server s e ({ s with db := db' }.setWork k (some ⟨(row.claim now).job, .opening⟩))
  | work {e k w w' db'} (hw : s.works k = some w) (hdb : Quiet s.db db') (hjob : w'.job = w.job)
      (hphase : w'.phase = .completing → s.files.entry w.job.trashPath = none) :
      Step server s e ({ s with db := db' }.setWork k (some w'))
  | slice {e k w below times} (hw : s.works k = some w) : Step server s e (s.sliced k w below times)
  | quarantineWork {e k w files phase} (hw : s.works k = some w)
      (hfiles : Quarantines s.files files w.job.trashPath) :
      Step server s e ({ s with files }.setWorkPhase k w phase)
  | finishWork {e k w db'} (hw : s.works k = some w) (hphase : w.phase = .completing)
      (hdb : Writes s.db db' k none) : Step server s e ({ s with db := db' }.setWork k none)
  | deferWork {e k w row now nextAttempt db'} (hw : s.works k = some w)
      (hrow : s.db.purge k = some row)
      (hdb : Writes s.db db' k (some (row.retry now nextAttempt))) :
      Step server s e ({ s with db := db' }.setWork k none)
  | reconcile {k row} (hrow : s.db.purge k = some row) (hprepared : row.job.state = .prepared)
      (hfree : s.leasable [row.job.targetPath, row.job.trashPath]) :
      Step server s (.reconcile k) (s.reconciling k row)
  | quarantineTask {k id times fault task files} (htask : s.reconciliations k = some task)
      (hfiles : Quarantines s.files files task.1.trashPath) :
      Step server s (.quarantinePrepared k id times fault)
        ({ s with files }.setReconciliation k (some (task.1, true)))
  | quarantineEnd {k id times fault task files} (htask : s.reconciliations k = some task)
      (hfiles : Quarantines s.files files task.1.trashPath) :
      Step server s (.quarantinePrepared k id times fault) ({ s with files }.endReconciliation k)
  | endTask {e k task db'} (htask : s.reconciliations k = some task) (hdb : Quiet s.db db') :
      Step server s e ({ s with db := db' }.endReconciliation k)
  | releaseTask {k now fault task db'} (htask : s.reconciliations k = some task)
      (hcleared : task.2 = true) (hdb : Writes s.db db' k none) :
      Step server s (.releasePrepared k now fault) ({ s with db := db' }.endReconciliation k)
  | restart {now} : Step server s (.restart now) (s.restart server now)

/-! ### Every event takes one of these steps -/

section Inversion

variable {server : Server} {s s' : State} {t id : Uuid} {r : Request} {e : Event} {now : TimeMs}
  {fault : Bool} {times : FileTimes} {k : PurgeJobKey} {w : Work}

/-- An error ends the request. -/
lemma fail_step {db' : Database} (hr : s.requests t = some r) (hdb : Quiet s.db db') :
    Step server s e ({ s with db := db' }.fail t r) :=
  .close hr hdb .told

lemma fail_step_same (hr : s.requests t = some r) : Step server s e (s.fail t r) :=
  fail_step hr (refl s.db)

lemma advance_step {r' : Request} (hr : s.requests t = some r) (h : Advance server s r r') :
    Step server s e (s.setRequest t r') :=
  .advance hr (refl s.db) h

lemma begin_cases {key : OperationKey} {fingerprint : Fingerprint} {path : RelPath} {rev : Revision}
    (h : s.begin server t now key fingerprint path rev = some s') : Step server s e s' := by
  unfold begin at h
  simp only at h
  split_ifs at h with hgrd hsta <;> cases h
  · rw [not_or, not_not, Bool.not_eq_true, isSome_eq_false_iff, isNone_iff_eq_none] at hgrd
    exact .begin hgrd.1 hgrd.2 (store_operation_quiet (by simp) (by simp))
  · exact .quiet (store_operation_quiet (by simp) (by simp))

section

variable (hr : s.requests t = some r)

include hr

lemma acquire_cases (h : s.acquire t r = some s') : Step server s e s' := by
  unfold acquire at h
  split_ifs at h with hgrd
  cases h
  exact .acquire hr hgrd.1 hgrd.2

lemma inspect_cases (h : s.inspect server t r fault = some s') : Step server s e s' := by
  unfold inspect at h
  split_ifs at h with hph hfault
  · cases h
    exact fail_step_same hr
  · rw [not_not] at hph
    cases h
    split
    · exact advance_step hr (.rejected (.inl hph) rfl)
    · split_ifs
      · exact advance_step hr (.inspected hph)
      · exact advance_step hr (.rejected (.inl hph) rfl)

lemma scan_cases {gone : Bool} (h : s.scan t r fault gone = some s') : Step server s e s' := by
  unfold scan at h
  split at h
  · rename_i target hph
    split_ifs at h with hfault hcon <;> cases h
    · exact fail_step_same hr
    · exact advance_step hr (.rejected (.inr (.inl ⟨target, hph⟩)) rfl)
    · rw [Bool.or_eq_true, not_or, Bool.not_eq_true, Bool.not_eq_true] at hcon
      exact advance_step hr (.scanned hph hcon.2)
  · cases h

lemma dispatch_cases (h : s.dispatch t r = some s') : Step server s e s' := by
  unfold dispatch at h
  split at h <;> cases h
  rename_i target hph
  exact advance_step hr (.dispatched hph)

lemma prepare_cases (h : s.prepare server t r now id fault = some s') : Step server s e s' := by
  unfold prepare at h
  split at h
  · rename_i target rounds hph
    obtain ⟨trashPath, htr, rfl⟩ := map_eq_some_iff.1 h
    have hpath : trashPath = trashOf r.path ⟨r.operation.owner, id⟩ := trashPathForId_eq_some htr
    subst hpath
    obtain ⟨hrep, hdb⟩ | ⟨hrep, hfr, hdb⟩ := store_prepare server s fault now
      (purgeJob r.path (trashOf r.path ⟨r.operation.owner, id⟩) ⟨r.operation.owner, id⟩ target)
    · have hprep : ∃ target rounds, r.phase = .preparing target rounds :=
        ⟨target, rounds, hph⟩
      refine .advance hr hdb ?_
      generalize (store server s fault now _).1 = reply at hrep ⊢
      unfold preparedPhase
      split
      · exact absurd rfl hrep
      · split_ifs
        · exact .again hph
        · exact .rejected (.inr (.inr hprep)) rfl
      · split_ifs
        · exact .again hph
        · exact .rejected (.inr (.inr hprep)) rfl
      · exact .rejected (.inr (.inr hprep)) rfl
      · exact .rejected (.inr (.inr hprep)) rfl
    · simp only [hrep]
      exact .prepare hr hph hfr hdb
  · cases h

lemma markCommitStarted_cases (h : s.markCommitStarted server t r now fault = some s') :
    Step server s e s' := by
  unfold markCommitStarted at h
  split at h
  · rename_i target key hph
    cases h
    have hdb : Quiet s.db (s.store server fault now
        (.operation (.markCommitStarted r.operation t))).2 :=
      store_operation_quiet (by simp) (by simp)
    split_ifs
    · exact .advance hr hdb (.started hph)
    · exact fail_step hr hdb
  · cases h

lemma move_cases {fault : Option MoveFault} (h : s.move server t r times fault = some s') :
    Step server s e s' := by
  unfold move at h
  split at h
  · rename_i target key hph
    simp only at h
    split at h
    · cases h
      exact advance_step hr (.kept hph rfl)
    · split at h
      · cases h
        exact advance_step hr (.kept hph rfl)
      · rename_i hchg
        split at h
        · cases h
          exact .move hr hph (not_not.1 hchg) ‹_›
        · cases h
          exact fail_step_same hr
        · split_ifs at h <;> cases h
          · exact advance_step hr (.kept hph rfl)
          · exact fail_step_same hr
  · cases h

lemma verify_cases (h : s.verify server t r fault = some s') : Step server s e s' := by
  unfold verify at h
  split at h
  · rename_i target key hph
    split at h
    · rename_i x hent
      split_ifs at h <;> cases h
      · exact fail_step_same hr
      · exact advance_step hr (.verified hph hent)
    · cases h
      exact fail_step_same hr
  · cases h

end

lemma markReady_cases (hinv : Inv server s) (hr : s.requests t = some r)
    (h : s.markReady server t r now fault = some s') : Step server s e s' := by
  unfold markReady at h
  split at h
  · rename_i key trashRevision hph
    cases h
    have hjob := (hinv.request t r hr).phase
    rw [hph] at hjob
    obtain ⟨row, hrow, hprep, -⟩ := hjob.1.row
    obtain ⟨hrep, hdb⟩ | ⟨hrep, hdb⟩ :=
      store_markReady server fault now trashRevision hrow hprep
    · rw [if_neg hrep]
      exact fail_step hr hdb
    · rw [if_pos hrep]
      exact .ready hr hph hrow hdb
  · cases h

lemma removeJob_cases (hr : s.requests t = some r)
    (h : s.removeJob server t r now fault = some s') : Step server s e s' := by
  unfold removeJob at h
  split at h
  · rename_i key outcome hph
    cases h
    obtain ⟨hrep, hdb⟩ | ⟨hrep, hdb⟩ := store_remove server s fault now key
    · rw [if_neg hrep]
      exact fail_step hr hdb
    · rw [if_pos hrep]
      exact .remove hr hph hdb
  · cases h

lemma complete_cases (hr : s.requests t = some r) (h : s.complete server t r now fault = some s') :
    Step server s e s' := by
  unfold complete at h
  split at h
  · rename_i outcome hph
    cases h
    split_ifs with hrep
    · exact .complete hr hph (store_operation_purge (by simp))
        fun k r' o hrow hdec => store_complete_operation hrow hdec
    · exact fail_step hr (store_operation_quiet (by simp) fun _ _ _ _ => hrep)
  · cases h

lemma abandon_cases (h : s.abandon server t r now fault = some s') : Step server s e s' := by
  unfold abandon at h
  split_ifs at h
  cases h
  exact .quiet (store_operation_quiet (by simp) (by simp))

lemma interrupt_cases {disconnected : Bool} (hr : s.requests t = some r)
    (h : s.interrupt t r disconnected = some s') : Step server s e s' := by
  -- a request that stays may be answered, and one that goes is answered or not
  have hstays : ∀ told,
      told = .unknown ∨ told = .rejected ∧ r.detached = false ∧ r.phase.finishing →
      Step server s e (s.setRequest t (if disconnected then r else tell r told)) := by
    intro told htold
    split_ifs
    · exact advance_step hr .silent
    · exact advance_step hr (.told htold)
  have hgoes : Step server s e ((s.release (.request t)).setRequest t { (if disconnected then r else
      tell r (if r.detached then .unknown else .rejected)) with phase := .done }) := by
    cases disconnected with
    | true => exact .close hr (refl s.db) .silent
    | false => exact .close hr (refl s.db) .told
  unfold interrupt at h
  simp only at h
  split at h
  · rename_i hdet
    cases h
    rw [hdet, if_pos rfl]
    exact hstays _ (.inl rfl)
  · rename_i hdet hph
    cases h
    rw [hdet]
    exact hstays _ (.inr ⟨rfl, hdet, by rw [hph]; trivial⟩)
  · rename_i hdet hph
    cases h
    rw [hdet]
    exact hstays _ (.inr ⟨rfl, hdet, by rw [hph]; trivial⟩)
  · cases h
    exact hgoes

/-! The worker -/

lemma claim_cases (h : s.claim server now fault = some s') : Step server s e s' := by
  cases h
  obtain ⟨hrep, hdb⟩ | ⟨row, hrow, hrdy, hrep, hdb⟩ := store_claimDue server s fault now
  · split
    · exact absurd ‹_› (hrep _)
    · exact .quiet hdb
  · simp only [hrep]
    exact .claim hrow hrdy hdb

/-- The worker only decides what to do next with a job. -/
lemma work_step (hw : s.works k = some w) {phase : WorkPhase}
    (hph : phase = .completing → s.files.entry w.job.trashPath = none) :
    Step server s e (s.setWorkPhase k w phase) :=
  .work hw (refl s.db) rfl hph

lemma failedPhase_ne_completing (invalidData : Bool) : failedPhase invalidData ≠ .completing := by
  cases invalidData <;> simp [failedPhase]

lemma openWork_cases {fault : Option Bool} (hw : s.works k = some w)
    (h : s.openWork server k w fault = some s') : Step server s e s' := by
  unfold openWork at h
  split_ifs at h <;> cases h
  · exact work_step hw (by simp)
  · split
    · exact work_step hw fun h => absurd h (failedPhase_ne_completing _)
    · exact work_step hw fun _ => ‹_›
    · exact work_step hw (by split_ifs <;> simp)

lemma purgeSlice_cases {below : RelPath} (hw : s.works k = some w)
    (h : s.purgeSlice k w below times = some s') : Step server s e s' := by
  unfold purgeSlice at h
  split at h <;> cases h
  exact .slice hw

lemma failSlice_cases {invalidData : Bool} (hw : s.works k = some w)
    (h : s.failSlice k w invalidData = some s') : Step server s e s' := by
  unfold failSlice at h
  split_ifs at h
  cases h
  exact work_step hw fun h => absurd h (failedPhase_ne_completing _)

lemma quarantine_cases {trash : RelPath} {fault : Option RenameFault} {files : Files}
    (h : s.quarantine trash id times fault = some files) : Quarantines s.files files trash := by
  unfold quarantine at h
  split_ifs at h with hfault hent
  · cases h
    exact .inl ⟨hent, rfl⟩
  · exact .inr ⟨id, times, h⟩

lemma quarantineClaimed_cases {fault : Option RenameFault} (hw : s.works k = some w)
    (h : s.quarantineClaimed k w id times fault = some s') : Step server s e s' := by
  unfold quarantineClaimed at h
  split at h <;> cases h
  split
  · exact work_step hw (by simp)
  · rename_i files hfls
    exact .quarantineWork hw (quarantine_cases hfls)

section

variable (hinv : Inv server s) (hw : s.works k = some w)

include hinv hw

lemma completeJob_cases
    (h : s.completeJob server k w now fault = some s') : Step server s e s' := by
  unfold completeJob at h
  split_ifs at h with hph
  cases h
  obtain ⟨row, hrow, hclm, -⟩ := hinv.work k w hw
  obtain ⟨hrep, hdb⟩ | ⟨hrep, hdb⟩ := store_completeJob server fault now hrow hclm
  · rw [if_pos hrep]
    exact .work hw hdb rfl (by simp)
  · rw [hrep]
    exact .finishWork hw (not_not.1 hph) hdb

lemma deferJob_cases {delayMs : TimeMs}
    (h : s.deferJob server k w now delayMs fault = some s') : Step server s e s' := by
  unfold deferJob at h
  split_ifs at h
  cases h
  obtain ⟨row, hrow, hclm, -⟩ := hinv.work k w hw
  obtain ⟨hrep, hdb⟩ | ⟨hrep, nextAttempt, hdb⟩ :=
    store_retry server fault now delayMs hrow hclm
  · rw [if_neg hrep]
    exact .work hw hdb rfl (by simp)
  · rw [if_pos hrep]
    exact .deferWork hw hrow hdb

lemma retryClaimed_cases (h : s.retryClaimed k w = some s') : Step server s e s' := by
  unfold retryClaimed at h
  split_ifs at h
  cases h
  obtain ⟨row, hrow, hclm, hjob, -⟩ := hinv.work k w hw
  rw [hrow, filter_some_pos (by simpa using hclm), map_some]
  exact .work hw (refl s.db) hjob (by simp)

end

/-! The reconciler -/

lemma reconcile_cases (h : s.reconcile k = some s') : Step server s (.reconcile k) s' := by
  obtain ⟨row, hrow, h⟩ := bind_eq_some_iff.1 h
  split_ifs at h with hgrd
  cases h
  exact .reconcile hrow hgrd.1 hgrd.2

lemma quarantinePrepared_cases {fault : Option RenameFault}
    (h : s.quarantinePrepared k id times fault = some s') :
    Step server s (.quarantinePrepared k id times fault) s' := by
  obtain ⟨task, htask, h⟩ := bind_eq_some_iff.1 h
  split at h <;> cases h
  split
  · exact .endTask htask (refl s.db)
  · rename_i files hfls
    split_ifs
    · exact .quarantineEnd htask (quarantine_cases hfls)
    · exact .quarantineTask htask (quarantine_cases hfls)

lemma releasePrepared_cases (h : s.releasePrepared server k now fault = some s') :
    Step server s (.releasePrepared k now fault) s' := by
  obtain ⟨task, htask, h⟩ := bind_eq_some_iff.1 h
  split_ifs at h with hclr
  cases h
  obtain ⟨-, hdb⟩ | ⟨-, hdb⟩ := store_remove server s fault now k
  · exact .endTask htask hdb
  · exact .releaseTask htask hclr hdb

lemma of_bind {α : Type} {o : Option α} {f : α → Option State} {P : Prop} (h : o.bind f = some s')
    (hf : ∀ a, o = some a → f a = some s' → P) : P := by
  obtain ⟨a, ha, h⟩ := bind_eq_some_iff.1 h
  exact hf a ha h

/-- Every event takes one of the steps. -/
theorem step_cases (hinv : Inv server s) (h : step server s e = some s') : Step server s e s' := by
  cases e with
  | begin t now key fingerprint path revision => exact begin_cases h
  | status now key =>
    cases h
    exact .quiet (store_operation_quiet (by simp) (by simp))
  | acquire t => exact of_bind h fun _ => acquire_cases
  | inspect t fault => exact of_bind h fun _ => inspect_cases
  | scan t fault gone => exact of_bind h fun _ hr => scan_cases hr
  | dispatch t => exact of_bind h fun _ => dispatch_cases
  | prepare t now id fault => exact of_bind h fun _ => prepare_cases
  | markCommitStarted t now fault => exact of_bind h fun _ => markCommitStarted_cases
  | move t times fault => exact of_bind h fun _ hr => move_cases hr
  | verify t fault => exact of_bind h fun _ => verify_cases
  | markReady t now fault => exact of_bind h fun _ => markReady_cases hinv
  | removeJob t now fault => exact of_bind h fun _ => removeJob_cases
  | complete t now fault => exact of_bind h fun _ => complete_cases
  | abandon t now fault => exact of_bind h fun _ _ => abandon_cases
  | interrupt t disconnected => exact of_bind h fun _ => interrupt_cases
  | claim now fault => exact claim_cases h
  | openWork k fault => exact of_bind h fun _ => openWork_cases
  | purgeSlice k below times => exact of_bind h fun _ => purgeSlice_cases
  | failSlice k invalidData => exact of_bind h fun _ => failSlice_cases
  | quarantineClaimed k id times fault => exact of_bind h fun _ => quarantineClaimed_cases
  | completeJob k now fault => exact of_bind h fun _ => completeJob_cases hinv
  | deferJob k now delayMs fault => exact of_bind h fun _ hw => deferJob_cases hinv hw
  | retryClaimed k => exact of_bind h fun _ => retryClaimed_cases hinv
  | reconcile k => exact reconcile_cases h
  | quarantinePrepared k id times fault => exact quarantinePrepared_cases h
  | releasePrepared k now fault => exact releasePrepared_cases h
  | restart now =>
    cases h
    exact .restart

end Inversion

end DufsRam.Delete
