import DufsRam.StateStore.Constraints
import DufsRam.StateStore.UploadRun

/-!
# The database after recovery

What `recover_database` does to every row, read off its statements together: which operations it
forgets, how it settles work that was interrupted, how far it lets expiries and retries lie ahead,
and that a second recovery at the same time finds nothing left to do.
-/

namespace DufsRam

open Relational Option OperationRow Table StoreRun

/-! ### Operations -/

variable {exp now : TimeMs} {r : PurgeRow}

/-- Recovery leaves finished operations whose expiry lies ahead, but not too far. -/
lemma OperationRow.of_recover {r r' : OperationRow} (hlt : now < exp)
    (h : r.recover now exp = some r') :
    r'.state = .completed ∧ r'.expired now = false ∧ r'.outlives exp = false := by
  unfold recover at h
  cases hst : r.state with
  | reserved => simp [hst] at h
  | commitStarted =>
    simp only [hst, Option.some.injEq] at h
    subst h
    simp [complete, expired, outlives, hlt]
  | completed =>
    simp only [hst] at h
    split_ifs at h with hexp
    cases h
    unfold assign
    split_ifs with houtlives
    · simp [expireAt, expired, outlives, hst, hlt]
    · exact ⟨hst, by simpa using hexp, by simpa using houtlives⟩

lemma recoverOperations_again {T T' : Table operationSchema}
    (hlt : now < exp) (h : recoverOperations now exp T = .ok T') :
    (∀ r ∈ T'.rows, r.state = .completed ∧ r.expired now = false ∧
      r.outlives exp = false) ∧ recoverOperations now exp T' = .ok T' := by
  have hrows : ∀ r ∈ T'.rows, r.state = .completed ∧ r.expired now = false ∧
      r.outlives exp = false := by
    intro r hr
    have hlook : T'.lookup r.key = some r := lookup_eq_some_iff.2 ⟨hr, rfl⟩
    rw [lookup_recoverOperations h, bind_eq_some_iff] at hlook
    obtain ⟨r₀, -, hrcvr⟩ := hlook
    exact of_recover hlt hrcvr
  refine ⟨hrows, ?_⟩
  have hpur : purgeExpired now T' = T' := delete_eq_self fun r hr => (hrows r hr).2.1
  have hrsv : (T'.delete fun r => decide (r.state = .reserved)) = T' :=
    delete_eq_self fun r hr => by simp [(hrows r hr).1]
  have hsta : T'.update (fun r => decide (r.state = .commitStarted))
      (complete now exp .uncertain) = some T' :=
    update_eq_self fun r hr => by simp [(hrows r hr).1]
  have hclamped : T'.update (outlives exp) (expireAt exp) =
      some T' := update_eq_self fun r hr => (hrows r hr).2.2
  unfold recoverOperations
  rw [hpur, hrsv, hsta, constrained]
  exact (constrained_eq_ok_iff.2 hclamped)

/-! ### Upload sessions -/

/-- The last statement on the sessions brings their expiries near. -/
lemma UploadRow.expiresAtMs_clamp (expiresAt : TimeMs) (r : UploadRow) :
    (assign (fun r => decide (expiresAt < r.expiresAtMs))
      (fun r => { r with expiresAtMs := expiresAt }) r).expiresAtMs ≤ expiresAt := by
  unfold assign
  split_ifs with hlate
  · exact le_rfl
  · simpa using hlate

lemma UploadRow.of_recover (now expiresAt : TimeMs) (r : UploadRow) :
    (r.recover now expiresAt).session.state ≠ .commitStarted ∧
      (r.recover now expiresAt).expiresAtMs ≤ expiresAt := by
  constructor
  · rw [UploadRow.session_recover]
    split_ifs with hst
    · simp
    · exact hst
  · exact UploadRow.expiresAtMs_clamp expiresAt _

lemma recoverUploadSessions_again {expiresAt : TimeMs} {T T' : Table uploadSchema}
    (h : recoverUploadSessions now expiresAt T = .ok T') :
    (∀ r ∈ T'.rows, r.session.state ≠ .commitStarted ∧ r.expiresAtMs ≤ expiresAt) ∧
      recoverUploadSessions now expiresAt T' = .ok T' := by
  have hrows : ∀ r ∈ T'.rows, r.session.state ≠ .commitStarted ∧ r.expiresAtMs ≤ expiresAt := by
    intro r hr
    have hlook : T'.lookup r.session.key = some r := lookup_eq_some_iff.2 ⟨hr, rfl⟩
    rw [lookup_recoverUploadSessions h, map_eq_some_iff] at hlook
    obtain ⟨r₀, -, rfl⟩ := hlook
    exact r₀.of_recover now expiresAt
  refine ⟨hrows, ?_⟩
  unfold recoverUploadSessions
  rw [update_eq_self fun r hr => by simp [(hrows r hr).1], constrained]
  exact constrained_eq_ok_iff.2 (update_eq_self fun r hr => by
    simpa using (hrows r hr).2)

/-! ### Purge jobs -/

/-- The last statement on the jobs makes the ready ones due. -/
lemma PurgeRow.nextAttemptAtMs_clamp {r' : PurgeRow}
    (h : assign (fun r => decide (r.job.state = .ready) && decide (now < r.nextAttemptAtMs))
      (fun r => { r with nextAttemptAtMs := now, updatedAtMs := now }) r = r')
    (hrdy : r'.job.state = .ready) : r'.nextAttemptAtMs ≤ now := by
  subst h
  unfold assign at hrdy ⊢
  split_ifs at hrdy ⊢ with hlate
  · exact le_rfl
  · simpa [hrdy] using hlate

lemma PurgeRow.of_recover (now : TimeMs) (r : PurgeRow) : (r.recover now).job.state ≠ .claimed ∧
      ((r.recover now).job.state = .ready → (r.recover now).nextAttemptAtMs ≤ now) := by
  constructor
  · rw [PurgeRow.job_recover]
    split_ifs with hst
    · simp
    · exact hst
  · exact PurgeRow.nextAttemptAtMs_clamp rfl

lemma recoverPurgeJobs_again {T T' : Table purgeSchema} (h : recoverPurgeJobs now T = .ok T') :
    (∀ r ∈ T'.rows, r.job.state ≠ .claimed ∧ (r.job.state = .ready → r.nextAttemptAtMs ≤ now)) ∧
      recoverPurgeJobs now T' = .ok T' := by
  have hrows : ∀ r ∈ T'.rows, r.job.state ≠ .claimed ∧
      (r.job.state = .ready → r.nextAttemptAtMs ≤ now) := by
    intro r hr
    have hlook : T'.lookup r.job.key = some r := lookup_eq_some_iff.2 ⟨hr, rfl⟩
    rw [lookup_recoverPurgeJobs h, map_eq_some_iff] at hlook
    obtain ⟨r₀, -, rfl⟩ := hlook
    exact r₀.of_recover now
  refine ⟨hrows, ?_⟩
  unfold recoverPurgeJobs
  rw [update_eq_self fun r hr => by simp [(hrows r hr).1], constrained]
  refine constrained_eq_ok_iff.2 (update_eq_self fun r hr => ?_)
  by_cases hrdy : r.job.state = .ready
  · simpa [hrdy] using (hrows r hr).2 hrdy
  · simp [hrdy]

/-- A prepared job is not touched. -/
lemma PurgeRow.recover_prepared (h : r.job.state = .prepared) : r.recover now = r := by
  simp [PurgeRow.recover, assign, h]

/-! ### The whole database -/

section Recover

variable {operationTtlMs uploadTtlMs : TimeMs} {db db' : Database}

/-- A recovery whose expiries can be represented succeeds. -/
lemma recoverDatabase_ok {operationExpiresAt uploadExpiresAt : TimeMs}
    (hop : expirationTime now operationTtlMs = .ok operationExpiresAt)
    (hupl : expirationTime now uploadTtlMs = .ok uploadExpiresAt) :
    ∃ db', recoverDatabase operationTtlMs uploadTtlMs now db = .ok db' := by
  obtain ⟨operations, hops⟩ := recoverOperations_ok db.operations
  obtain ⟨uploadSessions, hupls⟩ := recoverUploadSessions_ok db.uploadSessions
  obtain ⟨purgeJobs, hprg⟩ := recoverPurgeJobs_ok db.purgeJobs
  exact ⟨⟨operations, uploadSessions, purgeJobs⟩,
    recoverDatabase_eq_ok_iff.2 ⟨_, _, hop, hupl, hops, hupls, hprg⟩⟩

/-- The rows of the operations after a recovery. -/
structure OperationsRecovered (now expiresAt : TimeMs) (db db' : Database) : Prop where
  /-- Exactly the reservations and what has expired are forgotten. -/
  forgotten : ∀ k r, db.operation k = some r → (db'.operation k = none ↔
    r.state = .reserved ∨ r.state = .completed ∧ ∃ e, r.expiresAtMs = some e ∧ e ≤ now)
  fresh : ∀ k, db.operation k = none → db'.operation k = none
  /-- An operation whose commit had started ends with an unknown outcome. -/
  uncertain : ∀ k r, db.operation k = some r → r.state = .commitStarted →
    ∃ r', db'.operation k = some r' ∧ r'.state = .completed ∧ r'.terminalState = some .unknown ∧
      r'.fingerprint = r.fingerprint ∧ r'.leaseToken = r.leaseToken
  /-- A finished operation keeps its outcome. -/
  finished : ∀ k r r', db.operation k = some r → db'.operation k = some r' → r.state = .completed →
    ∃ expiresAtMs, r' = { r with expiresAtMs := expiresAtMs }
  expiry : ∀ k r e, db'.operation k = some r → r.expiresAtMs = some e → e ≤ expiresAt

/-- The rows of the upload sessions after a recovery. -/
structure UploadsRecovered (expiresAt : TimeMs) (db db' : Database) : Prop where
  session : ∀ k, (db'.upload k).map UploadRow.session = (db.upload k).map fun r =>
    if r.session.state = .commitStarted then { r.session with state := .unknown } else r.session
  expiry : ∀ k r, db'.upload k = some r → r.expiresAtMs ≤ expiresAt

/-- The rows of the purge jobs after a recovery. -/
structure PurgesRecovered (now : TimeMs) (db db' : Database) : Prop where
  job : ∀ k, (db'.purge k).map PurgeRow.job = (db.purge k).map fun r =>
    if r.job.state = .claimed then { r.job with state := .ready } else r.job
  prepared : ∀ k r, db.purge k = some r → r.job.state = .prepared → db'.purge k = some r
  due : ∀ k r, db'.purge k = some r → r.job.state = .ready → r.nextAttemptAtMs ≤ now

lemma operationsRecovered (hlt : now < exp)
    (h : recoverOperations now exp db.operations = .ok db'.operations) :
    OperationsRecovered now exp db db' := by
  have hrows : ∀ k, db'.operation k = (db.operation k).bind (recover now exp) :=
    lookup_recoverOperations h
  constructor
  · intro k r hrow
    rw [hrows, hrow, bind_some, recover, ← expired_iff]
    cases hst : r.state with
    | reserved | completed => simp
    | commitStarted => simp [expired, hst]
  · intro k hnone
    rw [hrows, hnone, bind_none]
  · intro k r hrow hst
    rw [hrows, hrow, bind_some, recover, hst]
    exact ⟨_, rfl, rfl, rfl, rfl, rfl⟩
  · intro k r r' hrow hrow' hst
    rw [hrows, hrow, bind_some, recover, hst] at hrow'
    simp only at hrow'
    split_ifs at hrow'
    cases hrow'
    unfold assign
    split_ifs
    · exact ⟨some exp, rfl⟩
    · exact ⟨r.expiresAtMs, rfl⟩
  · intro k r e hrow hexp
    obtain ⟨hst, -, houtlives⟩ := (recoverOperations_again hlt h).1 r (lookup_eq_some_iff.1 hrow).1
    simpa [outlives, hst, hexp] using houtlives

lemma uploadsRecovered
    (h : recoverUploadSessions now exp db.uploadSessions = .ok db'.uploadSessions) :
    UploadsRecovered exp db db' where
  session k := by
    rw [Database.upload, lookup_recoverUploadSessions h, map_map]
    exact congrArg (fun f => Option.map f (db.upload k))
      (funext (UploadRow.session_recover now exp))
  expiry k r hrow := ((recoverUploadSessions_again h).1 r (lookup_eq_some_iff.1 hrow).1).2

lemma purgesRecovered (h : recoverPurgeJobs now db.purgeJobs = .ok db'.purgeJobs) :
    PurgesRecovered now db db' where
  job k := by
    rw [Database.purge, lookup_recoverPurgeJobs h, map_map]
    exact congrArg (fun f => Option.map f (db.purge k)) (funext (PurgeRow.job_recover now))
  prepared k r hrow hst := by
    rw [Database.purge] at hrow ⊢
    rw [lookup_recoverPurgeJobs h, hrow, map_some, PurgeRow.recover_prepared hst]
  due k r hrow := ((recoverPurgeJobs_again h).1 r (lookup_eq_some_iff.1 hrow).1).2

end Recover

/-- Recovery with positive retention periods succeeds, does to every row what its table says, and
finds nothing left to do a second time. -/
theorem recoverDatabase_recovers (db : Database) {operationTtlMs uploadTtlMs now : TimeMs}
    {operationExpiresAt uploadExpiresAt : TimeMs} (hpositive : 0 < operationTtlMs)
    (hoperation : expirationTime now operationTtlMs = .ok operationExpiresAt)
    (hupload : expirationTime now uploadTtlMs = .ok uploadExpiresAt) :
    ∃ db', recoverDatabase operationTtlMs uploadTtlMs now db = .ok db' ∧
      OperationsRecovered now (now + operationTtlMs) db db' ∧
      UploadsRecovered (now + uploadTtlMs) db db' ∧ PurgesRecovered now db db' ∧
      recoverDatabase operationTtlMs uploadTtlMs now db' = .ok db' := by
  obtain ⟨db', hrecover⟩ : ∃ db', recoverDatabase operationTtlMs uploadTtlMs now db = .ok db' :=
    recoverDatabase_ok hoperation hupload
  obtain ⟨_, _, ho, hu, hoperations, huploads, hpurges⟩ := recoverDatabase_eq_ok_iff.1 hrecover
  cases hoperation.symm.trans ho
  cases hupload.symm.trans hu
  have hlt : now < operationExpiresAt := by
    rw [expirationTime_eq_ok hoperation]
    exact Int.lt_add_of_pos_right now hpositive
  refine ⟨db', hrecover, expirationTime_eq_ok hoperation ▸ operationsRecovered hlt hoperations,
    expirationTime_eq_ok hupload ▸ uploadsRecovered huploads, purgesRecovered hpurges, ?_⟩
  exact recoverDatabase_eq_ok_iff.2 ⟨_, _, hoperation, hupload,
    (recoverOperations_again hlt hoperations).2, (recoverUploadSessions_again huploads).2,
    (recoverPurgeJobs_again hpurges).2⟩

/-- A reservation, two commits in flight and a claimed job. -/
def interruptedRun : StoreRun :=
  .ofList ⟨8, 4, 60000, 60000, 8, 4, 8, 4⟩
    [⟨0, .operation (.begin 10 ⟨7, 1⟩ 1)⟩, ⟨1, .operation (.begin 11 ⟨7, 2⟩ 1)⟩,
      ⟨2, .operation (.markCommitStarted ⟨7, 2⟩ 11)⟩,
      ⟨3, .upload (.save (sampleSession .commitStarted 4) 100000)⟩,
      ⟨4, .purge (.prepare (sampleJob 1 "b"))⟩, ⟨5, .purge (.markReady ⟨7, 1⟩ 5)⟩,
      ⟨6, .purge .claimDue⟩]

theorem recoverDatabase_recovers_sample :
    ∃ db', recoverDatabase 60000 60000 10 (interruptedRun.db 7) = .ok db' ∧
      db'.operation ⟨7, 1⟩ = none ∧
      (∃ r, db'.operation ⟨7, 2⟩ = some r ∧ r.terminalState = some .unknown) ∧
      (db'.upload ⟨7, 1⟩).map UploadRow.session = some (sampleSession .unknown 4) ∧
      (∀ r, db'.upload ⟨7, 1⟩ = some r → r.expiresAtMs ≤ 60010) ∧
      (db'.purge ⟨7, 1⟩).map (fun r => r.job.state) = some .ready := by
  obtain ⟨db', hrecover, hoperations, huploads, hpurges, -⟩ :
      ∃ db', recoverDatabase 60000 60000 10 (interruptedRun.db 7) = .ok db' ∧
        OperationsRecovered 10 60010 (interruptedRun.db 7) db' ∧
        UploadsRecovered 60010 (interruptedRun.db 7) db' ∧
        PurgesRecovered 10 (interruptedRun.db 7) db' ∧
        recoverDatabase 60000 60000 10 db' = .ok db' :=
    recoverDatabase_recovers (interruptedRun.db 7) (by decide) rfl rfl
  have hreserved : (interruptedRun.db 7).operation ⟨7, 1⟩ =
      some ⟨⟨7, 1⟩, 1, 10, .reserved, none, none, none, 0, 0, none⟩ := by decide +kernel
  have hstarted : (interruptedRun.db 7).operation ⟨7, 2⟩ =
      some ⟨⟨7, 2⟩, 1, 11, .commitStarted, none, none, none, 1, 2, none⟩ := by decide +kernel
  have hsession : (interruptedRun.db 7).upload ⟨7, 1⟩ =
      some ⟨sampleSession .commitStarted 4, 3, 100003⟩ := by decide +kernel
  have hclaimed : ((interruptedRun.db 7).purge ⟨7, 1⟩).map (fun r => r.job.state) =
      some .claimed := by decide +kernel
  refine ⟨db', hrecover, (hoperations.forgotten _ _ hreserved).2 (.inl rfl), ?_, ?_,
    huploads.expiry _, ?_⟩
  · obtain ⟨r, hrow, -, hunknown, -⟩ := hoperations.uncertain _ _ hstarted rfl
    exact ⟨r, hrow, hunknown⟩
  · rw [huploads.session, hsession]
    rfl
  · obtain ⟨r, hrow, hstate⟩ := Option.map_eq_some_iff.1 hclaimed
    have hjob := hpurges.job ⟨7, 1⟩
    rw [hrow, Option.map_some, if_pos hstate] at hjob
    obtain ⟨r', hrow', hr'⟩ := Option.map_eq_some_iff.1 hjob
    rw [hrow', Option.map_some, hr']

end DufsRam
