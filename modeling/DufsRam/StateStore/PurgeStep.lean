import DufsRam.StateStore.Commands

/-!
# What one event does to the row of a purge job

`PurgeStep` lists everything an event of the store can do to the row of one purge job, with the
reply it gives. A job is inserted as prepared, becomes ready with the revision of its trash, and
alternates between ready and claimed until it is completed or removed.
-/

namespace DufsRam

open Relational Result Table PurgeRow Database Option

/-- The row of a purge job. -/
def Database.purge (db : Database) (k : PurgeJobKey) : Option PurgeRow := db.purgeJobs.lookup k

/-- What recovery makes of the row of a job. -/
def PurgeRow.recover (now : TimeMs) (r : PurgeRow) : PurgeRow :=
  Table.assign (fun r => decide (r.job.state = .ready) && decide (now < r.nextAttemptAtMs))
    (fun r => { r with nextAttemptAtMs := now, updatedAtMs := now })
    (Table.assign (fun r => decide (r.job.state = .claimed)) (fun r => { r with
        job := { r.job with state := .ready }, nextAttemptAtMs := now, updatedAtMs := now }) r)

lemma PurgeRow.job_recover (now : TimeMs) (r : PurgeRow) : (r.recover now).job =
      if r.job.state = .claimed then { r.job with state := .ready } else r.job := by
  unfold recover
  by_cases hclm : r.job.state = .claimed
  · simp [assign, hclm]
  · by_cases hrdy : r.job.state = .ready ∧ now < r.nextAttemptAtMs <;>
      simp [assign, hclm, hrdy]

lemma PurgeRow.due_iff {now : TimeMs} {r : PurgeRow} :
    r.due now = true ↔ r.job.state = .ready ∧ r.nextAttemptAtMs ≤ now := by
  simp [due]

/-- Everything an event can do to the row of the key `k`. -/
inductive PurgeStep (e : StoreEvent) (reply : StoreReply) (k : PurgeJobKey) :
    Option PurgeRow → Option PurgeRow → Prop
  | kept {row} : PurgeStep e reply k row row
  | prepared {job} (h : e.command = .purge (.prepare job)) (hkey : job.key = k)
      (hvalid : job.validateNew = .ok ()) :
      PurgeStep e reply k none (some (.prepare e.now job))
  | readied {r trashRevision} (h : e.command = .purge (.markReady k trashRevision))
      (hstate : r.job.state = .prepared) :
      PurgeStep e reply k (some r) (some (r.markReady e.now trashRevision))
  | claimed {r} (h : e.command = .purge .claimDue) (hdue : r.due e.now = true)
      (hreply : reply = .claimed (some (r.claim e.now).job)) :
      PurgeStep e reply k (some r) (some (r.claim e.now))
  | retried {r delayMs nextAttempt} (h : e.command = .purge (.retry k delayMs))
      (hreply : reply = .changed true) (hstate : r.job.state = .claimed) :
      PurgeStep e reply k (some r) (some (r.retry e.now nextAttempt))
  | completed {r} (h : e.command = .purge (.complete k)) (hstate : r.job.state = .claimed) :
      PurgeStep e reply k (some r) none
  | removed {r} (h : e.command = .purge (.remove k)) : PurgeStep e reply k (some r) none
  | recovered {r} (h : e.command = .restart) (hreply : reply = .operation .done) :
      PurgeStep e reply k (some r) (some (r.recover e.now))

/-! ### Reading a job -/

/-- The checks of `decode_purge_row` on a job. -/
structure StoredPurgeJob.Loadable (j : StoredPurgeJob) : Prop where
  target : validateStoredPath j.targetPath "Purge target" = .ok ()
  trash : validateStoredPath j.trashPath "Purge trash" = .ok ()
  differ : j.targetPath ≠ j.trashPath

variable {db db' : Database} {key k : PurgeJobKey} {changed : Bool}
  {claimed : Option StoredPurgeJob} {p : PurgeRow → Bool} {f : PurgeRow → PurgeRow}
  {reply : StorePurgeJob} {state : StoredPurgeState} {limits : Limits}

lemma loadPurgeJob_of_loadable (h : ∀ r ∈ db.purge key, r.job.Loadable) :
    loadPurgeJob key db = .ok ((db.purge key).map job) := by
  unfold loadPurgeJob purge at *
  cases hrow : db.purgeJobs.lookup key with
  | none => rfl
  | some r =>
    obtain ⟨htgt, htr, hdif⟩ := h r hrow
    simp [htgt, htr, ensure_eq_ok_iff.2 hdif, bind, Except.bind, pure, Except.pure]

lemma loadPurgeJob_eq_ok {o : Option StoredPurgeJob}
    (h : loadPurgeJob key db = .ok o) : o = (db.purge key).map job := by
  unfold loadPurgeJob at h
  unfold purge
  cases hrow : db.purgeJobs.lookup key with
  | none =>
    rw [hrow] at h
    exact (Except.ok.inj h).symm
  | some r =>
    rw [hrow] at h
    obtain ⟨-, -, h⟩ := bind_eq_ok_iff.1 h
    obtain ⟨-, -, h⟩ := bind_eq_ok_iff.1 h
    obtain ⟨-, -, h⟩ := bind_eq_ok_iff.1 h
    cases h
    rfl

lemma StoredPurgeJob.loadable_of_validateNew {j : StoredPurgeJob} (h : j.validateNew = .ok ()) :
    j.Loadable := by
  obtain ⟨⟨⟩, htgt, h⟩ := bind_eq_ok_iff.1 h
  obtain ⟨⟨⟩, htr, h⟩ := bind_eq_ok_iff.1 h
  obtain ⟨⟨⟩, hdif, -⟩ := bind_eq_ok_iff.1 h
  exact ⟨htgt, htr, ensure_eq_ok_iff.1 hdif⟩

/-! ### The commands on the row of a key -/

section Commands

variable {now : TimeMs}

/-- The rows after an update of the job of a key. -/
lemma purge_updatePurgeJob
    (h : updatePurgeJob key state f db = .ok (changed, db')) (hkey : ∀ r, (f r).job.key = r.job.key)
    (k : PurgeJobKey) : (∃ r, db.purge k = some r ∧ k = key ∧ r.job.state = state ∧ changed = true ∧
      db'.purge k = some (f r)) ∨ (db'.purge k = db.purge k ∧
      (k = key → changed = false ∧ ∀ r ∈ db.purge k, r.job.state ≠ state)) := by
  obtain ⟨T, hupd, h⟩ := bind_eq_ok_iff.1 h
  cases h
  unfold purge
  rw [lookup_update (constrained_eq_ok_iff.1 hupd) hkey]
  have hcount := count_eq_one_iff (T := db.purgeJobs) (k := key)
    (p := fun r => decide (r.job.key = key) && decide (r.job.state = state))
    (by simp +contextual)
  cases hrow : db.purgeJobs.lookup k with
  | none =>
    refine .inr ⟨rfl, ?_⟩
    rintro rfl
    simp [hcount, hrow]
  | some r =>
    have hk : r.job.key = k := key_of_lookup hrow
    by_cases hsel : k = key ∧ r.job.state = state
    · obtain ⟨rfl, hst⟩ := hsel
      exact .inl ⟨r, rfl, rfl, hst, by simp [hcount, hrow, hk, hst], by simp [assign, hk, hst]⟩
    · refine .inr ⟨?_, ?_⟩
      · simp only [map_some, assign, hk, Bool.and_eq_true, decide_eq_true_eq, if_neg hsel]
      · rintro rfl
        have hst : r.job.state ≠ state := fun hst => hsel ⟨rfl, hst⟩
        simp [hcount, hrow, hk, hst]

/-- An update that leaves the key and the paths of a job and passes its check succeeds. -/
lemma updatePurgeJob_ok
    (hkey : ∀ r, (f r).job.key = r.job.key) (htr : ∀ r, (f r).job.trashPath = r.job.trashPath)
    (hchk : ∀ r : PurgeRow, r.check = true → (f r).check = true) :
    ∃ changed db', updatePurgeJob key state f db = .ok (changed, db') := by
  obtain ⟨T, hupd⟩ := update_isSome (T := db.purgeJobs) (f := f)
    (p := fun r => decide (r.job.key = key) && decide (r.job.state = state)) hkey
    (fun r => congrArg some (htr r)) fun r hr _ => hchk r (db.purgeJobs.checked r hr)
  simp only [updatePurgeJob, hupd, constrained]
  exact ⟨_, _, rfl⟩

/-- A deletion by key leaves the other rows. -/
lemma purge_deletePurgeJob (k : PurgeJobKey) :
    (deletePurgeJob p db).2.purge k = (db.purge k).filter fun r => !p r :=
  db.purgeJobs.lookup_delete p k

/-- A job is inserted only where its key has no row. -/
lemma preparePurgeJob_cases {proposed : StoredPurgeJob}
    (h : preparePurgeJob limits now proposed db = .ok (reply, db')) :
    (reply ≠ .inserted ∧ db' = db) ∨
    (reply = .inserted ∧ proposed.validateNew = .ok () ∧ db.purge proposed.key = none ∧
      ¬ limits.purgeFull proposed.key db.purgeJobs ∧
      db.purgeJobs.insert (.prepare now proposed) = some db'.purgeJobs ∧
      ∀ k, db'.purge k =
        if proposed.key = k then some (.prepare now proposed) else db.purge k) := by
  obtain ⟨⟨⟩, hval, h⟩ := bind_eq_ok_iff.1 h
  obtain ⟨existing, hload, h⟩ := bind_eq_ok_iff.1 h
  have hex := loadPurgeJob_eq_ok hload
  cases existing with
  | some existing =>
    cases h
    exact .inl ⟨by split <;> simp, rfl⟩
  | none =>
    split_ifs at h with htr hfull
    · cases h
      exact .inl ⟨by simp, rfl⟩
    · cases h
      exact .inl ⟨by simp, rfl⟩
    · obtain ⟨T, hins, h⟩ := bind_eq_ok_iff.1 h
      cases h
      refine .inr ⟨rfl, hval, map_eq_none_iff.1 hex.symm, hfull,
        constrained_eq_ok_iff.1 hins, fun k => ?_⟩
      exact lookup_insert (constrained_eq_ok_iff.1 hins) k

/-- What `claim_due_purge_job` selects and replies. -/
lemma claimDuePurgeJob_cases
    (h : claimDuePurgeJob now db = .ok (claimed, db')) :
    (claimed = none ∧ db' = db ∧ ∀ r ∈ db.purgeJobs.rows, r.due now = false) ∨
    ∃ r ∈ db.purgeJobs.rows, r.due now = true ∧
      (∀ r' ∈ db.purgeJobs.rows, r'.due now = true → r.dueOrder ≤ r'.dueOrder) ∧
      claimed = some (r.claim now).job ∧
      ∀ k, db'.purge k = if r.job.key = k then some (r.claim now) else db.purge k := by
  unfold claimDuePurgeJob at h
  simp only at h
  split at h
  case h_1 hnone =>
    cases h
    refine .inl ⟨rfl, rfl, fun r hr => ?_⟩
    rw [List.head?_eq_none_iff, ← List.length_eq_zero_iff, List.length_insertionSort,
      List.length_eq_zero_iff, List.filter_eq_nil_iff] at hnone
    simpa [due] using hnone r hr
  case h_2 first hfst =>
    obtain ⟨hmem, hleast⟩ := Keyset.head?_sorted hfst
    obtain ⟨hrow, hdue⟩ := List.mem_filter.1 hmem
    have hlook : db.purge first.job.key = some first := lookup_eq_some_iff.2 ⟨hrow, rfl⟩
    have hrdy : first.job.state = .ready := (due_iff.1 hdue).1
    obtain ⟨⟨updated, db''⟩, hupd, h⟩ := bind_eq_ok_iff.1 h
    obtain ⟨-, -, h⟩ := bind_eq_ok_iff.1 h
    obtain ⟨job, hload, h⟩ := bind_eq_ok_iff.1 h
    have hrows : ∀ k, db''.purge k =
        if first.job.key = k then some (first.claim now) else db.purge k := by
      intro k
      rcases purge_updatePurgeJob hupd (fun _ => rfl) k with
        ⟨r, hr, rfl, -, -, hr'⟩ | ⟨hsame, hoth⟩
      · cases hlook.symm.trans hr
        rw [if_pos rfl, hr']
      · by_cases hk : first.job.key = k
        · subst hk
          exact absurd hrdy ((hoth rfl).2 first hlook)
        · rw [if_neg hk, hsame]
    have hjob := loadPurgeJob_eq_ok hload
    rw [hrows, if_pos rfl, map_some] at hjob
    subst hjob
    cases h
    refine .inr ⟨first, hrow, hdue, fun r' hr' hdue' => ?_, rfl, hrows⟩
    exact hleast r' (List.mem_filter.2 ⟨hr', hdue'⟩)

/-- `mark_purge_job_ready` tells whether the job is past prepared with the given revision. -/
lemma markPurgeJobReady_spec (now : TimeMs) (trashRevision : Revision)
    (hload : ∀ r ∈ db.purge key, r.job.Loadable) :
    ∃ changed db', markPurgeJobReady now key trashRevision db = .ok (changed, db') ∧
      (changed = true ↔ ∃ r, db'.purge key = some r ∧ r.job.state ≠ .prepared ∧
        r.job.trashRevision = some trashRevision) := by
  have hok : ∃ updated db', updatePurgeJob key .prepared (.markReady now trashRevision) db =
      .ok (updated, db') := updatePurgeJob_ok (fun _ => rfl) (fun _ => rfl) fun _ h => h
  obtain ⟨updated, db', hupd⟩ := hok
  simp only [markPurgeJobReady, hupd, bind, Except.bind]
  rcases purge_updatePurgeJob hupd (fun _ => rfl) key with
    ⟨r, -, -, -, rfl, hr'⟩ | ⟨hsame, hoth⟩
  · exact ⟨true, db', rfl, by simp [hr', markReady]⟩
  · obtain ⟨rfl, -⟩ := hoth rfl
    rw [← hsame] at hload
    rw [loadPurgeJob_of_loadable hload]
    refine ⟨_, db', rfl, ?_⟩
    cases db'.purge key <;> simp

/-- `claim_due_purge_job` succeeds when every job can be read. -/
lemma claimDuePurgeJob_ok (now : TimeMs) (hload : ∀ r ∈ db.purgeJobs.rows, r.job.Loadable) :
    ∃ claimed db', claimDuePurgeJob now db = .ok (claimed, db') := by
  unfold claimDuePurgeJob
  simp only
  split
  case h_1 => exact ⟨none, db, rfl⟩
  case h_2 first hfst =>
    obtain ⟨hrow, hdue⟩ := List.mem_filter.1 (Keyset.head?_sorted hfst).1
    have hlook : db.purge first.job.key = some first := lookup_eq_some_iff.2 ⟨hrow, rfl⟩
    have hok : ∃ updated db', updatePurgeJob first.job.key .ready (.claim now) db =
        .ok (updated, db') := updatePurgeJob_ok (fun _ => rfl) (fun _ => rfl) fun _ h => h
    obtain ⟨updated, db', hupd⟩ := hok
    rcases purge_updatePurgeJob hupd (fun _ => rfl) first.job.key with
      ⟨r, hr, -, -, rfl, hr'⟩ | ⟨-, hoth⟩
    · cases hlook.symm.trans hr
      obtain ⟨htgt, htr, hdif⟩ := hload first hrow
      have hloadable : ∀ r ∈ db'.purge first.job.key, r.job.Loadable := by
        rw [hr']
        rintro r ⟨⟩
        exact ⟨htgt, htr, hdif⟩
      have hloaded := loadPurgeJob_of_loadable hloadable
      rw [hr', map_some] at hloaded
      refine ⟨some (first.claim now).job, db', ?_⟩
      simp only [hupd, bind, Except.bind, ensure, ↓reduceIte, hloaded]
      rfl
    · exact absurd (due_iff.1 hdue).1 ((hoth rfl).2 first hlook)

lemma lookup_recoverPurgeJobs {T T' : Table purgeSchema} (h : recoverPurgeJobs now T = .ok T')
    (k : PurgeJobKey) : T'.lookup k = (T.lookup k).map (recover now) := by
  obtain ⟨T₁, hrdy, hclamp⟩ := bind_eq_ok_iff.1 h
  rw [lookup_update (constrained_eq_ok_iff.1 hclamp) (fun r => rfl),
    lookup_update (constrained_eq_ok_iff.1 hrdy) (fun r => rfl), map_map]
  rfl

end Commands

/-! ### Every event takes one of these steps -/

section Steps

variable {e : StoreEvent}

lemma prepare_purgeStep {job : StoredPurgeJob} (hcmd : e.command = .purge (.prepare job))
    (h : preparePurgeJob limits e.now job db = .ok (reply, db')) :
    PurgeStep e (.prepared reply) k (db.purge k) (db'.purge k) := by
  obtain ⟨-, rfl⟩ | ⟨-, hval, hfr, -, -, hrows⟩ := preparePurgeJob_cases h
  · exact .kept
  · rw [hrows k]
    split_ifs with hk
    · subst hk
      rw [hfr]
      exact .prepared hcmd rfl hval
    · exact .kept

lemma markReady_purgeStep {trashRevision : Revision}
    (hcmd : e.command = .purge (.markReady key trashRevision))
    (h : markPurgeJobReady e.now key trashRevision db = .ok (changed, db')) :
    PurgeStep e (.changed changed) k (db.purge k) (db'.purge k) := by
  obtain ⟨⟨updated, db''⟩, hupd, h⟩ := bind_eq_ok_iff.1 h
  have hdb : db'' = db' := by
    simp only at h
    split_ifs at h
    · cases h
      rfl
    · obtain ⟨job, -, h⟩ := bind_eq_ok_iff.1 h
      cases h
      rfl
  subst hdb
  rcases purge_updatePurgeJob hupd (fun _ => rfl) k with
    ⟨r, hr, rfl, hst, -, hr'⟩ | ⟨hsame, -⟩
  · rw [hr, hr']
    exact .readied hcmd hst
  · rw [hsame]
    exact .kept

lemma claimDue_purgeStep (hcmd : e.command = .purge .claimDue)
    (h : claimDuePurgeJob e.now db = .ok (claimed, db')) :
    PurgeStep e (.claimed claimed) k (db.purge k) (db'.purge k) := by
  obtain ⟨-, rfl, -⟩ | ⟨r, hrow, hdue, -, hclm, hrows⟩ := claimDuePurgeJob_cases h
  · exact .kept
  · rw [hrows k]
    split_ifs with hk
    · have hlook : db.purge k = some r := lookup_eq_some_iff.2 ⟨hrow, hk⟩
      rw [hlook]
      exact .claimed hcmd hdue (by rw [hclm])
    · exact .kept

lemma retry_purgeStep {delayMs : TimeMs} (hcmd : e.command = .purge (.retry key delayMs))
    (h : retryPurgeJob e.now delayMs key db = .ok (changed, db')) :
    PurgeStep e (.changed changed) k (db.purge k) (db'.purge k) := by
  obtain ⟨nextAttempt, -, h⟩ := bind_eq_ok_iff.1 h
  rcases purge_updatePurgeJob h (fun _ => rfl) k with
    ⟨r, hr, rfl, hst, rfl, hr'⟩ | ⟨hsame, -⟩
  · rw [hr, hr']
    exact .retried hcmd rfl hst
  · rw [hsame]
    exact .kept

/-- A deletion of the job of a key. -/
lemma delete_purgeStep {reply : StoreReply}
    (h : ∀ r, p r = true → r.job.key = k → PurgeStep e reply k (some r) none) :
    PurgeStep e reply k (db.purge k) ((deletePurgeJob p db).2.purge k) := by
  rw [purge_deletePurgeJob]
  cases hrow : db.purge k with
  | none => exact .kept
  | some r =>
    by_cases hsel : p r = true
    · rw [filter_some_neg (by simp [hsel])]
      exact h r hsel (key_of_lookup hrow)
    · rw [filter_some_pos (by simp [hsel])]
      exact .kept

lemma recover_purgeStep (hcmd : e.command = .restart)
    (h : recoverDatabase limits.ttlMs limits.uploadTtlMs e.now db = .ok db') :
    PurgeStep e (.operation .done) k (db.purge k) (db'.purge k) := by
  obtain ⟨_, _, -, -, -, -, hprg⟩ := recoverDatabase_eq_ok_iff.1 h
  unfold purge
  rw [lookup_recoverPurgeJobs hprg]
  cases hrow : db.purgeJobs.lookup k with
  | none => exact .kept
  | some r => exact .recovered hcmd rfl

/-- An event does to the row of a key one of the things `PurgeStep` lists. -/
theorem StoreEvent.exec_purgeStep (limits : Limits) (e : StoreEvent) (db : Database)
    (k : PurgeJobKey) :
    PurgeStep e (e.exec limits db).1 k (db.purge k) ((e.exec limits db).2.purge k) := by
  have hdoes := e.exec_does limits db
  generalize e.exec limits db = result at hdoes ⊢
  cases hdoes with
  | failed => exact .kept
  | restarted hcmd h => exact recover_purgeStep hcmd h
  | operation _ h =>
    rw [purge, purge, (OperationEvent.exec_frame h).2]
    exact .kept
  | upload _ h =>
    rw [purge, purge, (UploadCommand.exec_frame h).2]
    exact .kept
  | @purge command _ hcmd h =>
    cases command with
    | prepare job =>
      obtain ⟨a, hrun, rfl⟩ := map_eq_ok_iff.1 h
      exact prepare_purgeStep hcmd hrun
    | markReady key trashRevision =>
      obtain ⟨a, hrun, rfl⟩ := map_eq_ok_iff.1 h
      exact markReady_purgeStep hcmd hrun
    | claimDue =>
      obtain ⟨a, hrun, rfl⟩ := map_eq_ok_iff.1 h
      exact claimDue_purgeStep hcmd hrun
    | retry key delayMs =>
      obtain ⟨a, hrun, rfl⟩ := map_eq_ok_iff.1 h
      exact retry_purgeStep hcmd hrun
    | complete key =>
      cases h
      refine delete_purgeStep fun r hsel hk => ?_
      simp only [Bool.and_eq_true, decide_eq_true_eq] at hsel
      obtain rfl := hsel.1.symm.trans hk
      exact .completed hcmd hsel.2
    | remove key =>
      cases h
      refine delete_purgeStep fun r hsel hk => ?_
      obtain rfl := (of_decide_eq_true hsel).symm.trans hk
      exact .removed hcmd

end Steps

end DufsRam
