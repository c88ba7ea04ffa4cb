import DufsRam.StateStore.PurgeStep

/-!
# The life of a purge job in the store

The revision of the trash is stored when a job becomes ready and never altered; a claimed job has
one owner until it is retried or the server restarts; and the job claimed next is the first one due.
-/

namespace DufsRam

open Relational Result PurgeRow Table Nat

/-! ### One step -/

/-- A stored job can be read back, and has the revision of its trash unless it is prepared. -/
structure PurgeRow.Wf (r : PurgeRow) : Prop where
  loadable : r.job.Loadable
  revision : r.job.trashRevision = none ↔ r.job.state = .prepared

/-- A change of state between ready and claimed keeps a row well formed. -/
lemma PurgeRow.Wf.setState {r r' : PurgeRow} (h : r.Wf) (hloadable : r'.job.Loadable)
    (hrev : r'.job.trashRevision = r.job.trashRevision)
    (hst : r.job.state ≠ .prepared) (hst' : r'.job.state ≠ .prepared) : r'.Wf where
  loadable := hloadable
  revision := by
    rw [hrev, h.revision]
    exact ⟨fun hp => absurd hp hst, fun hp => absurd hp hst'⟩

variable {revision : Revision}

namespace PurgeStep

variable {e : StoreEvent} {reply : StoreReply} {k : PurgeJobKey} {row row' : Option PurgeRow}
  {r r' : PurgeRow}

lemma wf (h : PurgeStep e reply k row row') (hwf : ∀ r ∈ row, r.Wf) : ∀ r' ∈ row', r'.Wf := by
  intro r' hr'
  cases h with
  | kept => exact hwf r' hr'
  | prepared hcmd hkey hval =>
    cases hr'
    obtain ⟨htgt, htr, hdif⟩ := StoredPurgeJob.loadable_of_validateNew hval
    exact ⟨⟨htgt, htr, hdif⟩, by simp [prepare]⟩
  | @readied r _ hcmd hst =>
    cases hr'
    obtain ⟨⟨htgt, htr, hdif⟩, -⟩ := hwf r rfl
    exact ⟨⟨htgt, htr, hdif⟩, by simp [markReady]⟩
  | @claimed r hcmd hdue hrep =>
    cases hr'
    obtain ⟨htgt, htr, hdif⟩ := (hwf r rfl).loadable
    refine (hwf r rfl).setState ⟨htgt, htr, hdif⟩ rfl ?_ (by simp [claim])
    simp [(due_iff.1 hdue).1]
  | @retried r _ _ hcmd hrep hst =>
    cases hr'
    obtain ⟨htgt, htr, hdif⟩ := (hwf r rfl).loadable
    exact (hwf r rfl).setState ⟨htgt, htr, hdif⟩ rfl (by simp [hst]) (by simp [retry])
  | completed | removed => cases hr'
  | @recovered r hcmd hrep =>
    cases hr'
    obtain ⟨htgt, htr, hdif⟩ := (hwf r rfl).loadable
    have hrev := (hwf r rfl).revision
    by_cases hclm : r.job.state = .claimed
    · refine (hwf r rfl).setState ?_ ?_ (by simp [hclm]) ?_ <;> simp only [job_recover, if_pos hclm]
      · exact ⟨htgt, htr, hdif⟩
      · simp
    · refine ⟨?_, ?_⟩ <;> simp only [job_recover, if_neg hclm]
      · exact ⟨htgt, htr, hdif⟩
      · exact hrev

/-- A revision that is stored stays. -/
lemma trashRevision (h : PurgeStep e reply k (some r) (some r')) (hwf : r.Wf)
    (hrev : r.job.trashRevision = some revision) : r'.job.trashRevision = some revision := by
  cases h with
  | kept | claimed | retried => exact hrev
  | readied hcmd hst =>
    rw [hwf.revision.2 hst] at hrev
    cases hrev
  | recovered =>
    rw [job_recover]
    split_ifs <;> exact hrev

/-- A claimed job stays claimed until it is retried or the server restarts. -/
lemma stays_claimed (h : PurgeStep e reply k (some r) (some r')) (hclm : r.job.state = .claimed) :
    r'.job.state = .claimed ∨
      (∃ delayMs, e.command = .purge (.retry k delayMs) ∧ reply = .changed true) ∨
      (e.command = .restart ∧ reply = .operation .done) := by
  cases h with
  | kept => exact .inl hclm
  | readied hcmd hst => simp [hclm] at hst
  | claimed => exact .inl rfl
  | retried hcmd hrep hst => exact .inr (.inl ⟨_, hcmd, hrep⟩)
  | recovered hcmd hrep => exact .inr (.inr ⟨hcmd, hrep⟩)

end PurgeStep

/-! ### Runs -/

namespace StoreRun

variable (R : StoreRun)

/-- The row of a purge job before the `n`-th event. -/
def purge (n : ℕ) (k : PurgeJobKey) : Option PurgeRow := (R.db n).purge k

/-- The `n`-th event is a retry or a recovery of the job of `k` that took effect. -/
def ReleasedAt (n : ℕ) (k : PurgeJobKey) : Prop :=
  (∃ delayMs, (R.events n).command = .purge (.retry k delayMs) ∧ R.reply n = .changed true) ∨
    ((R.events n).command = .restart ∧ R.reply n = .operation .done)

/-- The `n`-th event replies with the job of `k` as claimed. -/
def ClaimedAt (n : ℕ) (k : PurgeJobKey) : Prop :=
  ∃ job, R.reply n = .claimed (some job) ∧ job.key = k

variable {R} {k : PurgeJobKey} {m n : ℕ} {r r' : PurgeRow}

lemma purgeStep (n : ℕ) (k : PurgeJobKey) :
    PurgeStep (R.events n) (R.reply n) k (R.purge n k) (R.purge (n + 1) k) :=
  StoreEvent.exec_purgeStep R.limits (R.events n) (R.db n) k

lemma purge_wf (n : ℕ) (k : PurgeJobKey) : ∀ r ∈ R.purge n k, r.Wf := by
  induction n with
  | zero =>
    intro r hr
    simp [purge, db, storeMachine, Transition.Machine.run, Database.purge, Database.empty] at hr
  | succ n ih => exact (R.purgeStep n k).wf ih

/-- A revision stays for as long as the row exists. -/
lemma trashRevision_kept (hmn : m ≤ n) (hrow : R.purge m k = some r)
    (hrev : r.job.trashRevision = some revision) (hex : ∀ i, m ≤ i → i ≤ n → R.purge i k ≠ none) :
    ∃ r', R.purge n k = some r' ∧ r'.job.trashRevision = some revision := by
  induction n, hmn using le_induction with
  | base => exact ⟨r, hrow, hrev⟩
  | succ n hmn ih =>
    obtain ⟨r₁, hrow₁, hrev₁⟩ := ih fun i hi hin => hex i hi (le_succ_of_le hin)
    obtain ⟨r₂, hrow₂⟩ :=
      Option.ne_none_iff_exists'.1 (hex (n + 1) (le_succ_of_le hmn) le_rfl)
    have hstep := R.purgeStep n k
    rw [hrow₁, hrow₂] at hstep
    exact ⟨r₂, hrow₂, hstep.trashRevision (purge_wf n k r₁ hrow₁) hrev₁⟩

/-- The row of a job that a claim returned. -/
lemma ClaimedAt.row (h : R.ClaimedAt n k) : ∃ r, R.purge n k = some r ∧ r.job.state = .ready ∧
      R.purge (n + 1) k = some (r.claim (R.events n).now) := by
  obtain ⟨job, hrep, rfl⟩ := h
  rw [purge, purge, db_succ]
  rw [reply] at hrep
  have hdoes := (R.events n).exec_does R.limits (R.db n)
  generalize (R.events n).exec R.limits (R.db n) = result at hdoes hrep ⊢
  cases hdoes with
  | failed h => cases hrep; cases h
  | restarted | operation => cases hrep
  | @upload command _ _ h =>
    cases command <;> obtain ⟨a, -, rfl⟩ := map_eq_ok_iff.1 h <;> cases hrep
  | @purge command _ _ h =>
    cases command with
    | claimDue =>
      obtain ⟨a, hrun, rfl⟩ := map_eq_ok_iff.1 h
      simp only [StoreReply.claimed.injEq] at hrep
      obtain ⟨hnone, -⟩ | ⟨r, hrow, hdue, -, hclm, hrows⟩ := claimDuePurgeJob_cases hrun
      · simp [hrep] at hnone
      · cases hrep.symm.trans hclm
        refine ⟨r, lookup_eq_some_iff.2 ⟨hrow, rfl⟩, (due_iff.1 hdue).1, ?_⟩
        rw [hrows, if_pos (by rfl)]
    | complete | remove => cases h; cases hrep
    | _ => obtain ⟨a, -, rfl⟩ := map_eq_ok_iff.1 h; cases hrep

/-- A claimed job stays claimed as long as its row exists, until it is released. -/
lemma claimed_or_released (hmn : m ≤ n) (hrow : R.purge m k = some r)
    (hclm : r.job.state = .claimed) (hex : ∀ i, m ≤ i → i ≤ n → R.purge i k ≠ none) :
    (∃ r', R.purge n k = some r' ∧ r'.job.state = .claimed) ∨
      ∃ i, m ≤ i ∧ i < n ∧ R.ReleasedAt i k := by
  induction n, hmn using le_induction with
  | base => exact .inl ⟨r, hrow, hclm⟩
  | succ n hmn ih =>
    obtain ⟨r₁, hrow₁, hclm₁⟩ | ⟨i, hmi, hin, hrel⟩ :=
      ih fun i hi hin => hex i hi (le_succ_of_le hin)
    · obtain ⟨r₂, hrow₂⟩ :=
        Option.ne_none_iff_exists'.1 (hex (n + 1) (le_succ_of_le hmn) le_rfl)
      have hstep := R.purgeStep n k
      rw [hrow₁, hrow₂] at hstep
      obtain hstays | hrel := hstep.stays_claimed hclm₁
      · exact .inl ⟨r₂, hrow₂, hstays⟩
      · exact .inr ⟨n, hmn, lt_succ_self n, hrel⟩
    · exact .inr ⟨i, hmi, lt_succ_of_lt hin, hrel⟩

/-! ### The life of a job -/

/-- A job has the revision of its trash exactly when it is past prepared, and keeps it; no two jobs
share their trash; a claimed job is not claimed again before it is released; completing a job
deletes only a claimed one; `mark_purge_job_ready` tells whether the job is past prepared with the
given revision; and a claim returns the first job that is due, if there is one. -/
theorem purge_jobs_kept (R : StoreRun) : (∀ n k r, R.purge n k = some r →
      (r.job.trashRevision = none ↔ r.job.state = .prepared)) ∧
    (∀ k m n r revision, m ≤ n → R.purge m k = some r → r.job.trashRevision = some revision →
      (∀ i, m ≤ i → i ≤ n → R.purge i k ≠ none) →
      ∃ r', R.purge n k = some r' ∧ r'.job.trashRevision = some revision) ∧
    (∀ n k k' r r', R.purge n k = some r → R.purge n k' = some r' →
      r.job.trashPath = r'.job.trashPath → k = k') ∧
    (∀ k m n, m < n → R.ClaimedAt m k → R.ClaimedAt n k →
      (∀ i, m ≤ i → i ≤ n → R.purge i k ≠ none) → ∃ i, m < i ∧ i < n ∧ R.ReleasedAt i k) ∧
    (∀ n key k r, (R.events n).command = .purge (.complete key) → R.purge n k = some r →
      R.purge (n + 1) k = none → k = key ∧ r.job.state = .claimed) ∧
    (∀ n key revision, (R.events n).command = .purge (.markReady key revision) →
      (R.reply n = .changed true ↔ ∃ r, R.purge (n + 1) key = some r ∧
        r.job.state ≠ .prepared ∧ r.job.trashRevision = some revision)) ∧
    (∀ n, (R.events n).command = .purge .claimDue → (R.reply n = .claimed none ∧
        ∀ k r, R.purge n k = some r → r.due (R.events n).now = false) ∨
      ∃ k r, R.purge n k = some r ∧ r.due (R.events n).now = true ∧
        (∀ k' r', R.purge n k' = some r' → r'.due (R.events n).now = true →
          r.dueOrder ≤ r'.dueOrder) ∧
        R.reply n = .claimed (some { r.job with state := .claimed })) := by
  refine ⟨fun n k r hrow => (purge_wf n k r hrow).revision,
    fun k m n r revision => trashRevision_kept, ?_, ?_, ?_, ?_, ?_⟩
  · intro n k k' r r' hrow hrow' htrash
    obtain ⟨hmem, hkey⟩ := lookup_eq_some_iff.1 hrow
    obtain ⟨hmem', hkey'⟩ := lookup_eq_some_iff.1 hrow'
    have hsame := eq_of_unique hmem hmem' rfl (congrArg some htrash.symm)
    rw [← hkey, ← hkey', hsame]
  · intro k m n hmn hclaimed hclaimed' hexists
    obtain ⟨r, -, -, hrow⟩ := hclaimed.row
    obtain ⟨r', hrow', hready, -⟩ := hclaimed'.row
    obtain ⟨r₁, hrow₁, hstate⟩ | ⟨i, hmi, hin, hreleased⟩ :=
      claimed_or_released (succ_le_of_lt hmn) hrow rfl
        fun i hi hin => hexists i (le_of_succ_le hi) hin
    · cases hrow'.symm.trans hrow₁
      simp [hready] at hstate
    · exact ⟨i, hmi, hin, hreleased⟩
  · intro n key k r hcommand hrow hgone
    have hstep := R.purgeStep n k
    rw [hrow, hgone] at hstep
    cases hstep with
    | completed h hstate =>
      cases hcommand.symm.trans h
      exact ⟨rfl, hstate⟩
    | removed h =>
      cases hcommand.symm.trans h
  · intro n key revision hcommand
    obtain ⟨changed, db', hrun, hchanged⟩ := markPurgeJobReady_spec (R.events n).now revision
      fun r hr => (purge_wf (R := R) n key r hr).loadable
    have hexec : (R.events n).exec R.limits (R.db n) = (.changed changed, db') := by
      simp [StoreEvent.exec, hcommand, PurgeCommand.exec, hrun, answer, Functor.map, Except.map]
    rw [reply, purge, db_succ, hexec, ← hchanged]
    simp
  · intro n hcommand
    obtain ⟨claimed, db', hrun⟩ := claimDuePurgeJob_ok (R.events n).now
      fun r hr => (purge_wf (R := R) n _ r (lookup_eq_some_iff.2 ⟨hr, rfl⟩)).loadable
    have hexec : (R.events n).exec R.limits (R.db n) = (.claimed claimed, db') := by
      simp [StoreEvent.exec, hcommand, PurgeCommand.exec, hrun, answer, Functor.map, Except.map]
    rw [reply, hexec]
    obtain ⟨rfl, -, hnone⟩ | ⟨r, hrow, hdue, hleast, rfl, -⟩ := claimDuePurgeJob_cases hrun
    · exact .inl ⟨rfl, fun k r hrow => hnone r (lookup_eq_some_iff.1 hrow).1⟩
    · refine .inr ⟨r.job.key, r, lookup_eq_some_iff.2 ⟨hrow, rfl⟩, hdue, ?_, rfl⟩
      exact fun k' r' hrow' hdue' => hleast r' (lookup_eq_some_iff.1 hrow').1 hdue'

/-- A job for one of two trashed entries. -/
def sampleJob (id : Uuid) (name : String) : StoredPurgeJob where
  key := ⟨7, id⟩
  targetPath := [name]
  trashPath := ["trash", name]
  sourceIdentity := ⟨1, 2⟩
  trashRevision := none
  isDirectory := false
  state := .prepared
  attempts := 0

/-- Two jobs become ready and are claimed; the first is retried and claimed again. -/
def samplePurges : StoreRun :=
  .ofList ⟨8, 4, 60000, 60000, 8, 4, 8, 4⟩
    [⟨0, .purge (.prepare (sampleJob 1 "a"))⟩, ⟨1, .purge (.prepare (sampleJob 2 "b"))⟩,
      ⟨2, .purge (.markReady ⟨7, 1⟩ 5)⟩, ⟨3, .purge (.markReady ⟨7, 2⟩ 6)⟩,
      ⟨4, .purge .claimDue⟩, ⟨5, .purge .claimDue⟩, ⟨6, .purge (.retry ⟨7, 1⟩ 1)⟩,
      ⟨7, .purge .claimDue⟩, ⟨8, .purge (.complete ⟨7, 1⟩)⟩]

theorem purge_jobs_kept_sample : samplePurges.reply 2 = .changed true ∧
    (∃ r, samplePurges.purge 8 ⟨7, 1⟩ = some r ∧ r.job.trashRevision = some 5) ∧
    (∃ i, 4 < i ∧ i < 7 ∧ samplePurges.ReleasedAt i ⟨7, 1⟩) ∧
    (∃ r, samplePurges.purge 8 ⟨7, 1⟩ = some r ∧ r.job.state = .claimed) ∧
    ∃ k r, samplePurges.purge 4 k = some r ∧
      (∀ k' r', samplePurges.purge 4 k' = some r' → r'.due 4 = true → r.dueOrder ≤ r'.dueOrder) ∧
      samplePurges.reply 4 = .claimed (some { r.job with state := .claimed }) := by
  obtain ⟨-, hrevision, -, hclaims, hcompletes, hready, hclaim⟩ := purge_jobs_kept samplePurges
  have hrow : (samplePurges.purge 3 ⟨7, 1⟩).map (fun r => (r.job.state, r.job.trashRevision)) =
      some (.ready, some 5) := by decide +kernel
  obtain ⟨r, hrow, hr⟩ := Option.map_eq_some_iff.1 hrow
  obtain ⟨hstate, hr⟩ := Prod.mk.inj hr
  have hexists : ∀ i < 9, 2 < i → samplePurges.purge i ⟨7, 1⟩ ≠ none := by decide +kernel
  have hfirst : samplePurges.ClaimedAt 4 ⟨7, 1⟩ :=
    ⟨{ sampleJob 1 "a" with trashRevision := some 5, state := .claimed }, by decide +kernel, rfl⟩
  have hagain : samplePurges.ClaimedAt 7 ⟨7, 1⟩ :=
    ⟨{ sampleJob 1 "a" with trashRevision := some 5, state := .claimed, attempts := 1 },
      by decide +kernel, rfl⟩
  refine ⟨(hready 2 ⟨7, 1⟩ 5 rfl).2 ⟨r, hrow, by simp [hstate], hr⟩,
    hrevision _ 3 8 r 5 (by decide) hrow hr fun i hi hi' => hexists i (by omega) (by omega),
    hclaims _ 4 7 (by decide) hfirst hagain fun i hi hi' => hexists i (by omega) (by omega), ?_, ?_⟩
  · obtain ⟨r₈, hr₈⟩ := Option.ne_none_iff_exists'.1 (hexists 8 (by decide) (by decide))
    exact ⟨r₈, hr₈, (hcompletes 8 ⟨7, 1⟩ ⟨7, 1⟩ r₈ rfl hr₈ (by decide +kernel)).2⟩
  · obtain ⟨hnone, -⟩ | ⟨k, r, hrow, -, hleast, hreply⟩ := hclaim 4 rfl
    · have hsome : samplePurges.reply 4 ≠ .claimed none := by decide +kernel
      exact absurd hnone hsome
    · exact ⟨k, r, hrow, hleast, hreply⟩

end StoreRun

end DufsRam
