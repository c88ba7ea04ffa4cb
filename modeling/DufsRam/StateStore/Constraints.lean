import DufsRam.StateStore.Capacity
import DufsRam.StateStore.PurgeRun

/-!
# No statement violates a constraint

The arguments that the front of the store accepts pass every check of the schema, and so does what
the commands and the recovery make of rows that are stored. A command therefore fails only when the
time of an expiry cannot be represented.
-/

namespace DufsRam

open Relational Result OperationRow StoredOutcome StoredUploadSession StoreEvent Table Option
  StoreCommand List

/-! ### Functions that fail only on an overflow -/

/-- The only error is that of `expiration_time`. -/
def Result.OnlyOverflows {α : Type} (x : Result α) : Prop :=
  ∀ message, x = .error message → message = "Operation expiration time overflowed"

namespace Result.OnlyOverflows

variable {α β : Type} {x : Result α} {a : α} {f : α → Result β}

lemma ok (a : α) : Result.OnlyOverflows (.ok a) := nofun

lemma of_eq_ok (h : x = .ok a) : x.OnlyOverflows := h ▸ ok a

lemma bind (hx : x.OnlyOverflows)
    (hf : ∀ a, x = .ok a → (f a).OnlyOverflows) : Result.OnlyOverflows (x >>= f) := by
  cases x with
  | error message => exact fun message' h => hx message' (by cases h; rfl)
  | ok a => exact hf a rfl

lemma map {f : α → β} (hx : x.OnlyOverflows) : Result.OnlyOverflows (f <$> x) := by
  cases x with
  | error message => exact fun message' h => hx message' (by cases h; rfl)
  | ok a => exact ok (f a)

/-- Sequencing after a function that succeeds. -/
lemma bind_ok (hx : x = .ok a) (hf : (f a).OnlyOverflows) : Result.OnlyOverflows (x >>= f) :=
  (of_eq_ok hx).bind fun a' ha' => by
    cases hx.symm.trans ha'
    exact hf

/-- Sequencing after a statement that no constraint stops. -/
lemma bind_constrained {o : Option α} (ho : ∃ a, o = some a)
    (hf : ∀ a, o = some a → (f a).OnlyOverflows) : Result.OnlyOverflows (constrained o >>= f) := by
  obtain ⟨a, rfl⟩ := ho
  exact bind_ok rfl (hf a rfl)

end Result.OnlyOverflows

lemma expirationTime_onlyOverflows (now ttlMs : TimeMs) :
    (expirationTime now ttlMs).OnlyOverflows := by
  unfold expirationTime
  split
  · exact .ok _
  · rintro message ⟨⟩
    rfl

/-! ### Valid arguments -/

/-- SQLite counts at least one character in the code. -/
def StoredOutcome.Storable (o : StoredOutcome) : Prop :=
  ∀ code ∈ o.code, code.toList.head? ≠ some '\x00'

/-- The arguments pass the validation of the functions that send the command, and the code of an
outcome does not begin with a NUL. -/
def StoreCommand.Valid : StoreCommand → Prop
  | .operation (.complete _ _ outcome) => outcome.validate = .ok () ∧ outcome.Storable
  | .upload (.save session _) => session.validate = .ok ()
  | .upload (.reject _ targetPath stagePath _) =>
    validateStoredPath targetPath "Upload target" = .ok () ∧
      validateStoredPath stagePath "Upload stage" = .ok ()
  | .upload (.removeIfMatches expected) => expected.validate = .ok ()
  | .upload (.removeExpiredIfMatches expected) => expected.session.validate = .ok ()
  | .purge (.prepare job) => job.validateNew = .ok ()
  | _ => True

/-! ### Operations -/

lemma StoredOutcome.storable_uncertain : uncertain.Storable := by
  intro code hcode
  cases hcode
  decide

/-- A text that does not begin with a NUL has at least one character, and no more than it has. -/
lemma textLength_of_storable {code : String} (hlen : 1 ≤ code.length)
    (hhead : code.toList.head? ≠ some '\x00') :
    1 ≤ textLength code ∧ textLength code ≤ code.length := by
  unfold textLength
  rw [← String.length_toList] at hlen ⊢
  refine ⟨?_, (takeWhile_sublist _).length_le⟩
  cases hlist : code.toList with
  | nil => simp [hlist] at hlen
  | cons c rest =>
    rw [hlist] at hhead
    have hc : c ≠ '\x00' := by simpa using hhead
    simp [hc]

variable {o : StoredOutcome} {expiresAt now : TimeMs} {r : OperationRow} {k : OperationKey}
  {s proposed : StoredUploadSession} {db : Database} {limits : Limits}

/-- What `validate` checks of an outcome. -/
lemma StoredOutcome.of_validate (h : o.validate = .ok ()) : (100 ≤ o.status ∧ o.status ≤ 599) ∧
      (o.state = .succeeded ∧ successfulStatus o.status.toNat = true ∧ o.code = none ∨
        o.state ≠ .succeeded ∧ successfulStatus o.status.toNat = false ∧
          ∃ code, o.code = some code ∧ 1 ≤ code.length ∧ code.length ≤ maxErrorCodeChars) := by
  obtain ⟨status, state, code⟩ := o
  obtain ⟨⟨⟩, hstat, h⟩ := bind_eq_ok_iff.1 h
  refine ⟨ensure_eq_ok_iff.1 hstat, ?_⟩
  cases state <;> cases code <;> simp_all [ensure, bind, Except.bind, pure, Except.pure]
  all_goals split_ifs at h <;> simp_all

/-- What `validate` accepts passes the check of a finished row. -/
lemma OperationRow.check_complete (hval : o.validate = .ok ())
    (hstorable : o.Storable) : (r.complete now expiresAt o).check = true := by
  obtain ⟨⟨hlow, hhigh⟩, hout⟩ := of_validate hval
  have hstat : (100 : ℤ) ≤ o.status.toNat ∧ (o.status.toNat : ℤ) ≤ 599 := by
    have hlow' : 100 ≤ o.status.toNat := hlow
    have hhigh' : o.status.toNat ≤ 599 := hhigh
    omega
  obtain ⟨hst, hsuc, hcode⟩ | ⟨hst, hflr, code, hcode, hone, hmany⟩ := hout
  · simp [check, complete, finished, hst, hsuc, hcode, hstat]
  · obtain ⟨hone', hle⟩ := textLength_of_storable hone (hstorable code hcode)
    have hmany' := hle.trans hmany
    cases hterm : o.state <;> simp_all [check, complete, finished]

/-- The outcome of a finished row can be read. -/
def OperationRow.Readable (r : OperationRow) : Prop :=
  r.state = .completed → ∃ o, r.intoOutcome = .ok o

lemma OperationRow.readable_complete (h : o.validate = .ok ()) :
    (r.complete now expiresAt o).Readable := by
  intro _
  have hrng : 0 ≤ (o.status.toNat : ℤ) ∧ (o.status.toNat : ℤ) < 65536 := by
    have := o.status.toNat_lt
    omega
  have hout : (⟨UInt16.ofNat (o.status.toNat : ℤ).toNat, o.state, o.code⟩ : StoredOutcome) = o := by
    rw [Int.toNat_natCast, UInt16.ofNat_toNat]
  have hval : (⟨UInt16.ofNat (o.status.toNat : ℤ).toNat, o.state, o.code⟩ :
      StoredOutcome).validate = .ok () := by rw [hout, h]
  refine ⟨o, bind_eq_ok_iff.2 ⟨o.state, rfl, bind_eq_ok_iff.2 ⟨_, rfl,
    bind_eq_ok_iff.2 ⟨(), ensure_eq_ok_iff.2 hrng, ?_⟩⟩⟩⟩
  exact bind_eq_ok_iff.2 ⟨(), hval, congrArg Except.ok hout⟩

lemma StoredOutcome.validate_uncertain : uncertain.validate = .ok () := by decide

lemma OperationStep.readable {e : OperationEvent} {reply : OperationReply}
    {row row' : Option OperationRow} (h : OperationStep e reply k row row')
    (hval : (operation e.command).Valid) (hrow : ∀ r ∈ row, r.Readable) :
    ∀ r' ∈ row', r'.Readable := by
  intro r' hr'
  cases h with
  | kept => exact hrow r' hr'
  | started | marked =>
    cases hr'
    rintro ⟨⟩
  | expired | abandonedReserved | recoveredReserved => cases hr'
  | completed hcmd =>
    cases hr'
    rw [hcmd] at hval
    exact readable_complete hval.1
  | abandonedCommitStarted | recoveredCommitStarted =>
    cases hr'
    exact readable_complete validate_uncertain
  | @clamped r _ _ _ =>
    cases hr'
    exact hrow r rfl

lemma OperationRow.check_expireAt (hchk : r.check = true) (hst : r.state = .completed) :
    (r.expireAt expiresAt).check = true := by
  simp only [check, expireAt, hst, Bool.and_eq_true] at hchk ⊢
  refine ⟨hchk.1, ?_⟩
  have hfnd := hchk.2
  unfold finished at hfnd ⊢
  cases hterm : r.terminalState <;> cases hstat : r.httpStatus <;>
    cases hexp : r.expiresAtMs <;> simp_all

section Operations

variable {key : OperationKey} {lease : Uuid}

/-- The update of a guarded row succeeds when what it writes passes the check. -/
lemma update_operations_isSome {T : Table operationSchema} {p : OperationRow → Bool}
    {f : OperationRow → OperationRow} (hkey : ∀ r, (f r).key = r.key)
    (hchk : ∀ r : OperationRow, r.check = true → p r = true → (f r).check = true) :
    ∃ T', T.update p f = some T' :=
  update_isSome hkey (fun _ => rfl) fun r hr hp => hchk r (T.checked r hr) hp

lemma beginOperation_onlyOverflows {fp : Fingerprint}
    (hreadable : ∀ r ∈ db.operation key, r.Readable) :
    (beginOperation limits now lease key fp db).OnlyOverflows := by
  unfold beginOperation
  split
  case h_1 existing hex =>
    refine .bind ?_ fun reply _ => .ok _
    rw [lookup_purgeExpired, filter_eq_some_iff] at hex
    unfold beginReply
    split_ifs
    · exact .ok _
    · split
      · exact .ok _
      · exact .ok _
      case h_3 hst =>
        obtain ⟨o, ho⟩ := hreadable existing hex.1 hst
        exact .map (.of_eq_ok ho)
  case h_2 hnone =>
    split_ifs
    · exact .ok _
    · refine .bind_constrained (insert_isSome hnone (by simp [operationSchema]) ?_) fun _ _ => .ok _
      simp [check, reserve, pending]

lemma operationStatus_onlyOverflows (hreadable : ∀ r ∈ db.operation key, r.Readable) :
    (operationStatus now key db).OnlyOverflows := by
  refine .bind ?_ fun reply _ => .ok _
  cases hrow : (purgeExpired now db.operations).lookup key with
  | none => exact .ok _
  | some r =>
    rw [lookup_purgeExpired, filter_eq_some_iff] at hrow
    unfold statusReply
    cases hst : r.state with
    | reserved | commitStarted => simp only [hst]; exact .ok _
    | completed =>
      simp only [hst]
      obtain ⟨o, ho⟩ := hreadable r hrow.1 hst
      exact .map (.of_eq_ok ho)

lemma markOperationCommitStarted_onlyOverflows :
    (markOperationCommitStarted now key lease db).OnlyOverflows := by
  refine .bind_constrained (update_operations_isSome (fun _ => rfl) fun r hchk hp => ?_)
    fun _ _ => .ok _
  obtain ⟨-, -, hst⟩ := leasedIn_iff.1 hp
  -- a pending row passes its check in either state
  simp_all [check, markCommitStarted, pending]

lemma completeOperation_onlyOverflows (hval : o.validate = .ok ()) (hstorable : o.Storable) :
    (completeOperation limits now key lease o db).OnlyOverflows := by
  refine .bind (expirationTime_onlyOverflows _ _) fun expiresAt _ => ?_
  exact .bind_constrained (update_operations_isSome (fun _ => rfl)
    fun r _ _ => check_complete hval hstorable) fun _ _ => .ok _

lemma check_uncertain : (r.complete now expiresAt .uncertain).check = true :=
  check_complete validate_uncertain storable_uncertain

lemma abandonOperation_onlyOverflows :
    (abandonOperation limits now key lease db).OnlyOverflows := by
  refine .bind (expirationTime_onlyOverflows _ _) fun expiresAt _ => ?_
  split_ifs
  · exact .bind_constrained (update_operations_isSome (fun _ => rfl) fun _ _ _ => check_uncertain)
      fun _ _ => .ok _
  · exact .ok _

lemma recoverOperations_ok (T : Table operationSchema) :
    ∃ T', recoverOperations now expiresAt T = .ok T' := by
  obtain ⟨T₁, hfin⟩ : ∃ T₁,
      ((purgeExpired now T).delete fun r => decide (r.state = .reserved)).update
        (fun r => decide (r.state = .commitStarted))
        (complete now expiresAt .uncertain) = some T₁ :=
    update_operations_isSome (fun _ => rfl) fun _ _ _ => check_uncertain
  obtain ⟨T', hclamp⟩ : ∃ T', T₁.update (outlives expiresAt) (expireAt expiresAt) = some T' := by
    refine update_operations_isSome (fun _ => rfl) fun r hchk hp => ?_
    simp only [outlives, Bool.and_eq_true, decide_eq_true_eq] at hp
    exact check_expireAt hchk hp.1
  exact ⟨T', bind_eq_ok_iff.2 ⟨T₁, constrained_eq_ok_iff.2 hfin, constrained_eq_ok_iff.2 hclamp⟩⟩

end Operations

/-! ### Upload sessions -/

/-- What `validate` checks of a path. -/
lemma storedPathLength_of_validate {p : RelPath} {desc : String}
    (h : validateStoredPath p desc = .ok ()) : storedPathLength p = true := by
  obtain ⟨⟨⟩, hemp, h⟩ := bind_eq_ok_iff.1 h
  obtain ⟨⟨⟩, hlong, -⟩ := bind_eq_ok_iff.1 h
  have hemp := ensure_eq_ok_iff.1 hemp
  have hlong := ensure_eq_ok_iff.1 hlong
  simp only [storedPathLength, decide_eq_true_eq]
  omega

/-- What `validate` checks of a session. -/
lemma StoredUploadSession.validate_eq_ok_iff : s.validate = .ok () ↔
    validateStoredPath s.targetPath "Upload target" = .ok () ∧
    validateStoredPath s.stagePath "Upload stage" = .ok () ∧ s.targetPath ≠ s.stagePath ∧
    s.durableOffset ≤ s.uploadLength ∧ s.uploadLength ≤ i64Max ∧ s.durableOffset ≤ i64Max ∧
    (s.state.fullyDurable = true → s.durableOffset = s.uploadLength) := by
  cases hst : s.state.fullyDurable <;>
    simp [validate, hst, bind_eq_ok_iff, ensure_eq_ok_iff, Unique.exists_iff, pure, Except.pure]

/-- What `validate` accepts passes the check of an upload row. -/
lemma UploadRow.check_of_validate (h : s.validate = .ok ()) :
    (⟨s, now, expiresAt⟩ : UploadRow).check = true := by
  obtain ⟨htgt, hstg, hdif, hoff, hlen, -, hdur⟩ := validate_eq_ok_iff.1 h
  rw [← Bool.not_eq_false, ← or_iff_not_imp_left] at hdur
  simp [UploadRow.check, storedPathLength_of_validate htgt, storedPathLength_of_validate hstg,
    hdif, hoff, hlen, hdur]

/-- A session whose state no longer asks for all bytes is still valid. -/
lemma StoredUploadSession.validate_setState {state : StoredUploadState}
    (h : s.validate = .ok ()) (hst : state.fullyDurable = false) :
    ({ s with state := state } : StoredUploadSession).validate = .ok () := by
  rw [validate_eq_ok_iff] at h ⊢
  simp_all

lemma UploadStep.valid {e : StoreEvent} {k : UploadSessionKey}
    {row row' : Option UploadRow} (h : UploadStep e db k row row') (hval : e.command.Valid)
    (hrow : ∀ r ∈ row, r.session.validate = .ok ()) :
    ∀ r' ∈ row', r'.session.validate = .ok () := by
  intro r' hr'
  cases h with
  | kept => exact hrow r' hr'
  | inserted hcmd | updated hcmd =>
    cases hr'
    rw [hcmd] at hval
    exact hval
  | @rejected r _ _ _ _ _ _ =>
    cases hr'
    exact validate_setState (hrow r rfl) rfl
  | deleted => cases hr'
  | @recovered r _ _ =>
    cases hr'
    rw [UploadRow.session_recover]
    split_ifs
    · exact validate_setState (hrow r rfl) rfl
    · exact hrow r rfl

section Uploads

variable {ttlMs : TimeMs} {key : UploadSessionKey}

lemma loadUploadSession_onlyOverflows (hval : ∀ r ∈ db.upload key, r.session.validate = .ok ()) :
    (loadUploadSession key db).OnlyOverflows := by
  unfold loadUploadSession
  split
  · exact .ok _
  case h_2 r hrow => exact .bind_ok (hval r hrow) (.ok _)

/-- The update of a row succeeds when what it writes passes the check. -/
lemma update_uploads_isSome {T : Table uploadSchema} {p : UploadRow → Bool}
    {f : UploadRow → UploadRow} (hkey : ∀ r, (f r).session.key = r.session.key)
    (hchk : ∀ r ∈ T.rows, p r = true → (f r).check = true) : ∃ T', T.update p f = some T' :=
  update_isSome hkey (fun _ => rfl) hchk

section

variable (hrow : ∀ r ∈ db.upload proposed.key, r.session.validate = .ok ())
  (hval : proposed.validate = .ok ())

include hrow hval

lemma upsertUploadSession_onlyOverflows :
    (upsertUploadSession limits now expiresAt proposed db).OnlyOverflows := by
  refine .bind (loadUploadSession_onlyOverflows hrow) fun existing hload => ?_
  have hex := loadUploadSession_eq_ok hload
  split
  case isTrue => exact .ok _
  case isFalse =>
    cases existing with
    | none =>
      split_ifs
      · exact .ok _
      · refine .bind_constrained (insert_isSome ?_ (by simp [uploadSchema])
          (UploadRow.check_of_validate hval)) fun _ _ => .ok _
        exact map_eq_none_iff.1 hex.symm
    | some existing =>
      cases hmerge : mergeUploadSession existing proposed with
      | none =>
        simp only [hmerge]
        exact .ok _
      | some stored =>
        simp only [hmerge]
        refine .bind_constrained (update_uploads_isSome (fun _ => rfl) fun r hr hp => ?_)
          fun _ _ => .ok _
        obtain ⟨rfl, ⟨-, htgt, hstg, hlen, -, -⟩, -, -⟩ := mergeUploadSession_eq_some hmerge
        -- the row that is written is the proposed session
        have hkey : r.session.key = stored.key := of_decide_eq_true hp
        have hlook : db.uploadSessions.lookup stored.key = some r :=
          lookup_eq_some_iff.2 ⟨hr, hkey⟩
        rw [hlook, map_some, some.injEq] at hex
        subst hex
        have hsvd : r.save now expiresAt stored = ⟨stored, now, expiresAt⟩ := by
          simp [UploadRow.save, hkey, htgt, hstg, hlen]
        rw [hsvd]
        exact UploadRow.check_of_validate hval

lemma saveUploadSession_onlyOverflows :
    (saveUploadSession limits now ttlMs proposed db).OnlyOverflows := by
  refine .bind (expirationTime_onlyOverflows _ _) fun expiresAt _ =>
    upsertUploadSession_onlyOverflows (fun r hr => hrow r ?_) hval
  rw [Database.upload, lookup_purgeExpiredUploads, mem_def, filter_eq_some_iff] at hr
  exact hr.1

end

lemma rejectUploadSession_onlyOverflows {targetPath stagePath : RelPath}
    (hrow : ∀ r ∈ db.upload key, r.session.validate = .ok ()) :
    (rejectUploadSession now ttlMs key targetPath stagePath db).OnlyOverflows := by
  refine .bind (loadUploadSession_onlyOverflows hrow) fun session _ => ?_
  cases session with
  | none => exact .ok _
  | some session =>
    simp only
    split_ifs
    · exact .ok _
    · exact .ok _
    · exact .ok _
    · refine .bind (expirationTime_onlyOverflows _ _) fun expiresAt _ => ?_
      refine .bind_constrained (update_uploads_isSome (fun _ => rfl) fun r hr hp => ?_)
        fun _ _ => .ok _
      simp only [Bool.and_eq_true, decide_eq_true_eq] at hp
      have hlook : db.upload key = some r := lookup_eq_some_iff.2 ⟨hr, hp.1⟩
      exact UploadRow.check_of_validate (validate_setState (hrow r hlook) rfl)

/-- Recovery keeps the checks of every row. -/
lemma recoverUploadSessions_ok (T : Table uploadSchema) :
    ∃ T', recoverUploadSessions now expiresAt T = .ok T' := by
  obtain ⟨T₁, hunk⟩ : ∃ T₁, T.update (fun r => decide (r.session.state = .commitStarted))
      (fun r => ⟨{ r.session with state := .unknown }, now, expiresAt⟩) = some T₁ := by
    refine update_uploads_isSome (fun _ => rfl) fun r hr _ => ?_
    have hchk := T.checked r hr
    simp only [uploadSchema_check, UploadRow.check, Bool.and_eq_true] at hchk ⊢
    exact ⟨hchk.1, rfl⟩
  obtain ⟨T', hclamp⟩ : ∃ T', T₁.update (fun r => decide (expiresAt < r.expiresAtMs))
      (fun r => { r with expiresAtMs := expiresAt }) = some T' :=
    update_uploads_isSome (fun _ => rfl) fun r hr _ => T₁.checked r hr
  exact ⟨T', bind_eq_ok_iff.2 ⟨T₁, constrained_eq_ok_iff.2 hunk, constrained_eq_ok_iff.2 hclamp⟩⟩

end Uploads

/-! ### Purge jobs -/

section Purges

variable {key : PurgeJobKey}

lemma PurgeRow.check_prepare {job : StoredPurgeJob} (h : job.Loadable) :
    (PurgeRow.prepare now job).check = true := by
  simp [PurgeRow.check, PurgeRow.prepare, storedPathLength_of_validate h.target,
    storedPathLength_of_validate h.trash, h.differ]

lemma preparePurgeJob_onlyOverflows {proposed : StoredPurgeJob}
    (hload : ∀ r ∈ db.purge proposed.key, r.job.Loadable) (hval : proposed.validateNew = .ok ()) :
    (preparePurgeJob limits now proposed db).OnlyOverflows := by
  refine .bind_ok hval (.bind_ok (loadPurgeJob_of_loadable hload) ?_)
  cases hrow : db.purge proposed.key with
  | some r => exact .ok _
  | none =>
    split_ifs with htr
    · exact .ok _
    · exact .ok _
    · refine .bind_constrained (insert_isSome hrow ?_
        (PurgeRow.check_prepare (StoredPurgeJob.loadable_of_validateNew hval))) fun _ _ => .ok _
      -- no stored job has the trash path
      rintro r hr u hu hu'
      refine htr (countP_pos_iff.2 ⟨r, hr, decide_eq_true ?_⟩)
      exact some.inj (hu.trans hu'.symm)

lemma retryPurgeJob_onlyOverflows {delayMs : TimeMs} :
    (retryPurgeJob now delayMs key db).OnlyOverflows := by
  refine .bind (expirationTime_onlyOverflows _ _) fun nextAttempt _ => ?_
  have hok : ∃ changed db', updatePurgeJob key .claimed (.retry now nextAttempt) db =
      .ok (changed, db') := by
    refine updatePurgeJob_ok (fun _ => rfl) (fun _ => rfl) fun r hchk => ?_
    simp only [PurgeRow.check, PurgeRow.retry, Bool.and_eq_true, decide_eq_true_eq] at hchk ⊢
    exact ⟨⟨hchk.1.1, decide_eq_true (min_le_right _ _)⟩, decide_eq_true hchk.2⟩
  obtain ⟨changed, db', hupd⟩ := hok
  exact .of_eq_ok hupd

lemma recoverPurgeJobs_ok (T : Table purgeSchema) : ∃ T', recoverPurgeJobs now T = .ok T' := by
  obtain ⟨T₁, hrdy⟩ : ∃ T₁, T.update (fun r => decide (r.job.state = .claimed)) (fun r => { r with
        job := { r.job with state := .ready }, nextAttemptAtMs := now, updatedAtMs := now }) =
      some T₁ := update_isSome (fun _ => rfl) (fun _ => rfl) fun r hr _ => T.checked r hr
  obtain ⟨T', hclamp⟩ : ∃ T', T₁.update
      (fun r => decide (r.job.state = .ready) && decide (now < r.nextAttemptAtMs))
      (fun r => { r with nextAttemptAtMs := now, updatedAtMs := now }) = some T' :=
    update_isSome (fun _ => rfl) (fun _ => rfl) fun r hr _ => T₁.checked r hr
  exact ⟨T', bind_eq_ok_iff.2 ⟨T₁, constrained_eq_ok_iff.2 hrdy, constrained_eq_ok_iff.2 hclamp⟩⟩

end Purges

/-! ### Events -/

lemma recoverDatabase_onlyOverflows {operationTtlMs uploadTtlMs : TimeMs} :
    (recoverDatabase operationTtlMs uploadTtlMs now db).OnlyOverflows := by
  refine .bind (expirationTime_onlyOverflows _ _) fun operationExpiresAt _ =>
    .bind (expirationTime_onlyOverflows _ _) fun uploadExpiresAt _ => ?_
  obtain ⟨operations, hops⟩ := recoverOperations_ok db.operations
  obtain ⟨uploadSessions, hupl⟩ := recoverUploadSessions_ok db.uploadSessions
  obtain ⟨purgeJobs, hprg⟩ := recoverPurgeJobs_ok db.purgeJobs
  exact .bind_ok hops (.bind_ok hupl (.bind_ok hprg (.ok _)))

/-- Every stored row can be read back. -/
structure Database.Readable (db : Database) : Prop where
  operation : ∀ k, ∀ r ∈ db.operation k, r.Readable
  upload : ∀ k, ∀ r ∈ db.upload k, r.session.validate = .ok ()
  purge : ∀ k, ∀ r ∈ db.purge k, r.Wf

section Events

variable {e : StoreEvent} {message : String}

lemma settle_onlyOverflows {α : Type} {f : α → OperationReply} {x : Result (α × Database)}
    (hx : x.OnlyOverflows) (hf : ∀ a, f a ≠ .failed message)
    (h : (settle db f x).1 = .failed message) :
    message = "Operation expiration time overflowed" := by
  cases x with
  | error message' =>
    cases h
    exact hx _ rfl
  | ok result => exact absurd h (hf result.1)

lemma OperationEvent.exec_onlyOverflows {e : OperationEvent}
    (hval : (operation e.command).Valid) (hdb : db.Readable)
    (h : (e.exec limits db).1 = .failed message) :
    message = "Operation expiration time overflowed" := by
  unfold OperationEvent.exec at h
  split at h
  · exact settle_onlyOverflows (beginOperation_onlyOverflows (hdb.operation _)) (by simp) h
  · exact settle_onlyOverflows (operationStatus_onlyOverflows (hdb.operation _)) (by simp) h
  · exact settle_onlyOverflows markOperationCommitStarted_onlyOverflows (by simp) h
  case h_4 key lease outcome hcmd =>
    rw [hcmd] at hval
    exact settle_onlyOverflows (completeOperation_onlyOverflows hval.1 hval.2) (by simp) h
  · exact settle_onlyOverflows abandonOperation_onlyOverflows (by simp) h
  · exact settle_onlyOverflows (.map recoverDatabase_onlyOverflows) (by simp) h

lemma UploadCommand.exec_onlyOverflows {cmd : UploadCommand}
    (hval : (upload cmd).Valid) (hdb : db.Readable) :
    (cmd.exec limits now db).OnlyOverflows := by
  cases cmd with
  | save session ttlMs => exact .map (saveUploadSession_onlyOverflows (hdb.upload _) hval)
  | reject key targetPath stagePath ttlMs =>
    exact .map (rejectUploadSession_onlyOverflows (hdb.upload _))
  | removeIfMatches expected =>
    refine .map (.bind (loadUploadSession_onlyOverflows (hdb.upload _)) fun loaded _ => ?_)
    split_ifs <;> exact .ok _
  | removeExpiredIfMatches expected =>
    refine .map (.bind (loadUploadSession_onlyOverflows (hdb.upload _)) fun loaded _ => ?_)
    simp only
    split_ifs <;> exact .ok _

lemma PurgeCommand.exec_onlyOverflows {cmd : PurgeCommand} (hval : (purge cmd).Valid)
    (hdb : db.Readable) : (cmd.exec limits now db).OnlyOverflows := by
  cases cmd with
  | prepare job =>
    exact .map (preparePurgeJob_onlyOverflows (fun r hr => (hdb.purge _ r hr).loadable) hval)
  | markReady key trashRevision =>
    obtain ⟨changed, db', hrun, -⟩ := markPurgeJobReady_spec now trashRevision
      fun r hr => (hdb.purge key r hr).loadable
    exact .map (.of_eq_ok hrun)
  | claimDue =>
    obtain ⟨claimed, db', hrun⟩ := claimDuePurgeJob_ok now fun r hr =>
      (hdb.purge r.job.key r (lookup_eq_some_iff.2 ⟨hr, rfl⟩)).loadable
    exact .map (.of_eq_ok hrun)
  | retry key delayMs => exact .map retryPurgeJob_onlyOverflows
  | complete | remove => exact .ok _

lemma answer_onlyOverflows {x : Result (StoreReply × Database)} (hx : x.OnlyOverflows)
    (hok : ∀ res, x = .ok res → res.1.error? = none) (h : (answer db x).1.error? = some message) :
    message = "Operation expiration time overflowed" := by
  cases x with
  | error message' =>
    cases h
    exact hx _ rfl
  | ok res =>
    rw [answer, hok res rfl] at h
    cases h

lemma StoreEvent.exec_onlyOverflows (hval : e.command.Valid) (hdb : db.Readable)
    (h : (e.exec limits db).1.error? = some message) :
    message = "Operation expiration time overflowed" := by
  unfold exec at h
  cases hcmd : e.command with
  | operation command =>
    simp only [hcmd] at h hval
    cases hrep : (OperationEvent.exec limits ⟨e.now, command⟩ db).1 with
    | failed message' =>
      rw [hrep] at h
      cases h
      exact OperationEvent.exec_onlyOverflows hval hdb hrep
    | _ => simp [hrep, StoreReply.error?] at h
  | upload command =>
    simp only [hcmd] at h hval
    exact answer_onlyOverflows (UploadCommand.exec_onlyOverflows hval hdb)
      (fun _ => UploadCommand.exec_error?) h
  | purge command =>
    simp only [hcmd] at h hval
    exact answer_onlyOverflows (PurgeCommand.exec_onlyOverflows hval hdb)
      (fun _ => PurgeCommand.exec_error?) h

lemma StoreEvent.exec_operation_readable (hval : e.command.Valid)
    (h : ∀ r ∈ db.operation k, r.Readable) :
    ∀ r ∈ (e.exec limits db).2.operation k, r.Readable := by
  unfold exec
  cases hcmd : e.command with
  | operation command =>
    rw [hcmd] at hval
    exact (OperationEvent.exec_step limits ⟨e.now, command⟩ db k).readable hval h
  | upload command =>
    rwa [Database.operation, answer_operations fun _ hres => (UploadCommand.exec_frame hres).1]
  | purge command =>
    rwa [Database.operation, answer_operations fun _ hres => (PurgeCommand.exec_frame hres).1]

end Events

/-! ### Runs -/

namespace StoreRun

variable {R : StoreRun}

lemma readable (hval : ∀ n, (R.events n).command.Valid) (n : ℕ) : (R.db n).Readable := by
  have hemp : Database.empty.Readable :=
    ⟨fun _ _ hr => (by cases hr), fun _ _ hr => (by cases hr), fun _ _ hr => (by cases hr)⟩
  refine R.db_invariant hemp (fun n h => ?_) n
  exact {
    operation := fun k => exec_operation_readable (hval n) (h.operation k)
    upload := fun k => (exec_uploadStep R.limits (R.events n) (R.db n) k).valid
      (hval n) (h.upload k)
    purge := fun k => (exec_purgeStep R.limits (R.events n) (R.db n) k).wf (h.purge k) }

/-- In every run with valid arguments no table exceeds its capacity, no owner its share, and no
command or recovery fails but for an expiry that cannot be represented. -/
theorem tables_bounded_and_constrained (R : StoreRun) (hvalid : ∀ n, (R.events n).command.Valid)
    (n : ℕ) : (R.db n).Bounded R.limits ∧ ∀ message, (R.reply n).error? = some message →
        message = "Operation expiration time overflowed" :=
  ⟨R.bounded n, fun _ => exec_onlyOverflows (hvalid n) (readable hvalid n)⟩

lemma ofList_forall {P : StoreEvent → Prop} {limits : Limits} {events : List StoreEvent}
    (hrest : P ⟨0, .purge (.remove ⟨0, 0⟩)⟩) (h : ∀ e ∈ events, P e) (n : ℕ) :
    P ((ofList limits events).events n) := by
  change P ((events[n]?).getD ⟨0, .purge (.remove ⟨0, 0⟩)⟩)
  cases hget : events[n]? with
  | none => exact hrest
  | some e => exact h e (mem_of_getElem? hget)

/-- An operation that fails at once, a second one for which there is no room, and the completion of
the first at a time too late for its expiry. -/
def sampleFull : StoreRun :=
  .ofList ⟨1, 1, 60000, 60000, 1, 1, 1, 1⟩
    [⟨0, .operation (.begin 10 ⟨7, 1⟩ 1)⟩, ⟨1, .operation (.begin 11 ⟨7, 2⟩ 1)⟩,
      ⟨i64Max, .operation (.complete ⟨7, 1⟩ 10 ⟨500, .failed, some "internal_error"⟩)⟩]

theorem tables_bounded_and_constrained_sample :
    sampleFull.reply 1 = .operation (.begin .full) ∧ (sampleFull.db 2).Bounded sampleFull.limits ∧
      (sampleFull.reply 2).error? ≠ none ∧
      (sampleFull.reply 2).error? ≠ some "constraint failed" := by
  have hvalid : ∀ n, (sampleFull.events n).command.Valid := by
    refine ofList_forall (P := fun e => e.command.Valid) trivial fun e he => ?_
    simp only [mem_cons, not_mem_nil, or_false] at he
    rcases he with rfl | rfl | rfl
    · exact trivial
    · exact trivial
    · refine ⟨by decide, ?_⟩
      rintro code ⟨⟩
      decide
  obtain ⟨hbounded, hreply⟩ := tables_bounded_and_constrained sampleFull hvalid 2
  refine ⟨by decide +kernel, hbounded, by decide +kernel, fun hfailed => ?_⟩
  have hmessage := hreply _ hfailed
  revert hmessage
  decide

/-- An outcome whose code begins with a NUL passes `validate` but not the check of its row: SQLite
counts no character in the code. -/
theorem valid_outcome_violates_check :
    let outcome : StoredOutcome := ⟨500, .failed, some "\x00"⟩
    let R := StoreRun.ofList ⟨8, 4, 60000, 60000, 8, 4, 8, 4⟩
      [⟨0, .operation (.begin 10 ⟨7, 1⟩ 1)⟩, ⟨1, .operation (.complete ⟨7, 1⟩ 10 outcome)⟩]
    outcome.validate = .ok () ∧ (R.reply 1).error? = some "constraint failed" := by
  decide +kernel

end StoreRun

end DufsRam
