import DufsRam.StateStore.UploadStep

/-!
# The life of an upload session in the store

A session is bound to its target, stage and length for as long as its row exists; its offset does
not fall, its stage is recorded once, and nothing about it changes after its outcome is known.
-/

namespace DufsRam

open Relational StoredUploadState UploadCommand UploadRow Table

/-! ### One step -/

/-- The later session is the earlier one, further on. -/
structure StoredUploadSession.Precedes (s s' : StoredUploadSession) : Prop where
  targetPath : s'.targetPath = s.targetPath
  stagePath : s'.stagePath = s.stagePath
  uploadLength : s'.uploadLength = s.uploadLength
  durableOffset : s.durableOffset ≤ s'.durableOffset
  stageIdentity : ∀ id, s.stageIdentity = some id → s'.stageIdentity = some id
  terminal : s.state.isTerminal = true → s'.state = s.state ∧
    s'.durableOffset = s.durableOffset ∧ s'.stageIdentity = s.stageIdentity ∧
    s'.targetRevision = s.targetRevision

namespace StoredUploadSession.Precedes

variable {s s' s'' : StoredUploadSession}

lemma refl (s : StoredUploadSession) : s.Precedes s :=
  ⟨rfl, rfl, rfl, le_rfl, fun _ h => h, fun _ => ⟨rfl, rfl, rfl, rfl⟩⟩

lemma trans (h : s.Precedes s') (h' : s'.Precedes s'') : s.Precedes s'' where
  targetPath := h'.targetPath.trans h.targetPath
  stagePath := h'.stagePath.trans h.stagePath
  uploadLength := h'.uploadLength.trans h.uploadLength
  durableOffset := h.durableOffset.trans h'.durableOffset
  stageIdentity id hid := h'.stageIdentity id (h.stageIdentity id hid)
  terminal hs := by
    obtain ⟨hst, hoff, hidn, hrev⟩ := h.terminal hs
    obtain ⟨hst', hoff', hidn', hrev'⟩ := h'.terminal (hst ▸ hs)
    exact ⟨hst'.trans hst, hoff'.trans hoff, hidn'.trans hidn, hrev'.trans hrev⟩

/-- A change of the state alone, before the outcome is known. -/
lemma setState {state : StoredUploadState} (h : s.state.isTerminal = false) :
    s.Precedes { s with state := state } :=
  ⟨rfl, rfl, rfl, le_rfl, fun _ h => h, fun hs => absurd hs (by simp [h])⟩

lemma of_merge (h : mergeUploadSession s s' = some s') : s.Precedes s' := by
  obtain ⟨-, ⟨-, htgt, hstg, hlen, hoff, hidn⟩, htrn, hrev⟩ :=
    mergeUploadSession_eq_some h
  refine ⟨htgt.symm, hstg.symm, hlen.symm, hoff, fun id hid => ?_, fun hs => ?_⟩
  · rcases hidn with hnone | hsame
    · cases hid.symm.trans hnone
    · exact hsame ▸ hid
  · have hst : s.state = s'.state := by
      by_contra hne
      rw [transitionAllowed, if_neg hne] at htrn
      cases hst : s.state <;> simp_all [isTerminal, mayBecome]
    rw [transitionAllowed, if_pos hst] at htrn
    rcases htrn with hopen | ⟨hoff, hidn⟩
    · simp [hs] at hopen
    · refine ⟨hst.symm, hoff.symm, hidn.symm, ?_⟩
      rcases hrev with hsame | ⟨-, hopen⟩ | haw
      · exact hsame.symm
      · simp [hs] at hopen
      · simp [haw, isTerminal] at hs

end StoredUploadSession.Precedes

lemma StoredUploadState.isTerminal_eq_not_ownsStage (s : StoredUploadState) :
    s.isTerminal = !s.ownsStage := by
  cases s <;> rfl

variable {now : TimeMs} {r : UploadRow}

/-- A row whose stage is owned is never deleted by a save. -/
lemma UploadRow.discardable_of_ownsStage
    (h : r.session.state.ownsStage = true) : r.discardable now = false := by
  unfold discardable
  cases hst : r.session.state <;> simp_all [ownsStage]

/-- A row that owns the stage of a session that is saved is the row of that session. -/
lemma Database.StageFree.key_eq {db : Database} {s : StoredUploadSession} {k : UploadSessionKey}
    (h : db.StageFree now s) (howns : s.state.ownsStage = true) (hrow : db.upload k = some r)
    (hrowns : r.session.state.ownsStage = true) (hstg : r.session.stagePath = s.stagePath) :
    k = s.key := by
  have htaken := h (by simp [isTerminal_eq_not_ownsStage, howns]) r
    (lookup_eq_some_iff.1 hrow).1 (discardable_of_ownsStage hrowns)
  have hkey : r.session.key = k := key_of_lookup hrow
  simpa [StoredUploadSession.stageTakenBy, hstg, hrowns, hkey] using htaken

namespace UploadStep

variable {e : StoreEvent} {db : Database} {k : UploadSessionKey} {row row' : Option UploadRow}
  {r' : UploadRow}

/-- A row that an event does not delete stays, and its session goes on. -/
lemma precedes (h : UploadStep e db k (some r) row) (hkept : e.deletesUpload r = false) :
    ∃ r', row = some r' ∧ r.session.Precedes r'.session := by
  cases h with
  | kept => exact ⟨r, rfl, .refl _⟩
  | inserted hcmd hkey hfree hrow =>
    have hdisc := hrow r rfl
    simp [StoreEvent.deletesUpload, hcmd, selects, hdisc] at hkept
  | updated hcmd hkey hfree hmerge => exact ⟨_, rfl, .of_merge hmerge⟩
  | rejected hcmd hst => exact ⟨_, rfl, .setState (by rw [hst]; rfl)⟩
  | deleted hdel => simp [hdel] at hkept
  | recovered hcmd =>
    refine ⟨_, rfl, ?_⟩
    rw [session_recover]
    split_ifs with hst
    · exact .setState (by rw [hst]; rfl)
    · exact .refl _

/-- A row that owns its stage owned it before, or is a session that was just saved. -/
lemma ownsStage (h : UploadStep e db k row (some r')) (howns : r'.session.state.ownsStage = true) :
    (∃ r, row = some r ∧ r.session.state.ownsStage = true ∧
      r.session.stagePath = r'.session.stagePath) ∨
    ∃ ttlMs, e.command = .upload (.save r'.session ttlMs) ∧ db.StageFree e.now r'.session := by
  cases h with
  | kept => exact .inl ⟨r', rfl, howns, rfl⟩
  | inserted hcmd _ hfree | updated hcmd _ hfree => exact .inr ⟨_, hcmd, hfree⟩
  | rejected => simp [ownsStage] at howns
  | @recovered r expiresAt _ =>
    rw [session_recover] at howns
    split_ifs at howns with hst
    · simp [ownsStage] at howns
    · refine .inl ⟨r, rfl, howns, ?_⟩
      rw [session_recover, if_neg hst]

end UploadStep

/-! ### Runs -/

namespace StoreRun

variable (R : StoreRun)

/-- The row of an upload session before the `n`-th event. -/
def upload (n : ℕ) (k : UploadSessionKey) : Option UploadRow := (R.db n).upload k

/-- The `n`-th event deletes the row that `k` has. -/
def UploadDeletedAt (n : ℕ) (k : UploadSessionKey) : Prop :=
  ∃ r, R.upload n k = some r ∧ (R.events n).deletesUpload r = true ∧ (R.reply n).error? = none

instance (n : ℕ) (k : UploadSessionKey) : Decidable (R.UploadDeletedAt n k) :=
  match h : R.upload n k with
  | none => isFalse (by simp [UploadDeletedAt, h])
  | some r => decidable_of_iff
    ((R.events n).deletesUpload r = true ∧ (R.reply n).error? = none)
    (by simp [UploadDeletedAt, h])

variable {R} {k : UploadSessionKey} {m n : ℕ} {r r' : UploadRow}

lemma uploadStep (n : ℕ) (k : UploadSessionKey) :
    UploadStep (R.events n) (R.db n) k (R.upload n k) (R.upload (n + 1) k) :=
  StoreEvent.exec_uploadStep R.limits (R.events n) (R.db n) k

lemma precedes_succ (hrow : R.upload n k = some r) (hkept : ¬ R.UploadDeletedAt n k) :
    ∃ r', R.upload (n + 1) k = some r' ∧ r.session.Precedes r'.session := by
  cases hfail : (R.reply n).error? with
  | some message =>
    refine ⟨r, ?_, .refl _⟩
    rw [upload, db_succ, StoreEvent.exec_of_failed hfail]
    exact hrow
  | none =>
    have hstep := R.uploadStep n k
    rw [hrow] at hstep
    refine hstep.precedes ?_
    by_contra hdel
    exact hkept ⟨r, hrow, by simpa using hdel, hfail⟩

lemma precedes (hmn : m ≤ n) (hrow : R.upload m k = some r)
    (hkept : ∀ i, m ≤ i → i < n → ¬ R.UploadDeletedAt i k) :
    ∃ r', R.upload n k = some r' ∧ r.session.Precedes r'.session := by
  induction n, hmn using Nat.le_induction with
  | base => exact ⟨r, hrow, .refl _⟩
  | succ n hmn ih =>
    obtain ⟨r₁, hrow₁, hprec⟩ := ih fun i hi hin => hkept i hi (Nat.lt_succ_of_lt hin)
    obtain ⟨r₂, hrow₂, hnext⟩ := precedes_succ hrow₁ (hkept n hmn (Nat.lt_succ_self n))
    exact ⟨r₂, hrow₂, hprec.trans hnext⟩

/-- No two rows own one stage. -/
lemma stages_distinct (n : ℕ) : ∀ k k' r r', R.upload n k = some r → R.upload n k' = some r' →
    r.session.state.ownsStage = true → r'.session.state.ownsStage = true →
    r.session.stagePath = r'.session.stagePath → k = k' := by
  induction n with
  | zero =>
    intro k k' r r' hr
    simp [upload, db, storeMachine, Transition.Machine.run, Database.upload, Database.empty] at hr
  | succ n ih =>
    intro k k' r r' hr hr' howns howns' hstg
    have hkey : r.session.key = k := key_of_lookup hr
    have hkey' : r'.session.key = k' := key_of_lookup hr'
    have hstep := R.uploadStep n k
    have hstep' := R.uploadStep n k'
    rw [hr] at hstep
    rw [hr'] at hstep'
    -- each of the two rows was there before or is the session that the event saves
    obtain ⟨r₀, hr₀, howns₀, hstg₀⟩ | ⟨ttlMs, hcmd, hfree⟩ := hstep.ownsStage howns
    · obtain ⟨r₀', hr₀', howns₀', hstg₀'⟩ | ⟨ttlMs, hcmd, hfree⟩ := hstep'.ownsStage howns'
      · exact ih k k' r₀ r₀' hr₀ hr₀' howns₀ howns₀' (by rw [hstg₀, hstg₀', hstg])
      · exact hkey' ▸ hfree.key_eq howns' hr₀ howns₀ (hstg₀.trans hstg)
    · obtain ⟨r₀', hr₀', howns₀', hstg₀'⟩ | ⟨ttlMs', hcmd', -⟩ := hstep'.ownsStage howns'
      · exact hkey ▸ (hfree.key_eq howns hr₀' howns₀' (hstg₀'.trans hstg.symm)).symm
      · have hsave := hcmd.symm.trans hcmd'
        simp only [StoreCommand.upload.injEq, save.injEq] at hsave
        rw [← hkey, ← hkey', hsave.1]

/-- A row that is deleted is gone, or the same save inserted its key anew. -/
lemma deleted_row (h : R.UploadDeletedAt n k) : R.upload (n + 1) k = none ∨
    ∃ s ttlMs, (R.events n).command = .upload (.save s ttlMs) ∧ s.key = k := by
  obtain ⟨r, hrow, hdel, hrep⟩ := h
  unfold StoreEvent.deletesUpload at hdel
  rw [upload, db_succ]
  rw [reply] at hrep
  cases hcmd : (R.events n).command with
  | operation | purge => simp [hcmd] at hdel
  | upload command =>
    simp only [hcmd] at hdel
    simp only [StoreEvent.exec, hcmd] at hrep ⊢
    cases hres : command.exec R.limits (R.events n).now (R.db n) with
    | error message => simp [hres, answer, StoreReply.error?] at hrep
    | ok result =>
      refine (exec_selected hres hrow hdel).imp_right ?_
      rintro ⟨s, ttlMs, rfl, hkey⟩
      exact ⟨s, ttlMs, rfl, hkey⟩

/-! ### The life of a session -/

/-- From the insertion of a key to its deletion its binding stays, its offset does not fall, its
stage identity is set once and an outcome is final; a row stays until a command deletes it, and a
deleted row is gone or replaced by the save that deleted it. A row that may be published has all its
bytes; a commit in flight is deleted only by a command that names its very row, and never offered
for cleanup; and no two rows own one stage. -/
theorem upload_sessions_kept (R : StoreRun) : (∀ k m n r, m ≤ n → R.upload m k = some r →
      (∀ i, m ≤ i → i < n → ¬ R.UploadDeletedAt i k) →
      ∃ r', R.upload n k = some r' ∧ r.session.Precedes r'.session) ∧
    (∀ k n, R.UploadDeletedAt n k → R.upload (n + 1) k = none ∨
      ∃ s ttlMs, (R.events n).command = .upload (.save s ttlMs) ∧ s.key = k) ∧
    (∀ k n r, R.upload n k = some r → r.session.state.fullyDurable = true →
      r.session.durableOffset = r.session.uploadLength) ∧
    (∀ k n r, R.upload n k = some r → r.session.state = .commitStarted → R.UploadDeletedAt n k →
      (R.events n).command = .upload (.removeIfMatches r.session) ∨
      (R.events n).command = .upload (.removeExpiredIfMatches ⟨r.session, r.expiresAtMs⟩)) ∧
    (∀ n now after limit found, expiredUploadSessions now after limit (R.db n) = .ok found →
      ∀ x ∈ found, x.session.state ≠ .commitStarted) ∧
    (∀ n k k' r r', R.upload n k = some r → R.upload n k' = some r' →
      r.session.state.isTerminal = false → r'.session.state.isTerminal = false →
      r.session.stagePath = r'.session.stagePath → k = k') := by
  refine ⟨fun k m n r => precedes, fun k n => deleted_row, ?_, ?_, ?_, ?_⟩
  · intro k n r hrow hstate
    have hcheck := check_of_lookup hrow
    simp only [uploadSchema_check, check, Bool.and_eq_true, Bool.or_eq_true, hstate,
      Bool.not_true, Bool.false_eq_true, false_or, decide_eq_true_eq] at hcheck
    exact hcheck.2
  · rintro k n r hrow hstate ⟨r', hrow', hdeletes, -⟩
    cases hrow.symm.trans hrow'
    cases hcommand : (R.events n).command with
    | operation | purge => simp [StoreEvent.deletesUpload, hcommand] at hdeletes
    | upload command =>
      simp only [StoreEvent.deletesUpload, hcommand] at hdeletes
      cases command with
      | save s ttlMs =>
        have howns : r.session.state.ownsStage = true := by rw [hstate]; rfl
        simp [selects, discardable_of_ownsStage howns] at hdeletes
      | reject key targetPath stagePath ttlMs => simp [selects] at hdeletes
      | removeIfMatches expected =>
        simp only [selects, decide_eq_true_eq] at hdeletes
        exact .inl (by rw [hdeletes])
      | removeExpiredIfMatches expected =>
        simp only [selects, Bool.and_eq_true, decide_eq_true_eq] at hdeletes
        exact .inr (by rw [hdeletes.1.1, hdeletes.1.2])
  · intro n now after limit found hfound
    exact state_of_mem_expiredUploadSessions hfound
  · intro n k k' r r' hrow hrow' hopen hopen' hstage
    rw [isTerminal_eq_not_ownsStage, Bool.not_eq_false'] at hopen hopen'
    exact stages_distinct n k k' r r' hrow hrow' hopen hopen' hstage

/-- A session of four bytes in one of its states. -/
def sampleSession (state : StoredUploadState) (durableOffset : ℕ) : StoredUploadSession where
  key := ⟨7, 1⟩
  targetPath := ["a"]
  stagePath := ["stages", "a"]
  uploadLength := 4
  durableOffset := durableOffset
  state := state
  stageIdentity := some ⟨1, 2⟩
  targetRevision := none

/-- An upload that is received in two parts and committed, and deleted by the save of another one
after its expiry. -/
def sampleUploads : StoreRun :=
  .ofList ⟨8, 4, 60000, 60000, 8, 4, 8, 4⟩ [⟨0, .upload (.save (sampleSession .running 0) 100)⟩,
      ⟨1, .upload (.save (sampleSession .running 2) 100)⟩,
      ⟨2, .upload (.save (sampleSession .commitStarted 4) 100)⟩,
      ⟨3, .upload (.save (sampleSession .committed 4) 100)⟩,
      ⟨200, .upload (.save { sampleSession .running 0 with key := ⟨7, 2⟩ } 100)⟩]

theorem upload_sessions_kept_sample :
    (∃ r r', sampleUploads.upload 1 ⟨7, 1⟩ = some r ∧ sampleUploads.upload 4 ⟨7, 1⟩ = some r' ∧
      r.session.Precedes r'.session ∧ r'.session.durableOffset = r'.session.uploadLength) ∧
    sampleUploads.UploadDeletedAt 4 ⟨7, 1⟩ ∧ (sampleUploads.upload 5 ⟨7, 1⟩ = none ∨ ∃ s ttlMs,
      (sampleUploads.events 4).command = .upload (.save s ttlMs) ∧ s.key = ⟨7, 1⟩) := by
  obtain ⟨hprecedes, hdeleted, hdurable, -⟩ := upload_sessions_kept sampleUploads
  have hrow : sampleUploads.upload 1 ⟨7, 1⟩ = some ⟨sampleSession .running 0, 0, 100⟩ := by
    decide +kernel
  have hkept : ∀ i < 4, ¬ sampleUploads.UploadDeletedAt i ⟨7, 1⟩ := by decide +kernel
  have hdeletes : sampleUploads.UploadDeletedAt 4 ⟨7, 1⟩ := by decide +kernel
  obtain ⟨r', hrow', hr'⟩ :=
    hprecedes ⟨7, 1⟩ 1 4 _ (by decide) hrow fun i _ hi => hkept i hi
  have hstate : r'.session.state.fullyDurable = true := by
    have : sampleUploads.upload 4 ⟨7, 1⟩ = some ⟨sampleSession .committed 4, 3, 103⟩ := by
      decide +kernel
    cases this.symm.trans hrow'
    rfl
  exact ⟨⟨_, r', hrow, hrow', hr', hdurable _ _ _ hrow' hstate⟩, hdeletes, hdeleted _ _ hdeletes⟩

/-- The removal of an expired session does not look at its state: it deletes the row of a commit in
flight if it is asked to. -/
theorem commitStarted_removed_after_expiry :
    let R := StoreRun.ofList ⟨8, 4, 60000, 60000, 8, 4, 8, 4⟩
      [⟨0, .upload (.save (sampleSession .commitStarted 4) 100)⟩,
        ⟨100, .upload (.removeExpiredIfMatches ⟨sampleSession .commitStarted 4, 100⟩)⟩]
    (∃ r, R.upload 1 ⟨7, 1⟩ = some r ∧ r.session.validate = .ok () ∧
      r.session.state = .commitStarted ∧ r.expiresAtMs ≤ (R.events 1).now) ∧
    R.reply 1 = .changed true ∧ R.upload 2 ⟨7, 1⟩ = none := by
  refine ⟨⟨⟨sampleSession .commitStarted 4, 0, 100⟩, ?_, ?_, rfl, ?_⟩, ?_, ?_⟩ <;> decide +kernel

end StoreRun

end DufsRam
