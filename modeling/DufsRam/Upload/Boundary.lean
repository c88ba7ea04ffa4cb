import DufsRam.Upload.Reading

/-!
# The mutation boundary of an upload

Before `begin_upload_mutation` an upload only reads. The one exception is a resumed upload whose
deadline passes between the two reads of the clock in one stop of its preparation: it then
finishes as a timed out upload without having crossed the boundary.
-/

namespace DufsRam

open Crash UploadCheckpoint

/-- What an upload changes: the state database, the stage path, the staged files, and the target,
which it replaces only by a publication. -/
structure Tracked where
  db : Database
  stage : Option StoredFileIdentity
  inodes : StoredFileIdentity → Option Inode
  published : List Publication

def World.tracked (w : World) : Tracked := ⟨w.db, w.stage, w.inodes, w.published⟩

/-- Nothing has happened since `w₀`. -/
structure Before (w₀ w : World) : Prop where
  outside : ¬ w.Crossed
  tracked : w.tracked = w₀.tracked

/-- Started before the boundary, the program only reads. -/
abbrev Ahead {α : Type} (w₀ : World) (V : α → Prop) (p : Io α) : Prop :=
  Keeps (Before w₀) V (fun _ => True) p

/-- A program whose result does not matter here. -/
abbrev AheadAny {α : Type} (w₀ : World) (p : Io α) : Prop := Ahead w₀ (fun _ => True) p

variable {site : Site} {r : UploadRequest} {α β : Type} {w₀ w : World} {p : Io α} {V : α → Prop}
  {res : UploadResponse} {e : Failure} {message : String} {file : StageFile}
  {existing : Option UploadCheckpoint} {script : List Answer} {off : ℕ} {awaiting : Bool}
  {reserved : Option SpaceLease}

/-! ### Reading -/

lemma ahead_of_keeps {X : Exit → Prop} (h : Keeps (Before w₀) V X p) : Ahead w₀ V p :=
  h.mono (fun _ hV => hV) fun _ _ => trivial

lemma Ahead.of_reads (h : Reads (Before w₀) False r V p) : Ahead w₀ V p :=
  h.mono (fun _ hV => hV) fun _ _ => trivial

lemma reply_ahead : Ahead w₀ V (reply res : Io α) :=
  .throw trivial

lemma fail_ahead : Ahead w₀ V (fail e : Io α) := .throw trivial

lemma fsStep_ahead : AheadAny w₀ fsStep := ahead_of_keeps fsStep_keeps

lemma loadSession_ahead : AheadAny w₀ (loadSession site) := by
  refine .ask_bind fun a => ?_
  cases a.error with
  | some kind => exact fail_ahead
  | none =>
    refine .get_bind fun w hw => ?_
    split
    · exact fail_ahead
    · next x db hload =>
      have hdb : db = w₀.db := by
        refine Eq.trans ?_ (congrArg Tracked.db hw.tracked)
        cases hses : loadUploadSession site.key w.db with
        | error message => simp [hses, bind, Except.bind] at hload
        | ok session =>
          simp only [hses, bind, Except.bind, pure, Except.pure, Except.ok.injEq,
            Prod.mk.injEq] at hload
          exact hload.2.symm
      refine .modify_bind (fun w hw => ⟨hw.outside, ?_⟩) (.pure trivial)
      have hdb' : w₀.db = w.db := (congrArg Tracked.db hw.tracked).symm
      rw [← hw.tracked, hdb, hdb']

lemma before_meddle : Unmeddled (Before w₀) := by
  intro a w h
  refine ⟨fun hcr => h.outside ((mutation_meddle a w).symm.trans hcr), ?_⟩
  rw [← h.tracked]
  unfold World.meddle
  split <;> rfl

/-- A descriptor that has nothing to write. -/
def StageFile.Idle (file : StageFile) : Prop := file.queued = []

lemma StageFile.Idle.land (h : file.Idle) (n : ℕ) (w : World) : file.land n w = w := by
  have hid : ∀ i : Inode, i.mapData (.writeAt 0 file.pos []) = i := fun _ => rfl
  have hmap : (w.inodes file.identity).map (Inode.mapData (.writeAt 0 file.pos [])) =
      w.inodes file.identity := by
    cases w.inodes file.identity with
    | none => rfl
    | some i => exact congrArg some (hid i)
  rw [StageFile.land, show file.queued = [] from h, List.take_nil, World.mapData, World.mapInode,
    hmap, Function.update_eq_self]

lemma metadata_ahead (h : file.Idle) : Ahead w₀ (fun found => found.1.Idle) file.metadata := by
  refine fsStep_ahead.bind fun a _ => .modify_bind (fun w hw => ?_) (.get_bind fun w _ => ?_)
  · rwa [h.land]
  · split
    · refine .pure ?_
      simp [StageFile.Idle, StageFile.advance, show file.queued = [] from h]
    · exact fail_ahead

lemma openStage_ahead : Ahead w₀ StageFile.Idle openStage := by
  refine fsStep_ahead.bind fun _ _ => .get_bind fun w _ => ?_
  split
  · exact .pure rfl
  · exact fail_ahead

/-! ### Preparation before the boundary -/

lemma validResumableStage_ahead {expected : Option StoredFileIdentity} :
    AheadAny w₀ (validResumableStage off expected) := by
  unfold validResumableStage
  split
  · exact .pure trivial
  · refine .attempt_bind openStage_ahead (fun file hfile => ?_) fun e _ => ?_
    · exact (metadata_ahead hfile).bind fun _ _ => .pure trivial
    · dsimp only
      split
      · exact .pure trivial
      · exact .throw trivial

lemma lookupRecord_ahead : AheadAny w₀ (lookupRecord site) := by
  have hlook : AheadAny w₀ (lookup site) := by
    refine loadSession_ahead.bind fun session _ => ?_
    split
    · unfold classifyStoredSession
      split
      · exact .pure trivial
      · split
        · exact validResumableStage_ahead.bind fun _ _ => .pure trivial
        · exact .pure trivial
    · exact .pure trivial
  refine hlook.bind fun found _ => ?_
  cases found with
  | found | notSeen => exact .pure trivial
  | foreignOwner => exact reply_ahead

lemma openResumableStage_ahead {len : ℕ} {expected : UploadRecordState} :
    Ahead w₀ (fun opened => ∀ file, opened = some file → file.Idle)
      (openResumableStage site len off expected) := by
  refine loadSession_ahead.bind fun session _ => ?_
  split
  · exact .pure nofun
  · split
    · split
      · exact .pure nofun
      · refine .attempt_bind openStage_ahead (fun file hfile => ?_) fun e _ => ?_
        · refine (metadata_ahead hfile).bind fun found hfnd => .pure ?_
          split
          · rintro _ ⟨⟩
            exact hfnd
          · nofun
        · dsimp only
          split
          · exact .pure nofun
          · exact .throw trivial
    · exact .pure nofun

/-! ### Crossing the boundary -/

/-- The request has crossed the boundary, or nothing has happened. -/
def Side (w₀ w : World) : Prop := w.Crossed ∨ Before w₀ w

/-- How a preparation may end early. -/
def Departs (w₀ : World) (e : Exit) (w : World) : Prop := (w.Crossed ∧ e.Candid) ∨ Before w₀ w

/-- Started before the boundary, the program changes nothing until it has crossed it. -/
def Starts (w₀ : World) (Q : α → World → Prop) (p : Io α) : Prop :=
  ∀ script w, Before w₀ w → (p script w).Ends Q (Departs w₀) (Side w₀)

/-- Started across the boundary, the program stays there and ends candidly. -/
abbrev Past (r : UploadRequest) (V : α → Prop) (p : Io α) : Prop := Settles False true r V p

/-- A program whose result does not matter here. -/
abbrev PastAny (r : UploadRequest) (p : Io α) : Prop := Past r (fun _ => True) p

lemma Past.ends (h : Past r V p) (hw : w.Crossed) :
    (p script w).Ends (fun a w' => w'.Crossed ∧ V a) (Departs w₀) (Side w₀) := by
  refine (h script w fun _ => hw).mono (fun _ _ h => ⟨h.1 rfl, h.2⟩)
    (fun e _ h => .inl ⟨h.1 rfl, ?_⟩) fun _ h => .inl (h rfl)
  cases e with
  | reply res => exact h.2.candid rfl
  | error e => trivial

lemma Ahead.starts (h : Ahead w₀ V p) : Starts w₀ (fun a w' => Before w₀ w' ∧ V a) p :=
  fun script w hw =>
    (h script w hw).mono (fun _ _ h => h) (fun _ _ h => .inr h.1) fun _ h => .inr h

lemma Starts.bind {Q : β → World → Prop} {f : α → Io β}
    (hp : Ahead w₀ V p) (hf : ∀ a, V a → Starts w₀ Q (f a)) : Starts w₀ Q (p >>= f) :=
  fun script w hw => (hp.starts script w hw).bind fun a rest w' _ h => hf a h.2 rest w' h.1

/-- The boundary is crossed, or it was closed by the deadline and the request ends. -/
lemma beginUploadMutationOrReject_starts :
    Starts w₀ (fun _ w' => w'.Crossed) (beginUploadMutationOrReject r message) := by
  intro script w hw
  cases script with
  | nil => exact .inr hw
  | cons a rest =>
    -- whether the deadline came first decides what the compare-exchange finds
    cases hno : a.no <;> cases hm : w.mutation <;>
      simp_all [beginUploadMutationOrReject, bind, Prog.ask, Prog.when, Prog.modify, Prog.get,
        reply, Prog.throw, Outcome.Ends, Departs, World.Crossed, pure,
        MutationProgress.beginUploadMutation, MutationProgress.cancelUploadBeforeMutation]
    all_goals exact ⟨nofun, hw.tracked⟩

/-- A fresh upload that has its stage has crossed the boundary. -/
lemma stageFresh_starts : Starts w₀ (fun _ w' => w'.Crossed) (stageFresh site r) := by
  refine .bind (Ahead.of_reads (r := r) reserveFresh_reads) fun lease _ => ?_
  refine .bind (Ahead.of_reads (deadlineBeforeMutation_reads nofun)) fun _ _ => ?_
  intro script w hw
  refine (beginUploadMutationOrReject_starts script w hw).bind fun _ rest w' _ hcr => ?_
  have hcre : PastAny r (do
      let file ← createStage site r
      trackCreated file
      recordFreshStage site r file
      pure (file, lease) : Io (StageFile × SpaceLease)) :=
    createStage_settles.bind fun _ _ => trackCreated_settles.bind fun _ _ =>
      (recordFreshStage_settles nofun).bind fun _ _ => .pure trivial
  exact (hcre.ends hcr).mono (fun _ _ h => h.1) (fun _ _ h => h) fun _ h => h

/-- A change behind the boundary, if it is needed. -/
lemma when_begin_starts {c : Prop} [Decidable c] {p : Io Unit} (hp : PastAny r p) (hw : Side w₀ w) :
    ((Prog.when c (do beginUploadMutationOrReject r message; p) : Io Unit) script w).Ends
      (fun _ => Side w₀) (Departs w₀) (Side w₀) := by
  unfold Prog.when
  split
  · rcases hw with hcr | hbef
    · have hboth : PastAny r (do beginUploadMutationOrReject r message; p) :=
        (beginUploadMutationOrReject_settles nofun).bind fun _ _ => hp
      exact (hboth.ends hcr).mono (fun _ _ h => .inl h.1) (fun _ _ h => h) fun _ h => h
    · refine (beginUploadMutationOrReject_starts script w hbef).bind fun _ rest w' _ hcr => ?_
      exact (hp.ends hcr).mono (fun _ _ h => .inl h.1) (fun _ _ h => h) fun _ h => h
  · exact hw

lemma stageResumed_starts {cp : UploadCheckpoint} :
    Starts w₀ (fun _ => Side w₀) (stageResumed site r cp) := by
  refine .bind openResumableStage_ahead fun opened hopn => ?_
  cases opened with
  | none => exact fun script w hw => .inr hw
  | some file =>
    refine .bind (metadata_ahead (hopn file rfl)) fun found hfnd => ?_
    refine .bind (V := fun _ => True) (fsStep_ahead.bind fun _ _ => .pure trivial) fun file _ => ?_
    refine .bind (Ahead.of_reads (deadlineBeforeMutation_reads nofun)) fun _ _ => ?_
    intro script w hw
    refine (when_begin_starts (StageFile.setLen_calls.settles.bind fun _ _ => .pure trivial)
      (.inr hw)).bind fun _ rest w' _ hside => ?_
    exact (when_begin_starts persistCheckpointInner_calls.settles hside).bind
      fun _ rest w'' _ hside => hside

/-! ### The preparation as a whole -/

/-- An upload that has not crossed the boundary when its stage is open is a resumed one. -/
lemma prepareStage_starts :
    Starts w₀ (fun _ w' => w'.Crossed ∨ Before w₀ w' ∧ r.mode.isResume = true)
      (prepareStage site r) := by
  have hlate : ∀ {message : String}, AheadAny w₀ (deadlineBeforeMutation r message) :=
    Ahead.of_reads (deadlineBeforeMutation_reads nofun)
  refine .bind hlate fun _ _ => .bind lookupRecord_ahead fun existing _ => ?_
  refine .bind (Ahead.of_reads (checkExisting_reads before_meddle nofun)) fun _ _ => ?_
  refine .bind (.when fun _ => Ahead.of_reads (trackResumed_reads nofun)) fun _ _ => ?_
  refine .bind (Ahead.of_reads (chooseTarget_reads before_meddle nofun)) fun target _ => .bind hlate
    fun _ _ => .bind (Ahead.of_reads (sessionCheckpoint_reads nofun)) fun cp hcp => ?_
  obtain ⟨hsome, hfits⟩ := hcp
  refine .bind hlate fun _ _ =>
    .bind (Ahead.of_reads (checkCheckpoint_reads hsome hfits)) fun _ _ => ?_
  refine .bind (Ahead.of_reads (checkContentLength_reads nofun hsome)) fun _ _ => ?_
  intro script w hw
  have hopen : (openStageFor site r cp script w).Ends
      (fun _ w' => w'.Crossed ∨ Before w₀ w' ∧ r.mode.isResume = true) (Departs w₀) (Side w₀) := by
    cases cp with
    | none =>
      exact (stageFresh_starts script w hw).bind fun _ rest w' _ hcr => .inl hcr
    | some cp =>
      refine (stageResumed_starts script w hw).bind fun _ rest w' _ hside => ?_
      exact hside.imp_right fun hbef => ⟨hbef, hsome.symm⟩
  exact hopen.bind fun _ rest w' _ h => h

/-! ### The deadline between two reads of the clock -/

/-- A resumed upload that has not crossed the boundary reads the clock twice, and the deadline
passes between the two reads. -/
def PassesBetween (r : UploadRequest) (script : List Answer) (w : World) : Prop :=
  r.mode.isResume = true ∧ w.mutation.outcomeCanBeUnknown = false ∧
    ∃ first second rest, script = first :: second :: rest ∧ first.no = false ∧ second.no = true

/-- The two stops where `prepare_upload` reads the clock twice. -/
def SlipsAtStop (site : Site) (r : UploadRequest) (script : List Answer) (w : World) : Prop :=
  (∃ x rest w', prepareStage site r script w = .done x rest w' ∧ PassesBetween r rest w') ∨
  (∃ x lease rest rest' w' w'', prepareStage site r script w = .done x rest w' ∧
    confirmTransfer site r (x.2.1.map state) x.2.2.1 x.2.2.2.1 rest w' =
      .done lease rest' w'' ∧ PassesBetween r rest' w'')

lemma stopWhenLate_ends (hrsm : r.mode.isResume = true) (hstd : ¬ PassesBetween r script w)
    (hw : Before w₀ w) :
    (stopWhenLate site r file message script w).Ends (fun _ => Before w₀) (Departs w₀)
      (Side w₀) := by
  have hprog : w.mutation.outcomeCanBeUnknown = false :=
    decide_eq_false (show w.mutation ≠ .detachedCommit from hw.outside)
  cases script with
  | nil => exact .inr hw
  | cons first rest =>
    cases hfst : first.no with
    | true =>
      have hstop : stopWhenLate site r file message (first :: rest) w =
          .raised (.reply (r.notStarted .requestTimeout .requestTimeout message .retry)) rest
            w := by
        simp [stopWhenLate, deadlinePassed, bind, Prog.ask, Prog.get, Prog.when, reply, Prog.throw,
          pure, hfst, hrsm, hprog]
      rw [hstop]
      exact .inr hw
    | false =>
      cases rest with
      | nil =>
        have hstop : stopWhenLate site r file message [first] w = .crashed w := by
          simp [stopWhenLate, deadlinePassed, bind, Prog.ask, Prog.get, Prog.when, pure, hfst]
        rw [hstop]
        exact .inr hw
      | cons second rest =>
        have hsnd : second.no = false := by
          rw [← Bool.not_eq_true]
          exact fun h => hstd ⟨hrsm, hprog, first, second, rest, rfl, hfst, h⟩
        have hstop : stopWhenLate site r file message (first :: second :: rest) w =
            .done () rest w := by
          simp [stopWhenLate, deadlinePassed, bind, Prog.ask, Prog.get, Prog.when, pure, hfst, hsnd]
        rw [hstop]
        exact hw

lemma reserveTransfer_ahead
    (hrsm : r.mode.isResume = true) : AheadAny w₀ (reserveTransfer site r awaiting reserved) := by
  refine .bind (U := fun _ => True) ?_ fun lease _ => ?_
  · split
    · exact .pure trivial
    · exact ahead_of_keeps reserveAllocated_keeps
  · split
    · exact .pure trivial
    · split
      · exact reply_ahead
      · refine .bind (.when fun hfr => ?_) fun _ _ => reply_ahead
        cases hrsm.symm.trans hfr

lemma confirmSpace_starts : Starts w₀ (fun _ => Before w₀) (confirmSpace site r awaiting file) := by
  have hfail : Starts w₀ (fun _ => Before w₀) (refuseUnconfirmed site r awaiting file) := by
    unfold refuseUnconfirmed
    intro script w hw
    split
    · exact .inr hw
    · refine (beginUploadMutationOrReject_starts script w hw).bind fun _ rest w' _ hcr => ?_
      exact (Past.ends (finishPrecommitSpaceFailure_settles nofun) hcr).bind
        fun res rest w'' _ h => .inl ⟨h.1, h.2.candid rfl⟩
  have hatt : Ahead w₀ (fun _ => True) reservedSpaceIsAvailable.attempt :=
    reservedSpaceIsAvailable_keeps.attempt (fun _ _ => trivial) fun _ _ => trivial
  refine .bind hatt fun avail _ => ?_
  split
  · exact fun script w hw => hw
  · exact hfail
  · exact hfail

/-- Without such a slip, a resumed upload changes nothing before it has crossed the boundary. -/
lemma admitTransfer_ends {state : Option UploadRecordState}
    (hrsm : r.mode.isResume = true) (hfst : ¬ PassesBetween r script w)
    (hsnd : ∀ lease rest w', confirmTransfer site r state file reserved script w =
      .done lease rest w' → ¬ PassesBetween r rest w') (hw : Before w₀ w) :
    (admitTransfer site r state file reserved script w).Ends (fun _ w' => w'.Crossed)
      (Departs w₀) (Side w₀) := by
  have hcfm : (confirmTransfer site r state file reserved script w).Ends (fun _ => Before w₀)
      (Departs w₀) (Side w₀) := by
    refine (stopWhenLate_ends hrsm hfst hw).bind fun _ rest w₁ _ hw₁ => ?_
    refine ((reserveTransfer_ahead hrsm).starts rest w₁ hw₁).bind fun _ rest w₂ _ hw₂ => ?_
    exact (confirmSpace_starts rest w₂ hw₂.1).bind fun _ rest w₃ _ hw₃ => hw₃
  refine hcfm.bind fun lease rest w₁ hrun hw₁ => ?_
  refine (stopWhenLate_ends hrsm (hsnd lease rest w₁ hrun) hw₁).bind fun _ rest w₂ _ hw₂ => ?_
  exact (beginUploadMutationOrReject_starts rest w₂ hw₂).bind fun _ rest w₃ _ hcr => hcr

lemma prepareUpload_ends (hstd : ¬ SlipsAtStop site r script w) (hw : Before w₀ w) :
    (prepareUpload site r script w).Ends (fun _ w' => w'.Crossed) (Departs w₀) (Side w₀) := by
  refine (prepareStage_starts script w hw).bind fun x rest w₁ hrun hw₁ => ?_
  have hadmit : (admitTransfer site r (x.2.1.map state) x.2.2.1 x.2.2.2.1
      rest w₁).Ends (fun _ w' => w'.Crossed) (Departs w₀) (Side w₀) := by
    rcases hw₁ with hcr | ⟨hbef, hrsm⟩
    · exact (Past.ends (admitTransfer_settles nofun nofun) hcr).mono (fun _ _ h => h.1)
        (fun _ _ h => h) fun _ h => h
    · refine admitTransfer_ends hrsm (fun h => hstd (.inl ⟨x, rest, w₁, hrun, h⟩)) ?_ hbef
      intro lease rest' w₂ hcfm h
      exact hstd (.inr ⟨x, lease, rest, rest', w₁, w₂, hrun, hcfm, h⟩)
  exact hadmit.bind fun _ rest w₂ _ hcr => hcr

lemma candid_uploadRecordStoreProblem {length off : Option ℕ}
    (h : uploadRecordStoreProblem ⟨.unknown, length, off⟩ e = some res) : res.Candid := by
  cases e with
  | io | other => cases h
  | dispatch =>
    cases h
    exact candid_problem nofun nofun
  | record error =>
    cases error with
    | conflict | full =>
      cases h
      exact candid_problem nofun nofun

/-- **The boundary.** Without a slip, an upload has crossed the boundary or has changed nothing,
wherever it stands; across the boundary its response is candid. -/
theorem handleUpload_ends (hstd : ¬ SlipsAtStop site r script w) (hw : ¬ w.Crossed) :
    (handleUpload site r script w).Ends (fun res w' => w'.Crossed ∧ res.Candid ∨ Before w w')
      (fun e w' => (∃ f, e = .error f) ∧ Side w w') (Side w) := by
  have hproc : (processUpload site r script w).Ends
      (fun res w' => w'.Crossed ∧ res.Candid) (Departs w) (Side w) := by
    refine (prepareUpload_ends hstd ⟨hw, rfl⟩).bind fun t rest w₁ _ hcr => ?_
    exact (Past.ends (transferUploadBody_settles nofun nofun) hcr).mono
      (fun _ _ h => ⟨h.1, h.2.candid rfl⟩) (fun _ _ h => h) fun _ h => h
  have hatt : ((processUpload site r).attempt script w).Ends
      (fun x w' => (w'.Crossed ∧ (∀ res, x = .ok res → res.Candid) ∧
        ∀ res, x = .error (.reply res) → res.Candid) ∨ Before w w')
      (fun e w' => (∃ f, e = .error f) ∧ Side w w') (Side w) := by
    refine hproc.attempt (fun res w' h => .inl ⟨h.1, ?_, ?_⟩) fun e w' h => ?_
    · rintro _ ⟨⟩
      exact h.2
    · rintro _ ⟨⟩
    · refine h.imp_left fun h => ⟨h.1, ?_, ?_⟩
      · rintro _ ⟨⟩
      · rintro _ ⟨⟩
        exact h.2
  refine hatt.bind fun x rest w₁ _ hw₁ => ?_
  cases x with
  | ok res => exact hw₁.imp_left fun h => ⟨h.1, h.2.1 res rfl⟩
  | error e =>
    cases e with
    | reply res => exact hw₁.imp_left fun h => ⟨h.1, h.2.2 res rfl⟩
    | error e =>
      dsimp only
      cases hproblem :
        uploadRecordStoreProblem ⟨.unknown, some r.uploadLength, r.mode.offset⟩ e with
      | some res => exact hw₁.imp_left fun h => ⟨h.1, candid_uploadRecordStoreProblem hproblem⟩
      | none => exact ⟨⟨e, rfl⟩, hw₁.imp_left fun h => h.1⟩

end DufsRam
