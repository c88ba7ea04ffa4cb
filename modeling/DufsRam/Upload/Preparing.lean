import DufsRam.Upload.Handling
import DufsRam.Upload.Prepare

/-!
# What the preparation of an upload ensures

The checks before the first byte leave the session as it is; those that end the request answer
honestly. What they hand on is a descriptor that is bound to the row of the session.
-/

namespace DufsRam

open Crash Session Ensures StoredUploadState UploadResponse UploadRequest

variable {site : Site} {r : UploadRequest} {w w' : World} {s s' : Session} {file : StageFile}
  {existing checkpoint : Option UploadCheckpoint} {π : Protocol Session} {row : StoredUploadSession}
  {code : ErrorCode} {status : StatusCode} {message detail : String}
  {inspection : UploadTargetInspection} {k : ℕ} {recovery : RecoveryAdvice} {awaiting : Bool}
  {n : Inode} {expected : UploadRecordState} {reserved : Option SpaceLease}

/-! ### The record of the session -/

lemma validResumableStage_runs {expected : Option StoredFileIdentity}
    (h : Quiet s (w.session site)) :
    RunsIn site π (validResumableStage k expected) (fun _ => Quiet s) (Fails (Quiet s)) w := by
  cases expected with
  | none => exact .pure h
  | some identity =>
    refine attempt_bind (openStage_runs h) (fun file w hopn => ?_) fun e w he => ?_
    · obtain ⟨hq, id, -, rfl⟩ := hopn
      exact (metadata_idle_runs hq rfl).bind fun _ _ h => .pure h.1
    · dsimp only
      split
      · exact .pure he.2
      · exact .throw he

/-- What a lookup tells of the row. -/
def Session.Shows (s : Session) : UploadRecordLookup → Prop
  | .found c => ∃ row, s.row = some row ∧ c = uploadCheckpoint row
  | .notSeen => s.Running
  | .foreignOwner => ∃ row, s.row = some row

lemma classifyStoredSession_runs (hπ : ∀ s, π.Inv s → s.Inv site) (h : Quiet s (w.session site))
    (hrow : s.row = some row) :
    RunsIn site π (classifyStoredSession site row) (fun x s' => Quiet s s' ∧ s.Shows x)
      (Fails (Quiet s)) w := by
  unfold classifyStoredSession
  split
  case isTrue => exact .pure ⟨h, row, hrow⟩
  case isFalse =>
    split
    case isFalse => exact .pure ⟨h, row, hrow, rfl⟩
    case isTrue hpart =>
      refine .with_inv fun hinv => ?_
      -- a retained row is complete, so only a running one can be missing its stage
      have hrunning : s.Running := by
        intro row' hrow'
        cases hrow.symm.trans hrow'
        rcases hpart.1 with hrun | hretd
        · exact hrun
        · have hfull := ((hπ _ hinv).row row (h.row.trans hrow)).full
            (by simp [hretd, fullyDurable])
          omega
      refine (validResumableStage_runs h).bind fun valid w h => .pure ⟨h, ?_⟩
      cases valid with
      | true => exact ⟨row, hrow, rfl⟩
      | false => exact hrunning

lemma lookup_runs (hπ : ∀ s, π.Inv s → s.Inv site) (h : Quiet s (w.session site)) :
    RunsIn site π (lookup site) (fun x s' => Quiet s s' ∧ s.Shows x) (Fails (Quiet s)) w := by
  refine (loadSession_runs h).bind fun session w hloaded => ?_
  obtain ⟨hq, hses⟩ := hloaded
  cases session with
  | none => exact .pure ⟨hq, fun row hrow => by simp [← hses] at hrow⟩
  | some row => exact classifyStoredSession_runs hπ hq hses.symm

/-- The record that the request goes on with. -/
def Session.Existing (s : Session) (existing : Option UploadCheckpoint) : Prop :=
  match existing with
  | some c => ∃ row, s.row = some row ∧ c = uploadCheckpoint row
  | none => s.Running

lemma Session.Existing.durable {c : UploadCheckpoint} (h : s.Existing (some c)) :
    s.Durable c.durableOffset := by
  obtain ⟨row, hrow, rfl⟩ := h
  exact ⟨row, hrow, Nat.le_refl _⟩

/-! ### The responses -/

section Checks

variable {c : UploadCheckpoint}

lemma honest_sessionNotFound : sessionNotFound.Honest r s := honest_silent rfl rfl nofun

lemma honest_empty : empty.Honest r s := by
  refine ⟨fun k hk => ?_, nofun⟩
  rcases hk with hk | ⟨p, hp, -⟩
  · cases hk
  · cases hp

lemma honest_record {state : UploadPublicState} (h : s.Durable c.durableOffset)
    (hst : state ≠ .committed) : (c.problem state status code detail recovery).Honest r s :=
  honest_durable h rfl rfl hst

lemma state_of_committed (h : (uploadCheckpoint row).state = .committed) :
    row.state = .committed := by
  cases hs : row.state <;> simp [uploadCheckpoint, hs, toRecordState] at h ⊢

/-- Both answers to a request for a committed upload report the recorded length. -/
lemma honest_committedReply (h : s.Existing (some c)) (hst : c.state = .committed) :
    (c.committedReply r).Honest r s := by
  have hdur := h.durable
  obtain ⟨row, hrow, rfl⟩ := h
  have hcom := state_of_committed hst
  unfold UploadCheckpoint.committedReply
  split
  case isTrue =>
    refine ⟨fun k hk => .inl ?_, fun _ => ⟨row, hrow, hcom, rfl⟩⟩
    rcases hk with hk | ⟨p, hp, -⟩
    · cases hk
      exact hdur
    · cases hp
  case isFalse =>
    refine honest_problem (fun k hk => .inl ?_) fun _ => ⟨row, hrow, hcom, rfl⟩
    rcases hk with hk | hk
    · cases hk
      exact hdur
    · cases hk

lemma honest_conflictContext (hex : s.Existing existing) (h : Quiet s s') :
    (applyUploadProblem (conflictContext r existing) status code detail recovery
      (applyTargetInspectionHeaders inspection .empty)).Honest r s' := by
  refine honest_problem (fun k hk => .inl ?_) fun hst => ?_
  · cases existing with
    | none => simp [conflictContext, applyTargetInspectionHeaders, empty] at hk
    | some c =>
      simp only [conflictContext, applyTargetInspectionHeaders, empty,
        Option.map_some, Option.some.injEq, reduceCtorEq, or_false] at hk
      exact hk ▸ hex.durable.kept h.kept
  · simp only [conflictContext] at hst
    split at hst <;> cases hst

lemma publicState_ne_committed (state : UploadRecordState) : state.publicState ≠ .committed := by
  unfold UploadRecordState.publicState
  split <;> nofun

lemma timedOutReply_runs {res : UploadResponse} {Q : Unit → Session → Prop}
    (h : ∀ s, res.Honest r s) : Serves site r (timedOutReply res) Q w := by
  refine (deadlinePassed_runs (.refl _)).bind fun late w' _ => .throw ?_
  cases late with
  | true => exact h _
  | false => exact honest_empty

/-- A create-only upload has nothing to replay and does not confirm a stage bound to a file. -/
def UploadRequest.CreateOnly (r : UploadRequest) (existing : Option UploadCheckpoint)
    (target : ReplacementTarget) : Prop :=
  r.requestedRevision = none → target.metadata = none ∧ ∀ c, existing = some c →
    c.state = .awaitingConfirmation → c.targetRevision = none

/-! ### The checks -/

variable (h : Quiet s (w.session site))

include h

lemma lookupRecord_runs :
    Serves site r (lookupRecord site) (fun existing s' => Quiet s s' ∧ s.Existing existing) w := by
  refine (serves (lookup_runs (fun _ h => h) h)).bind fun found w hfnd => ?_
  cases found with
  | found | notSeen => exact .pure hfnd
  | foreignOwner => exact .throw honest_sessionNotFound

lemma deadlineBeforeMutation_runs :
    Serves site r (deadlineBeforeMutation r message) (fun _ => Quiet s) w := by
  refine (deadlinePassed_runs h).bind fun late w h => ?_
  exact .when (fun _ => .throw honest_notStarted) fun _ => h

lemma beginUploadMutationOrReject_runs :
    Serves site r (beginUploadMutationOrReject r message) (fun _ => Quiet s) w := by
  refine ask_bind fun a => ?_
  refine bind (Q := fun _ w => Quiet s (w.session site)) ?_ fun _ w h => .get_bind ?_
  · exact .when (fun _ => .modify (.refl _) h) fun _ => h
  · refine .modify_bind (.refl _) ?_
    exact .when (fun _ => .throw honest_notStarted) fun _ => h

lemma trackResumed_runs : Serves site r (trackResumed r) (fun _ => Quiet s) w := by
  refine attempt_bind (fsStep_unit_runs h) (fun _ w h => deadlineBeforeMutation_runs h)
    fun e w he => ?_
  obtain ⟨⟨f, rfl⟩, -⟩ := he
  split
  · cases ‹_ = Except.ok _›
  · exact .throw honest_sessionNotFound
  · exact .throw honest_sessionNotFound
  · exact timedOutReply_runs fun _ => honest_notStarted
  · cases ‹_ = _›
    exact .throw trivial

lemma reserveFresh_runs : Serves site r (reserveFresh site r) (fun _ => Quiet s) w := by
  refine (serves (fsStep_runs h)).bind fun _ w h => ?_
  refine (serves (reserveAllocated_runs h)).bind fun lease w h => ?_
  cases lease with
  | none => exact .throw (honest_silent rfl rfl nofun)
  | some lease => exact .pure h

/-- A resumed upload has a checkpoint, a fresh one has none. -/
lemma sessionCheckpoint_runs (hrsm : ∀ c, existing = some c → r.mode.isResume = true) :
    Serves site r (sessionCheckpoint r existing) (fun checkpoint s' => Quiet s s' ∧
      checkpoint = existing ∧ (checkpoint.isSome = true ↔ r.mode.isResume = true)) w := by
  unfold sessionCheckpoint
  split
  case isTrue hmode =>
    cases existing with
    | some c => exact .pure ⟨h, rfl, by simp [hmode]⟩
    | none => exact .throw honest_sessionNotFound
  case isFalse hmode =>
    cases existing with
    | some c => exact absurd (hrsm c rfl) hmode
    | none => exact .pure ⟨h, rfl, by simp [hmode]⟩

lemma checkContentLength_runs (hoff : ∀ k, r.mode.offset = some k → s.Durable k) :
    Serves site r (checkContentLength r checkpoint) (fun _ => Quiet s) w := by
  refine (serves (check_runs h)).bind fun _ w h => ?_
  refine .when (fun _ => .throw (honest_problem (fun k hk => .inl ?_) ?_)) fun _ => h.2
  · exact (hoff k (by simpa [empty] using hk)).kept h.2.kept
  · dsimp only
    split
    · exact fun hst => absurd hst (publicState_ne_committed _)
    · simp

lemma answerExisting_runs (hc : s.Existing (some c)) :
    Serves site r (answerExisting site r c) (fun _ s' => Quiet s s' ∧ r.mode.isResume = true ∧
      (c.state = .running ∨ c.state = .awaitingConfirmation)) w := by
  have hdur : (w.session site).Durable c.durableOffset := hc.durable.kept h.kept
  unfold answerExisting
  cases hst : c.state with
  | committed =>
    refine .throw (honest_committedReply ?_ hst)
    obtain ⟨row, hrow, hcp⟩ := hc
    exact ⟨row, h.row.trans hrow, hcp⟩
  | rejected | unknown => exact .throw (honest_record hdur nofun)
  | running =>
    exact .when (fun _ => .throw (honest_record hdur nofun)) fun hrsm =>
      ⟨h, by simpa using hrsm, .inl rfl⟩
  | awaitingConfirmation =>
    dsimp only
    split
    case isTrue =>
      refine (serves (renderUploadTargetConflict_runs h)).bind fun res w hres => ?_
      obtain ⟨hq, inspection, status, code, detail, recovery, rfl⟩ := hres
      exact .throw (honest_durable (hc.durable.kept hq.kept) rfl rfl nofun)
    case isFalse hrsm =>
      split
      case isTrue => exact .throw (honest_record hdur nofun)
      case isFalse =>
        split
        case isTrue => exact .throw (honest_record hdur nofun)
        case isFalse => exact .pure ⟨h, by simpa using hrsm, .inr rfl⟩

variable (hex : s.Existing existing)

include hex

/-- A request goes on with no record, or resumes one that is running or awaits confirmation. -/
lemma checkExisting_runs : Serves site r (checkExisting site r existing) (fun _ s' => Quiet s s' ∧
      ∀ c, existing = some c → r.mode.isResume = true ∧
        (c.state = .running ∨ c.state = .awaitingConfirmation)) w := by
  cases existing with
  | some c =>
    refine (answerExisting_runs h hex).mono (fun _ _ h => ⟨h.1, fun c' hc' => ?_⟩) fun _ _ h => h
    cases hc'
    exact h.2
  | none => exact .when (fun _ => .throw (honest_silent rfl rfl nofun)) fun _ => ⟨h, nofun⟩

lemma targetConflict_runs {α : Type} {Q : α → Session → Prop} :
    Serves site r (targetConflict site r existing) Q w := by
  refine (serves (renderUploadTargetConflict_runs h)).bind fun res w hres => ?_
  obtain ⟨hq, inspection, status, code, detail, recovery, rfl⟩ := hres
  exact .throw (honest_conflictContext hex hq)

lemma createOnlyTarget_runs : Serves site r (createOnlyTarget r existing inspection)
      (fun target s' => Quiet s s' ∧ r.CreateOnly existing target) w := by
  unfold createOnlyTarget
  split
  case isTrue => exact .throw (honest_conflictContext hex h)
  case isFalse =>
    split
    case isTrue hbd =>
      cases existing with
      | none => simp at hbd
      | some c => exact .throw (honest_durable (hex.durable.kept h.kept) rfl rfl nofun)
    case isFalse hfree =>
      refine .pure ⟨h, fun _ => ⟨rfl, fun c hc hst => ?_⟩⟩
      subst hc
      simpa [hst] using hfree

lemma overwriteTarget_runs {expected : Revision} :
    Serves site r (overwriteTarget site r existing inspection expected) (fun _ => Quiet s) w := by
  unfold overwriteTarget
  split
  case isTrue => exact targetConflict_runs h hex
  case isFalse =>
    refine attempt_bind (replacementMetadata_runs h) (fun target w h => ?_) fun e w he => ?_
    · dsimp only
      split
      · exact targetConflict_runs h hex
      · exact .pure h
    · dsimp only
      split
      · exact targetConflict_runs he.2 hex
      · exact .throw he.leaves

lemma chooseTarget_runs : Serves site r (chooseTarget site r existing)
      (fun target s' => Quiet s s' ∧ r.CreateOnly existing target) w := by
  refine (serves (replacementIdentity_runs h)).bind fun identity w h => ?_
  cases how : r.overwrite with
  | noReplace => exact createOnlyTarget_runs h hex
  | ifUnchanged expected =>
    refine (overwriteTarget_runs h hex).mono (fun target _ h => ⟨h, fun hnone => ?_⟩) fun _ _ h => h
    simp [requestedRevision, how, UploadOverwritePolicy.revision] at hnone

lemma checkCheckpoint_runs :
    Serves site r (checkCheckpoint r existing) (fun _ s' => Quiet s s' ∧ ∀ c, existing = some c →
      c.uploadLength = r.uploadLength ∧ c.durableOffset = r.initialOffset) w := by
  cases existing with
  | none => exact .pure ⟨h, nofun⟩
  | some c =>
    have hdur := hex.durable.kept h.kept
    unfold checkCheckpoint
    dsimp only
    split
    case isTrue => exact .throw (honest_record hdur (publicState_ne_committed _))
    case isFalse hlen =>
      split
      case isTrue => exact .throw (honest_record hdur (publicState_ne_committed _))
      case isFalse hoff =>
        refine .pure ⟨h, fun c' hc' => ?_⟩
        cases hc'
        exact ⟨not_not.1 hlen, not_not.1 hoff⟩

end Checks

/-! ### A fresh stage -/

/-- The row is the one the request works on: in the state it was found in, naming the stage, and
bound to the revision of the request unless it awaits a confirmation. -/
structure StoredUploadSession.Binds (r : UploadRequest) (awaiting : Bool) (id : StoredFileIdentity)
    (row : StoredUploadSession) : Prop where
  state : row.state = if awaiting then .awaitingConfirmation else .running
  identity : row.stageIdentity = some id
  uploadLength : row.uploadLength = r.uploadLength
  revision : awaiting = false → row.targetRevision = r.requestedRevision
  createOnly : r.requestedRevision = none → row.targetRevision = none

/-- The descriptor is staged, and the row binds it. -/
structure Session.Bound (r : UploadRequest) (awaiting : Bool) (file : StageFile) (s : Session) :
    Prop extends Staged r file s where
  row : ∃ row, s.row = some row ∧ row.Binds r awaiting file.identity

lemma Session.Bound.move {file' : StageFile} (h : Bound r awaiting file s)
    (hk : Kept s s') (hwr : Written r file' s') (hid : file'.identity = file.identity)
    (hmv : file' = file ∨ s.Running) : Bound r awaiting file' s' where
  toStaged := h.toStaged.move hk hwr hid hmv
  row := by
    rw [hk.row, hid]
    exact h.row

lemma Session.Bound.quiet (h : Bound r awaiting file s) (hq : Quiet s s') :
    Bound r awaiting file s' :=
  h.move hq.kept (h.toWritten.quiet hq) rfl (.inl rfl)

lemma Session.Bound.allRunning (h : Bound r false file s) : s.Running := by
  intro row hrow
  obtain ⟨row', hrow', hbnd⟩ := h.row
  cases hrow.symm.trans hrow'
  simpa using hbnd.state

/-- A retained stage is complete. -/
lemma Session.Bound.complete (h : Bound r true file s) (hinv : s.Inv site) :
    s.Durable r.uploadLength ∧ r.initialOffset = r.uploadLength := by
  obtain ⟨row, hrow, hbnd⟩ := h.row
  have hfull := (hinv.row row hrow).full (by simp [hbnd.state, fullyDurable])
  rw [hbnd.uploadLength] at hfull
  exact ⟨⟨row, hrow, hfull.ge⟩, by rw [← h.offset row hrow hbnd.identity, hfull]⟩

/-- The answers to a confirmation report the retained stage. -/
lemma honest_awaiting (h : Bound r true file s) (hinv : s.Inv site) :
    (applyAwaitingConfirmationProblem r.uploadLength status code message).Honest r s :=
  honest_durable (h.complete hinv).1 rfl rfl nofun

lemma initialOffset_of_fresh (h : r.mode.isResume = false) : r.initialOffset = 0 := by
  simp [initialOffset, UploadMode.offset_of_fresh h]

section

variable (h : Quiet s (w.session site)) (hrun : s.Running) (hfr : r.mode.isResume = false)

include h hrun hfr

/-- A new stage is empty, private to the request and not named by any row. -/
lemma createPrivateUploadStage_runs : Runs site r (createPrivateUploadStage site)
      (fun file s' => Staged r file s' ∧ s'.Running ∧ file.pos = 0 ∧ file.queued = [])
      (Fails fun _ => True) w := by
  refine seq (fsStep_runs h) (fun _ _ h => h.mono fun _ => trivial)
    fun a w h => .get_bind (.with_inv fun hinv => ?_)
  split
  case isTrue => exact .throw ⟨⟨_, rfl⟩, trivial⟩
  case isFalse hstg =>
    split
    case isTrue => exact .throw ⟨⟨_, rfl⟩, trivial⟩
    case isFalse hfree =>
      have hstg' : (w.session site).stage = none := by simpa [World.session] using hstg
      have hfree' : (w.session site).inodes a.identity = none := by
        simpa [World.session] using hfree
      refine .modify_bind (.single (.create _ a.identity hstg' hfree')) (.pure ?_)
      have hrow : ∀ row, w.row site = some row → row.state = .running := fun row hrow =>
        hrun row (h.row.symm.trans hrow)
      refine ⟨⟨⟨?_, ?_, ?_⟩, ?_, ?_, ?_⟩, hrow, rfl, rfl⟩
      · exact ⟨.create site.stageAttributes, by simp [World.session], rfl, rfl, fun _ => rfl⟩
      · exact ⟨(initialOffset_of_fresh hfr).le, List.nil_prefix⟩
      · exact fun hne => absurd rfl hne
      · exact fun row hrow' => .inl (hrow row hrow')
      · intro row hrow' hid
        obtain ⟨n, hn, -⟩ := (hinv.row row hrow').recorded a.identity hid
        simp [hfree'] at hn
      · simp [hfr]

lemma createStage_runs : Serves site r (createStage site r)
      (fun file s' => Staged r file s' ∧ s'.Running ∧ file.pos = 0 ∧ file.queued = []) w := by
  refine attempt_bind (createPrivateUploadStage_runs h hrun hfr)
    (fun file w h => .pure h) fun e w he => ?_
  obtain ⟨⟨f, rfl⟩, -⟩ := he
  split
  · cases ‹_ = Except.ok _›
  · exact .throw (honest_silent rfl rfl nofun)
  · cases ‹_ = _›
    exact .throw trivial

end

lemma discardCreatedStage_runs (hidle : file.queued = []) (hrun : (w.session site).Running) :
    Runs site r (discardCreatedStage file) (fun _ _ => True) (Fails fun _ => True) w := by
  refine (attempt_runs (discardUnrecordedStage_runs (.refl _) hidle hrun.givesUp)).bind
    fun x w h => ?_
  refine seq (fsStep_unit_runs (.refl _)) (fun _ _ h => h.mono fun _ => trivial) fun _ w _ => ?_
  exact rethrow_runs (P := fun _ => True) trivial h.2

lemma trackCreated_runs (hidle : file.queued = []) (hrun : (w.session site).Running) :
    Serves site r (trackCreated file) (fun _ => Quiet (w.session site)) w := by
  have hdiscard {w' : World} (hq : Quiet (w.session site) (w'.session site)) :
      Serves site r (discardCreatedStage file) (fun _ _ => True) w' :=
    serves (discardCreatedStage_runs hidle (hrun.kept hq.kept))
  refine attempt_bind (fsStep_unit_runs (.refl _)) (fun _ w' hq => ?_) fun e w' he => ?_
  · refine (deadlinePassed_runs hq).bind fun late w' hq => .when (fun _ => ?_) fun _ => hq
    exact (hdiscard hq).bind fun _ _ _ => .throw (honest_unknown nofun)
  · obtain ⟨⟨f, rfl⟩, hq⟩ := he
    refine (hdiscard hq).bind fun _ w' _ => ?_
    split
    · exact timedOutReply_runs fun _ => honest_unknown nofun
    · exact .throw trivial

/-- A stored checkpoint binds the stage to the row. -/
lemma bound_of_checkpoint {record : UploadRecordContext}
    (hk : Kept { s with row := some (checkpointRow site record k file s) } s')
    (hsyn : Synced file n s') (hidle : file.queued = []) (hpos : file.pos = r.initialOffset)
    (hoff : k = r.initialOffset) (hlen : record.uploadLength = r.uploadLength)
    (hbd : record.targetRevisionBound = true)
    (hrev : record.targetRevision = r.requestedRevision) : Bound r false file s' := by
  have hrow : s'.row = some (checkpointRow site record k file s) := hk.row
  have htgt : (checkpointRow site record k file s).targetRevision = r.requestedRevision := by
    simp [checkpointRow, proposedSession, hbd, hrev]
  refine ⟨⟨hsyn.written hidle hpos.ge, fun row h => ?_, fun row h _ => ?_, fun _ => ?_⟩,
    _, hrow, rfl, rfl, hlen, fun _ => htgt, fun hnone => htgt.trans hnone⟩
  · cases hrow.symm.trans h
    exact .inl rfl
  · cases hrow.symm.trans h
    exact hoff
  · exact ⟨_, hrow, hoff.ge⟩

lemma recordFreshStage_runs (h : Staged r file (w.session site)) (hidle : file.queued = [])
    (hpos : file.pos = 0) (hrun : (w.session site).Running) (hfr : r.mode.isResume = false) :
    Serves site r (recordFreshStage site r file) (fun _ => Bound r false file) w := by
  have hzero := initialOffset_of_fresh hfr
  refine (deadlinePassed_runs (.refl _)).bind fun late w₁ hq => ?_
  refine bind (Q := fun _ w' => Quiet (w.session site) (w'.session site))
    (.when (fun _ => ?_) fun _ => hq) fun _ w₂ hq => ?_
  · exact (finishTimedOutUpload_runs (h.quiet hq)).bind fun res w' hres => .throw hres
  · refine .with_inv fun hinv => ?_
    have hrun₂ := hrun.kept hq.kept
    have hopen := hrun₂.unfinished.isOpen hinv
    refine attempt_bind (persistCheckpointInner_runs (.refl _) (h.toWritten.quiet hq)
      hrun₂.unfinished rfl fun _ => rfl) (fun _ w₃ hsvd => .pure ?_) fun e w₃ he => ?_
    · obtain ⟨hk, n, hsyn⟩ := hsvd
      rw [StageFile.flushed_of_idle hidle] at hsyn
      exact bound_of_checkpoint hk hsyn hidle (hpos.trans hzero.symm) hzero.symm rfl rfl rfl
    · -- every trace of the stage is removed, as far as that succeeds
      obtain ⟨⟨f, rfl⟩, hk⟩ := he
      refine (attempt_runs (discardUnrecordedStage_runs hk.later hidle hrun₂.givesUp)).bind
        fun discarded w₄ h₄ => ?_
      have hreset := (reset_runs (r := r) h₄.1 hopen hrun₂.givesUp).mono
        (fun _ _ h => h.1) fun _ _ h => h
      refine (attempt_runs hreset).bind fun cleared w₅ h₅ => ?_
      refine (attempt_runs (fsStep_unit_runs (.refl _))).bind fun rolledBack w₆ h₆ => ?_
      have hrethrow {α : Type} {x : Except Exit α} {w : World}
          (hx : ∀ e, x = .error e → ∃ f, e = .error f) :
          Serves site r (rethrow x) (fun _ _ => True) w :=
        serves (rethrow_runs (P := fun _ => True) trivial hx)
      refine (hrethrow h₄.2).bind fun _ _ _ => (hrethrow h₅.2).bind fun _ _ _ => ?_
      exact (hrethrow h₆.2).bind fun _ _ _ => .throw trivial

lemma stageFresh_runs (h : Quiet s (w.session site)) (hrun : s.Running)
    (hfr : r.mode.isResume = false) :
    Serves site r (stageFresh site r) (fun x s' => Bound r false x.1 s' ∧ x.1.queued = [] ∧
      x.1.pos = r.initialOffset) w := by
  refine (reserveFresh_runs h).bind fun lease w h => ?_
  refine (deadlineBeforeMutation_runs h).bind fun _ w h => ?_
  refine (beginUploadMutationOrReject_runs h).bind fun _ w h => ?_
  refine (createStage_runs h hrun hfr).bind fun file w hfile => ?_
  obtain ⟨hstgd, hrun, hpos, hidle⟩ := hfile
  refine (trackCreated_runs hidle hrun).bind fun _ w' hq => ?_
  refine (recordFreshStage_runs (hstgd.quiet hq) hidle hpos (hrun.kept hq.kept) hfr).bind
    fun _ w hbd => .pure ?_
  exact ⟨hbd, hidle, hpos.trans (initialOffset_of_fresh hfr).symm⟩

/-! ### A resumed stage -/

lemma openRecordedStage_runs {id : StoredFileIdentity} (h : Quiet s (w.session site)) :
    Runs site r (openRecordedStage id k expected)
      (fun o s' => Quiet s s' ∧ ∀ file, o = some file → file = ⟨id, 0, []⟩ ∧
        ∃ n, s.inodes id = some n ∧ lengthFits expected k n.length) (Fails (Quiet s)) w := by
  refine attempt_bind (openStage_runs h) (fun file w hopn => ?_) fun e w he => ?_
  · obtain ⟨hq, i, -, rfl⟩ := hopn
    refine (metadata_idle_runs hq rfl).bind fun found w hfnd => .pure ?_
    obtain ⟨hq, hfile, hid, n, hn, hlen⟩ := hfnd
    refine ⟨hq, fun file hsome => ?_⟩
    split at hsome
    case isFalse => cases hsome
    case isTrue hval =>
      obtain ⟨-, -, hfits, hidn⟩ := hval
      cases hsome
      have hi : i = id := hid.symm.trans hidn
      subst hi
      exact ⟨hfile, n, hn, hlen ▸ hfits⟩
  · dsimp only
    split
    · exact .pure ⟨he.2, nofun⟩
    · exact .throw he

lemma openResumableStage_runs {len : ℕ} (h : Quiet s (w.session site)) (hrow : s.row = some row) :
    Runs site r (openResumableStage site len k expected)
      (fun o s' => Quiet s s' ∧ ∀ file, o = some file → ∃ id n, row.stageIdentity = some id ∧
        file = ⟨id, 0, []⟩ ∧ s.inodes id = some n ∧ lengthFits expected k n.length)
      (Fails (Quiet s)) w := by
  refine (loadSession_runs h).bind fun session w hloaded => ?_
  obtain ⟨hq, hses⟩ := hloaded
  cases session with
  | none => exact .pure ⟨hq, nofun⟩
  | some session =>
    cases hses.trans hrow
    dsimp only
    split
    case isFalse => exact .pure ⟨hq, nofun⟩
    case isTrue =>
      cases hid : row.stageIdentity with
      | none => exact .pure ⟨hq, nofun⟩
      | some id =>
        refine (openRecordedStage_runs hq).mono (fun o w' ho => ⟨ho.1, fun file hfile => ?_⟩)
          fun _ _ h => h
        obtain ⟨hfile, n, hn, hfits⟩ := ho.2 file hfile
        exact ⟨id, n, rfl, hfile, hn, hfits⟩

/-- The upload of the row is one that the request may resume. -/
structure StoredUploadSession.Resumes (r : UploadRequest) (row : StoredUploadSession) : Prop where
  resume : r.mode.isResume = true
  uploadLength : row.uploadLength = r.uploadLength
  offset : row.durableOffset = r.initialOffset
  state : row.state = .running ∨ row.state = .awaitingConfirmation
  createOnly : r.requestedRevision = none → row.state = .awaitingConfirmation →
    row.targetRevision = none

/-- The reopened stage, at the offset of its checkpoint. -/
lemma staged_of_reopened (hrow : s.row = some row) (hn : s.inodes file.identity = some n)
    (hwhole : n.data.Whole) (hlen : n.length = file.pos) (hidle : file.queued = [])
    (hpos : file.pos = r.initialOffset) (hr : row.Resumes r) : Staged r file s where
  inode := ⟨n, hn, hwhole, hlen, fun hnone => by simp [hrow] at hnone⟩
  sends := ⟨hpos.ge, by simp [hidle]⟩
  running hne := absurd hidle hne
  state row' hrow' := by
    cases hrow.symm.trans hrow'
    exact hr.state.imp_right fun h => ⟨h, hr.resume, hidle, hpos⟩
  offset row' hrow' _ := by
    cases hrow.symm.trans hrow'
    exact hr.offset
  resumed _ := ⟨row, hrow, hr.offset.ge⟩

/-- The stage is cut back to the checkpoint; what remains was synced. -/
lemma cutToCheckpoint_runs (h : Quiet s (w.session site)) (hrow : s.row = some row)
    (hid : row.stageIdentity = some file.identity) (hn : s.inodes file.identity = some n)
    (hidle : file.queued = []) (hpos : file.pos = r.initialOffset) (hr : row.Resumes r)
    (hst : row.state = .running ∧ r.initialOffset ≤ n.length ∨
      row.state = .awaitingConfirmation ∧ n.length = r.initialOffset) :
    Serves site r (.when (r.initialOffset < n.length) (do
        beginUploadMutationOrReject r "Upload timed out before truncating its staging file"
        let _ ← file.setLen r.initialOffset
        pure ()))
      (fun _ s' => Staged r file s' ∧ s'.row = some row) w := by
  refine .with_inv fun hinv => ?_
  have hsyn : r.initialOffset ≤ n.data.synced := by
    rw [← hr.offset]
    exact (hinv.reliesOn (h.inodes ▸ hn) (h.row.trans hrow) hid).durable
  have hint := n.data.synced_le
  have hlen : n.data.intact ≤ n.length := n.data.intact_le
  refine .when (fun hlng => ?_) fun hfits => ?_
  · have hrun : row.state = .running := by
      rcases hst with h | h
      · exact h.1
      · omega
    refine (beginUploadMutationOrReject_runs h).bind fun _ w h => ?_
    refine (serves (setLen_idle_runs h hidle hn hlng.le fun row' hrow' _ => ?_)).bind
      fun _ w' hcut => .pure ?_
    · cases hrow.symm.trans hrow'
      exact ⟨hrun, hr.offset.le⟩
    · refine ⟨?_, hcut.1.row.trans hrow⟩
      refine staged_of_reopened (hcut.1.row.trans hrow) hcut.2 ?_ ?_ hidle hpos hr
      · exact DurableFile.whole_resize (by omega)
      · simp [Inode.length, DurableFile.resize, hpos]
  · have heq : n.length = r.initialOffset := by rcases hst with h | h <;> omega
    refine ⟨?_, h.row.trans hrow⟩
    refine staged_of_reopened (h.row.trans hrow) (h.inodes ▸ hn) ?_ (heq.trans hpos.symm) hidle hpos
      hr
    have hwhole : n.length = n.data.intact := by omega
    exact hwhole.symm

/-- A running upload is bound to the revision of this request before it goes on. -/
lemma rebind_runs (h : Staged r file (w.session site)) (hrow : (w.session site).row = some row)
    (hid : row.stageIdentity = some file.identity) (hidle : file.queued = [])
    (hpos : file.pos = r.initialOffset) (hr : row.Resumes r) :
    Serves site r (.when ((uploadCheckpoint row).state = .running ∧
        (uploadCheckpoint row).targetRevision ≠ r.requestedRevision) (do
          beginUploadMutationOrReject r "Upload timed out before updating its resumable state"
          persistCheckpoint site file (UploadRecordContext.withTargetRevision r.requestedRevision
            ⟨r.uploadLength, none, false⟩) r.initialOffset))
      (fun _ => Bound r (decide (row.state = .awaitingConfirmation)) file) w := by
  refine .when (fun hrebind => ?_) fun hkeep => ⟨h, row, hrow, ?_⟩
  · have hrun : row.state = .running := by
      rcases hr.state with hs | hs
      · exact hs
      · simp [uploadCheckpoint, hs, toRecordState] at hrebind
    refine (beginUploadMutationOrReject_runs (.refl _)).bind fun _ w' hq => ?_
    refine (persistCheckpointInner_runs (.refl _) (h.toWritten.quiet hq)
      (h.quiet hq).unfinished rfl fun _ => rfl).mono (fun _ w'' hsvd => ?_) fun _ _ h => h.leaves
    obtain ⟨hk, n, hsyn⟩ := hsvd
    rw [StageFile.flushed_of_idle hidle] at hsyn
    simp only [hrun, reduceCtorEq, decide_false]
    exact bound_of_checkpoint hk hsyn hidle hpos rfl rfl rfl rfl
  · rcases hr.state with hs | hs
    · have hrev : row.targetRevision = r.requestedRevision := by
        simpa [uploadCheckpoint, hs, toRecordState] using hkeep
      exact ⟨by simp [hs], hid, hr.uploadLength, fun _ => hrev, fun hnone => hrev.trans hnone⟩
    · exact ⟨by simp [hs], hid, hr.uploadLength, by simp [hs], fun hnone => hr.createOnly hnone hs⟩

/-- The resumed stage is bound to the revision of this request, or awaits a confirmation. -/
lemma stageResumed_runs (h : Quiet s (w.session site)) (hrow : s.row = some row)
    (hr : row.Resumes r) : Serves site r (stageResumed site r (uploadCheckpoint row))
      (fun file s' => Bound r (decide (row.state = .awaitingConfirmation)) file s' ∧
        file.queued = [] ∧ file.pos = r.initialOffset) w := by
  have hdur : s.Durable r.initialOffset := ⟨row, hrow, hr.offset.ge⟩
  refine (serves (openResumableStage_runs h hrow)).bind fun opened w hopn => ?_
  obtain ⟨hq, hfile⟩ := hopn
  cases opened with
  | none =>
    exact .throw (honest_durable (hdur.kept hq.kept) rfl rfl (publicState_ne_committed _))
  | some file =>
    obtain ⟨id, n, hid, rfl, hn, hfits⟩ := hfile file rfl
    refine (serves (metadata_idle_runs hq rfl)).bind fun found w hfnd => ?_
    obtain ⟨hq, hfile, -, m, hm, hfoundLength⟩ := hfnd
    cases hn.symm.trans hm
    rw [hfile, hfoundLength]
    refine (serves (seek_runs hq)).bind fun file w hseek => ?_
    obtain ⟨hq, rfl⟩ := hseek
    refine (deadlineBeforeMutation_runs hq).bind fun _ w hq => ?_
    have hlengthState : row.state = .running ∧ r.initialOffset ≤ n.length ∨
        row.state = .awaitingConfirmation ∧ n.length = r.initialOffset := by
      rcases hr.state with hs | hs <;>
        simpa [uploadCheckpoint, hs, toRecordState, lengthFits] using hfits
    refine (cutToCheckpoint_runs hq hrow hid hn rfl rfl hr hlengthState).bind fun _ w hcut => ?_
    obtain ⟨hstgd, hrow'⟩ := hcut
    refine (rebind_runs hstgd hrow' hid rfl rfl hr).bind fun _ w hbd => ?_
    exact .pure ⟨hbd, rfl, rfl⟩

/-! ### Admission of the transfer -/

lemma stopWhenLate_runs (h : Staged r file (w.session site)) :
    Serves site r (stopWhenLate site r file message) (fun _ => Quiet (w.session site)) w := by
  refine (deadlinePassed_runs (.refl _)).bind fun late w₁ hq => .get_bind ?_
  refine bind (Q := fun _ w' => Quiet (w.session site) (w'.session site))
    (.when (fun _ => .throw honest_notStarted) fun _ => hq) fun _ w₂ hq => ?_
  refine (deadlinePassed_runs hq).bind fun late w₃ hq => .when (fun _ => ?_) fun _ => hq
  exact (finishTimedOutUpload_runs (h.quiet hq)).bind fun res w' hres => .throw hres

section Admission

lemma reserveTransfer_runs (h : Bound r awaiting file (w.session site)) :
    Serves site r (reserveTransfer site r awaiting reserved) (fun _ => Quiet (w.session site))
      w := by
  refine bind (Q := fun _ w' => Quiet (w.session site) (w'.session site)) ?_
    fun lease w' hq => ?_
  · cases reserved with
    | some lease => exact .pure (.refl _)
    | none =>
      exact serves (reserveAllocated_runs (.refl _))
  · cases lease with
    | some lease => exact .pure hq
    | none =>
      replace h := h.quiet hq
      dsimp only
      split
      case isTrue haw =>
        subst haw
        exact .with_inv fun hinv => .throw (honest_awaiting h hinv)
      case isFalse hrun =>
        obtain rfl : awaiting = false := by simpa using hrun
        refine bind (Q := fun _ w'' => r.mode.isResume = true →
          Kept (w'.session site) (w''.session site)) (.when (fun hfr => ?_) fun _ _ => .refl _)
          fun _ w'' hk => .throw (honest_stopped fun k hoff => ?_)
        · exact (giveUp_runs h.allRunning).mono (fun _ _ _ hrsm => by simp [hfr] at hrsm)
            fun _ _ h => h
        · exact durable_offset hoff fun hrsm =>
            (h.resumed hrsm).kept (hk hrsm)

/-- A question about the disk space that was answered with yes, no or an error. -/
lemma confirmed_runs {unconfirmed : Io Unit} (hp : ∀ w', Quiet (w.session site) (w'.session site) →
      Serves site r unconfirmed (fun _ => Quiet (w.session site)) w') :
    Serves site r (do
        let avail ← reservedSpaceIsAvailable.attempt
        match avail with
        | .ok true => pure ()
        | .ok false | .error _ => unconfirmed)
      (fun _ => Quiet (w.session site)) w := by
  refine attempt_bind (reservedSpaceIsAvailable_runs (.refl _)) (fun avail w' hq => ?_)
    fun e w' he => hp w' he.2
  cases avail with
  | true => exact .pure hq
  | false => exact hp w' hq

lemma confirmSpace_runs (h : Bound r awaiting file (w.session site)) :
    Serves site r (confirmSpace site r awaiting file) (fun _ => Quiet (w.session site)) w := by
  refine confirmed_runs fun w' hq => ?_
  replace h := h.quiet hq
  unfold refuseUnconfirmed
  split
  case isTrue haw =>
    subst haw
    exact .with_inv fun hinv => .throw (honest_awaiting h hinv)
  case isFalse hrun =>
    obtain rfl : awaiting = false := by simpa using hrun
    refine (beginUploadMutationOrReject_runs (.refl _)).bind fun _ w'' hq => ?_
    replace h := h.quiet hq
    exact (finishPrecommitSpaceFailure_runs h.toStaged h.allRunning).bind fun res _ hres =>
      .throw hres

lemma admitTransfer_runs {state : Option UploadRecordState}
    (h : Bound r (decide (state = some .awaitingConfirmation)) file (w.session site)) :
    Serves site r (admitTransfer site r state file reserved) (fun _ => Quiet (w.session site))
      w := by
  simp only [admitTransfer, confirmTransfer, bind_assoc, pure_bind]
  refine (stopWhenLate_runs h.toStaged).bind fun _ w₁ h₁ => ?_
  refine (reserveTransfer_runs (h.quiet h₁)).bind fun lease w₂ h₂ => ?_
  replace h₂ := h₁.trans h₂
  refine (confirmSpace_runs (h.quiet h₂)).bind fun _ w₃ h₃ => ?_
  replace h₃ := h₂.trans h₃
  refine (stopWhenLate_runs (h.quiet h₃).toStaged).bind fun _ w₄ h₄ => ?_
  exact (beginUploadMutationOrReject_runs (h₃.trans h₄)).bind fun _ _ hq => .pure hq

end Admission

/-- What the preparation hands on: a bound stage at the offset of the request, and nothing to
replay unless the request overwrites a file. -/
structure Session.Prepared (r : UploadRequest) (t : UploadTransaction) (s : Session) : Prop
    extends Bound r t.awaitingConfirmation t.file s where
  idle : t.file.queued = []
  start : t.file.pos = r.initialOffset
  metadata : r.requestedRevision = none → t.target.metadata = none

lemma openStageFor_runs (h : Quiet s (w.session site)) (hex : s.Existing checkpoint)
    (hrsm : checkpoint.isSome = true ↔ r.mode.isResume = true)
    (hst : ∀ c, checkpoint = some c → c.state = .running ∨ c.state = .awaitingConfirmation)
    (hbnd : ∀ c, checkpoint = some c →
      c.uploadLength = r.uploadLength ∧ c.durableOffset = r.initialOffset)
    (hcre : r.requestedRevision = none → ∀ c, checkpoint = some c →
      c.state = .awaitingConfirmation → c.targetRevision = none) :
    Serves site r (openStageFor site r checkpoint)
      (fun x s' => Bound r (decide (checkpoint.map UploadCheckpoint.state =
        some .awaitingConfirmation)) x.1 s' ∧ x.1.queued = [] ∧ x.1.pos = r.initialOffset)
      w := by
  cases checkpoint with
  | none =>
    have hfr : r.mode.isResume = false := by simpa using hrsm
    exact (stageFresh_runs h hex hfr).bind fun staged _ hstgd => .pure hstgd
  | some c =>
    obtain ⟨row, hrow, rfl⟩ := hex
    have hrowState : row.state = .running ∨ row.state = .awaitingConfirmation := by
      have := hst _ rfl
      cases hs : row.state <;> simp [uploadCheckpoint, hs, toRecordState] at this ⊢
    have haw : decide ((some (uploadCheckpoint row)).map UploadCheckpoint.state =
        some .awaitingConfirmation) = decide (row.state = .awaitingConfirmation) := by
      rcases hrowState with hs | hs <;> simp [uploadCheckpoint, hs, toRecordState]
    rw [haw]
    refine (stageResumed_runs h hrow ⟨hrsm.1 rfl, (hbnd _ rfl).1, (hbnd _ rfl).2, hrowState,
      fun hnone hs => ?_⟩).bind fun file _ hfile => .pure hfile
    exact hcre hnone _ rfl (by simp [uploadCheckpoint, hs, toRecordState])

lemma prepareUpload_runs : Serves site r (prepareUpload site r) (fun t => Prepared r t) w := by
  simp only [prepareUpload, prepareStage, bind_assoc, pure_bind]
  refine (deadlineBeforeMutation_runs (.refl _)).bind fun _ w h => ?_
  refine (lookupRecord_runs h).bind fun existing w hfnd => ?_
  obtain ⟨h, hex⟩ := hfnd
  refine (checkExisting_runs h hex).bind fun _ w hchk => ?_
  obtain ⟨h, hst⟩ := hchk
  refine bind (.when (fun _ => trackResumed_runs h) fun _ => h) fun _ w h => ?_
  refine (chooseTarget_runs h hex).bind fun target w htgt => ?_
  obtain ⟨h, hcre⟩ := htgt
  refine (deadlineBeforeMutation_runs h).bind fun _ w h => ?_
  refine (sessionCheckpoint_runs h fun c hc => (hst c hc).1).bind fun checkpoint w hses => ?_
  obtain ⟨h, rfl, hrsm⟩ := hses
  refine (deadlineBeforeMutation_runs h).bind fun _ w h => ?_
  refine (checkCheckpoint_runs h hex).bind fun _ w hchk => ?_
  obtain ⟨h, hbnd⟩ := hchk
  refine (checkContentLength_runs h fun k hk => ?_).bind fun _ w h => ?_
  · refine durable_offset hk fun hmode => ?_
    obtain ⟨c, rfl⟩ := Option.isSome_iff_exists.1 (hrsm.2 hmode)
    rw [← (hbnd c rfl).2]
    exact hex.durable
  refine (openStageFor_runs h hex hrsm (fun c hc => (hst c hc).2) hbnd
    fun hnone => (hcre hnone).2).bind fun opened w hopn => ?_
  obtain ⟨hbd, hidle, hpos⟩ := hopn
  refine (admitTransfer_runs hbd).bind fun lease w hq => .pure ?_
  exact ⟨hbd.quiet hq, hidle, hpos, fun hnone => (hcre hnone).1⟩

end DufsRam
