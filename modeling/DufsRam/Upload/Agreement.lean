import DufsRam.Upload.Reading
import DufsRam.Upload.System

/-!
# The client understands the server

The preparation of an upload reads the record of its session; with it every response of
`handle_upload` and of `handle_upload_status` conforms to the matrix of the client, and
`classifyUploadResponse` finds in it the state that the server has written.
-/

namespace DufsRam

open Crash Client Session UploadSystem Reads

variable {α : Type} {site : Site} {r : UploadRequest} {code : ErrorCode} {detail : String}
  {recovery : RecoveryAdvice} {row : StoredUploadSession} {w : World} {n : ℕ} {script : List Answer}
  {e : Failure} {mutation : MutationProgress}

/-! ### Answers from one state -/

/-- What is recorded of the session has this length. -/
def World.Records (site : Site) (expectedLength : ℕ) (w : World) : Prop :=
  ∀ row, w.row site = some row → row.uploadLength = expectedLength

/-- The program answers as expected when it is started in this world. -/
def AnswersAt (w : World) (r : UploadRequest) (V : α → Prop) (p : Io α) : Prop :=
  ∀ script, (p script w).Ends (fun a _ => V a) (fun e _ => e.Agrees r) fun _ => True

section At

variable {β : Type} {P : World → Prop} {U : α → Prop} {V : β → Prop} {p : Io α} {f : α → Io β}

lemma AnswersAt.bind (hp : AnswersAt w r U p) (hf : ∀ a, U a → Answers r V (f a)) :
    AnswersAt w r V (p >>= f) := by
  intro script
  refine (hp script).bind fun a rest w' _ ha => ?_
  exact (hf a ha rest w' trivial).mono (fun _ _ h => h.2) (fun _ _ h => h.2) fun _ _ => trivial

/-- A first step that does not touch what the rest relies on. -/
lemma AnswersAt.after (hp : Keeps P U (Exit.Agrees r) p) (hw : P w)
    (hf : ∀ a w', P w' → AnswersAt w' r V (f a)) : AnswersAt w r V (p >>= f) := by
  intro script
  have hends : (p script w).Ends (fun _ w' => P w') (fun e _ => e.Agrees r) fun _ => True :=
    (hp script w hw).mono (fun _ _ h => h.1) (fun _ _ h => h.2) fun _ _ => trivial
  exact hends.bind fun a rest w' _ hw' => hf a w' hw' rest

end At

/-! ### The preparation -/

lemma fits_uploadCheckpoint
    (hw : w.Records site n) (hrow : w.row site = some row) : (uploadCheckpoint row).Fits n := by
  have hlen : row.uploadLength = n := hw row hrow
  obtain ⟨stored, hstr, rfl⟩ := Option.map_eq_some_iff.1 hrow
  have hchk : stored.check = true := Relational.Table.check_of_lookup hstr
  simp only [UploadRow.check, Bool.and_eq_true, Bool.or_eq_true, Bool.not_eq_true',
    decide_eq_true_eq] at hchk
  obtain ⟨⟨-, hoff⟩, hfull⟩ := hchk
  refine ⟨hlen, hlen ▸ hoff, fun hst => ?_⟩
  rcases hfull with hfull | hfull
  · rw [state_of_committed hst] at hfull
    cases hfull
  · exact hfull.trans hlen

lemma loadSession_at :
    (loadSession site script w).Ends (fun row _ => row = w.row site) (fun e _ => e.IsError)
      fun _ => True := by
  let idle : Protocol Session := ⟨fun _ _ => False, fun _ => True, fun _ h => h.elim⟩
  have hruns : RunsIn site idle (loadSession site)
      (fun row s => Quiet (w.session site) s ∧ row = (w.session site).row)
      (Fails (Quiet (w.session site))) w := loadSession_runs (.refl _)
  have hwin := hruns trivial script
  cases hres : loadSession site script w with
  | done row rest w' =>
    rw [hres] at hwin
    exact hwin.2.2
  | raised e rest w' =>
    rw [hres] at hwin
    obtain ⟨f, rfl⟩ := hwin.2.1
    trivial
  | crashed w' => trivial

/-- A record that is found fits. -/
def UploadRecordLookup.Fits (expectedLength : ℕ) (found : UploadRecordLookup) : Prop :=
  ∀ c, found = .found c → c.Fits expectedLength

lemma classifyStoredSession_fits (hrow : (uploadCheckpoint row).Fits n) :
    Keeps (fun _ => True) (UploadRecordLookup.Fits n) Exit.IsError
      (classifyStoredSession site row) := by
  have hfnd : UploadRecordLookup.Fits n (.found (uploadCheckpoint row)) := by
    rintro c ⟨⟩
    exact hrow
  unfold classifyStoredSession
  split
  · exact .pure nofun
  · split
    · have hval : Calls (fun _ => True)
          (validResumableStage row.durableOffset row.stageIdentity) := validResumableStage_calls
      refine hval.bind fun valid _ => .pure ?_
      cases valid with
      | true => exact hfnd
      | false => exact nofun
    · exact .pure hfnd

/-- Every record that the lookup finds is the row, in a form that fits. -/
lemma lookup_at (hw : w.Records site n) (script : List Answer) :
    (lookup site script w).Ends (fun found _ => found.Fits n) (fun e _ => e.IsError)
      fun _ => True := by
  refine loadSession_at.bind fun row rest w' _ hrow => ?_
  cases row with
  | none => exact nofun
  | some row =>
    exact (classifyStoredSession_fits (fits_uploadCheckpoint hw hrow.symm) rest w' trivial).mono
      (fun _ _ h => h.2) (fun _ _ h => h.2) fun _ _ => trivial

lemma lookupRecord_at (hw : w.Records site r.uploadLength) :
    AnswersAt w r (RecordFits r.uploadLength) (lookupRecord site) := by
  have hlook : AnswersAt w r (UploadRecordLookup.Fits r.uploadLength) (lookup site) :=
    fun script => (lookup_at hw script).mono (fun _ _ h => h) (fun _ _ h => h.agrees) fun _ h => h
  refine hlook.bind fun found hfnd => ?_
  cases found with
  | found c =>
    refine .pure ?_
    rintro c' ⟨⟩
    exact hfnd c rfl
  | notSeen => exact .pure nofun
  | foreignOwner => exact .throw agrees_sessionNotFound

section Prepare

variable {checkpoint : Option UploadCheckpoint}

lemma stageResumed_answers (hoff : r.OffsetFits) (hrsm : r.mode.isResume = true)
    {c : UploadCheckpoint} : AnswersAny r (stageResumed site r c) := by
  refine openResumableStage_calls.answers.bind fun opened _ => ?_
  cases opened with
  | none => exact .throw (agrees_publicState hrsm (by decide) rfl hoff c.state)
  | some file =>
    refine StageFile.metadata_calls.answers.bind fun found _ => ?_
    refine StageFile.seek_calls.answers.bind fun file _ => ?_
    refine .bind (answers (deadlineBeforeMutation_reads fun _ => hoff)) fun _ _ => ?_
    refine .bind (.when fun _ => ?_) fun _ _ => .bind (.when fun _ => ?_) fun _ _ => .pure trivial
    · exact (beginUploadMutationOrReject_settles fun _ => hoff).answers.bind fun _ _ =>
        StageFile.setLen_calls.answers.bind fun _ _ => .pure trivial
    · exact (beginUploadMutationOrReject_settles fun _ => hoff).answers.bind fun _ _ =>
        persistCheckpointInner_calls.answers

lemma openStageFor_answers (hoff : r.OffsetFits) (hsome : checkpoint.isSome = r.mode.isResume) :
    Answers r (fun opened => opened.2.2.asU16 ∈ uploadResponseStatuses r.phase .committed)
      (openStageFor site r checkpoint) := by
  cases checkpoint with
  | none =>
    have hstat : StatusCode.created.asU16 ∈ uploadResponseStatuses r.phase .committed := by
      rw [phase_of_fresh hsome.symm]
      decide
    exact (stageFresh_answers hoff).bind fun _ _ => .pure hstat
  | some c =>
    have hstat : StatusCode.noContent.asU16 ∈ uploadResponseStatuses r.phase .committed := by
      rw [phase_of_resume hsome.symm]
      decide
    exact (stageResumed_answers hoff hsome.symm).bind fun _ _ => .pure hstat

end Prepare

lemma prepareUpload_at (hoff : r.OffsetFits) (hw : w.Records site r.uploadLength) :
    AnswersAt w r (UploadTransaction.Fits r) (prepareUpload site r) := by
  simp only [prepareUpload, prepareStage, bind_assoc, pure_bind]
  have hlate : ∀ {P : World → Prop} {msg : String},
      Keeps P (fun _ => True) (Exit.Agrees r) (deadlineBeforeMutation r msg) :=
    (deadlineBeforeMutation_reads fun _ => hoff).mono (fun _ h => h) fun _ h => h trivial
  have hstd : Unmeddled fun _ => True := fun _ _ h => h
  refine .after hlate hw fun _ w' hw' => ?_
  refine (lookupRecord_at hw').bind fun existing hex => ?_
  refine .bind (answers (checkExisting_reads hstd fun _ => hex)) fun _ _ => ?_
  refine .bind (.when fun _ => answers (trackResumed_reads fun _ => hoff)) fun _ _ => ?_
  refine .bind (answers (chooseTarget_reads hstd fun _ => hex)) fun target _ => ?_
  refine hlate.bind fun _ _ => ?_
  refine .bind (answers (sessionCheckpoint_reads fun _ => hex)) fun checkpoint hcp => ?_
  obtain ⟨hsome, hfits⟩ := hcp
  have hrsm : ∀ state, checkpoint.map UploadCheckpoint.state = some state →
      r.mode.isResume = true := by
    rintro state hst
    rw [← hsome]
    cases checkpoint with
    | none => cases hst
    | some c => rfl
  refine hlate.bind fun _ _ => .bind (answers (checkCheckpoint_reads hsome hfits)) fun _ _ => ?_
  refine .bind (answers (checkContentLength_reads (fun _ => hoff) hsome)) fun _ _ => ?_
  refine (openStageFor_answers hoff hsome).bind fun opened hopn => ?_
  refine (admitTransfer_settles (fun _ => hoff) fun _ => hrsm _).answers.bind
    fun lease _ => .pure ?_
  exact ⟨fun h => hrsm _ (of_decide_eq_true h), hopn⟩

/-! ### The whole request -/

lemma AnswersAt.attempt_bind {β : Type} {U : α → Prop} {V : β → Prop} {p : Io α}
    {f : Except Exit α → Io β} (hp : AnswersAt w r U p) (hok : ∀ a, U a → Answers r V (f (.ok a)))
    (herr : ∀ e, e.Agrees r → Answers r V (f (.error e))) : AnswersAt w r V (p.attempt >>= f) := by
  have hatt : AnswersAt w r (fun x => Answers r V (f x)) p.attempt :=
    fun script => (hp script).attempt (fun a _ h => hok a h) fun e _ h => herr e h
  exact hatt.bind fun _ h => h

section

variable (hoff : r.OffsetFits)

include hoff

/-- A problem of the store is unavailable or full, or it reports a clash. -/
lemma agrees_uploadRecordStoreProblem {res : UploadResponse}
    (h : uploadRecordStoreProblem ⟨.unknown, some r.uploadLength, r.mode.offset⟩ e = some res) :
    res.Agrees r.phase r.uploadLength := by
  have hunav : ∀ {code : ErrorCode} {detail : String} {recovery : RecoveryAdvice},
      (r.uncertain .serviceUnavailable code detail recovery).Agrees r.phase r.uploadLength :=
    agrees_uncertain hoff (by decide)
  cases e with
  | io | other => cases h
  | dispatch =>
    cases h
    exact hunav
  | record e =>
    cases e with
    | full =>
      cases h
      exact hunav
    | conflict =>
      cases h
      rintro state - ⟨⟩

lemma handleUpload_at (hw : w.Records site r.uploadLength) :
    AnswersAt w r (fun res => res.Agrees r.phase r.uploadLength) (handleUpload site r) := by
  have hproc : AnswersAt w r (fun res => res.Agrees r.phase r.uploadLength)
      (processUpload site r) :=
    (prepareUpload_at hoff hw).bind fun t ht =>
      (transferUploadBody_settles (fun _ => ht) fun _ => hoff).answers.mono
        (fun _ h => h.agrees trivial) fun _ h => h
  refine hproc.attempt_bind (fun res hres => .pure hres) fun e he => ?_
  cases e with
  | reply res => exact .pure he
  | error e =>
    dsimp only
    split
    · exact .pure (agrees_uploadRecordStoreProblem hoff ‹_›)
    · exact fail_keeps.mono (fun _ h => h) fun _ h => h.agrees

lemma agrees_renderUploadError :
    (renderUploadError r mutation e).Agrees r.phase r.uploadLength := by
  unfold renderUploadError
  split
  · refine agrees_uncertain hoff ?_
    split <;> decide
  · refine agrees_notStarted hoff ?_
    split <;> decide

lemma agrees_deadlineResponse {cancelled : Bool} :
    (deadlineResponse r cancelled).Agrees r.phase r.uploadLength := by
  unfold deadlineResponse
  split
  · exact agrees_notStarted hoff (by decide)
  · exact agrees_uncertain hoff (by decide)

lemma agrees_trackedResponse {late : Bool}
    {handled : Except Exit UploadResponse} (hhandled : match handled with
      | .ok res => res.Agrees r.phase r.uploadLength
      | .error e => e.Agrees r) :
    (trackedResponse r mutation late handled).Agrees r.phase r.uploadLength := by
  unfold trackedResponse
  split
  · exact agrees_deadlineResponse hoff
  · split
    · exact agrees_deadlineResponse hoff
    · split
      · exact hhandled
      · exact hhandled
      · exact agrees_renderUploadError hoff

/-- Every response to a `PUT` or a `PATCH` is one that the client expects. -/
lemma runTrackedUpload_at (hw : w.Records site r.uploadLength) :
    AnswersAt w r (fun res => res.Agrees r.phase r.uploadLength) (runTrackedUpload site r) := by
  refine (handleUpload_at hoff hw).attempt_bind (fun res hres => ?_) fun e he => ?_
  · refine deadlinePassed_keeps.bind fun late _ => .get_bind fun w _ => .pure ?_
    exact agrees_trackedResponse hoff hres
  · refine deadlinePassed_keeps.bind fun late _ => .get_bind fun w _ => .pure ?_
    exact agrees_trackedResponse hoff he

end

/-! ### The status -/

section Status

variable {c : UploadCheckpoint} {state : UploadPublicState} {res : UploadResponse}

lemma agrees_report (status : StatusCode) (hc : c.Fits n) (hres : res.status = status)
    (hstat : status.asU16 ∈ checkpointUploadStatuses state) (hlimd : status ≠ .tooManyRequests)
    (hseen : state ≠ .notSeen) (hst : state = .committed → c.state = .committed) :
    (c.report state res).Agrees .checkpoint n := by
  subst hres
  rintro state' ⟨⟩ -
  exact ⟨hstat, allows_some (rule_ne_absent hseen).1 hc.length,
    allows_some (rule_ne_absent hseen).2 hc.offset,
    fun h => congrArg some (hc.committed (hst h)), fun _ => hlimd⟩

lemma renderStatus_agrees (hc : c.Fits n) :
    Keeps (fun _ => True) (fun res => res.Agrees .checkpoint n) (fun _ => True)
      (renderStatus site c) := by
  unfold renderStatus
  cases hst : c.state with
  | running => exact .pure (agrees_report .ok hc rfl (by decide) (by decide) (by decide) nofun)
  | committed =>
    exact .pure (agrees_report .ok hc rfl (by decide) (by decide) (by decide) fun _ => hst)
  | rejected =>
    exact .pure (agrees_report .conflict hc rfl (by decide) (by decide) (by decide) nofun)
  | awaitingConfirmation =>
    have hidn := replacementIdentity_keeps (P := fun _ => True) fun _ _ h => h
    refine (hidn.mono (fun _ h => h) fun _ _ => trivial).bind fun identity _ => .pure ?_
    exact agrees_report .conflict hc rfl (by decide) (by decide) (by decide) nofun
  | unknown =>
    refine .pure ?_
    have hrpt : ∀ res : UploadResponse, res.status = .internalServerError →
        (c.report .unknown res).Agrees .checkpoint n := fun res hres =>
      agrees_report _ hc hres (by decide) (by decide) (by decide) nofun
    exact hrpt _ rfl

/-- The store is unavailable, and nothing is known of the session. -/
lemma agrees_storeUnavailable :
    (applyUploadProblem ⟨.unknown, none, none⟩ .serviceUnavailable code detail recovery
      .empty).Agrees .checkpoint n := by
  have hstat : StatusCode.serviceUnavailable.asU16 ∈ checkpointUploadStatuses .unknown := by decide
  rintro state ⟨⟩ -
  exact ⟨hstat, by rintro k ⟨⟩, by rintro k ⟨⟩, nofun, by rintro - ⟨⟩⟩

/-- Every response to a status request is one that the client expects. -/
lemma handleUploadStatus_at (hw : w.Records site n) :
    (handleUploadStatus site script w).Ends (fun res _ => res.Agrees .checkpoint n)
      (fun _ _ => True) fun _ => True := by
  have hlook : ((lookup site).attempt script w).Ends
      (fun found _ => ∀ x, found = .ok x → x.Fits n) (fun _ _ => True) fun _ => True :=
    (lookup_at hw script).attempt (by rintro a w' h x ⟨⟩; exact h) (by rintro e w' h x ⟨⟩)
  refine hlook.bind fun found rest w' _ hfnd => ?_
  have hnotSeen : (applyUploadRecordHeaders none none .notSeen
      { UploadResponse.empty with status := .notFound }).Agrees .checkpoint n := by
    rintro state ⟨⟩ -
    exact ⟨by decide, rfl, rfl, nofun, fun _ => by decide⟩
  cases found with
  | ok found =>
    cases found with
    | found c =>
      exact (renderStatus_agrees (hfnd _ rfl c rfl) rest w' trivial).mono (fun _ _ h => h.2)
        (fun _ _ _ => trivial) fun _ _ => trivial
    | notSeen | foreignOwner => exact hnotSeen
  | error e =>
    cases e with
    | reply res => trivial
    | error e =>
      cases e with
      | io | other => trivial
      | dispatch => exact agrees_storeUnavailable
      | record e =>
        cases e with
        | full => exact agrees_storeUnavailable
        | conflict => rintro state - ⟨⟩

end Status

end DufsRam
