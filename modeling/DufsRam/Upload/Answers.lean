import DufsRam.Client.Protocol
import DufsRam.Upload.Calls

/-!
# The answers of an upload

Every response that an upload renders has a status that the client expects with its state, and
declares its length and its offset as the client expects them, provided that the session is recorded
with the length of the request and the offset of the request lies within it. Two responses are set
apart: the one to a stage path that is occupied and the one to a session that conflicts with a
stored one, for which the client has no place.

Once a request has crossed the mutation boundary it stays across, and no response it renders later
says that nothing was started. A response that reports the deadline leaves the outcome open, unless
the request confirms a retained stage, whose state it then repeats.
-/

namespace DufsRam

open Crash Client UploadResponse UploadRequest StageFile

/-- The phase in which the client sends the request. -/
def UploadRequest.phase (r : UploadRequest) : UploadRequestPhase :=
  match r.mode with
  | .fresh => .fresh
  | .resume _ => .resume

/-- The offset that the request declares lies within its upload. -/
def UploadRequest.OffsetFits (r : UploadRequest) : Prop := r.initialOffset ≤ r.uploadLength

/-- The header is there or not, as the rule asks, and its value keeps the bound. -/
def Client.FieldPresence.Allows (bound : ℕ → Prop) : FieldPresence → Option ℕ → Prop
  | .absent, value => value = none
  | .optional, value => ∀ n, value = some n → bound n
  | .required, value => ∃ n, value = some n ∧ bound n

/-- The stage path is occupied, or the session conflicts with a stored one. -/
def UploadResponse.reportsClash (res : UploadResponse) : Bool :=
  res.problem.any fun p =>
    decide (p.code = .uploadStageConflict ∨ p.code = .uploadSessionConflict)

/-- The response is one that the client expects with this state. -/
structure UploadResponse.Conforms (phase : UploadRequestPhase) (expectedLength : ℕ)
    (state : UploadPublicState) (res : UploadResponse) : Prop where
  status : res.status.asU16 ∈ uploadResponseStatuses phase state
  length : (uploadStateRule state).length.Allows (· = expectedLength) res.uploadLength
  offset : (uploadStateRule state).offset.Allows (· ≤ expectedLength) res.uploadOffset
  committed : state = .committed → res.uploadOffset = some expectedLength
  checkpoint : phase = .checkpoint → res.status ≠ .tooManyRequests

/-- A response without a state is not one of the protocol. -/
def UploadResponse.Agrees (phase : UploadRequestPhase) (expectedLength : ℕ)
    (res : UploadResponse) : Prop :=
  ∀ state, res.state = some state → res.reportsClash = false →
    res.Conforms phase expectedLength state

/-- An error is rendered later. -/
def Exit.Agrees (r : UploadRequest) : Exit → Prop
  | .reply res => res.Agrees r.phase r.uploadLength
  | .error _ => True

/-- The program ends with a result in `V`, with a response that agrees or with an error. -/
abbrev Answers {α : Type} (r : UploadRequest) (V : α → Prop) (p : Io α) : Prop :=
  Keeps (fun _ => True) V (Exit.Agrees r) p

/-- A program whose result does not matter here. -/
abbrev AnswersAny {α : Type} (r : UploadRequest) (p : Io α) : Prop := Answers r (fun _ => True) p

/-- The program keeps `P` and ends with a result in `V`, with an error, or with a response that
agrees under an assumption. -/
abbrev Reads {α : Type} (P : World → Prop) (H : Prop) (r : UploadRequest) (V : α → Prop)
    (p : Io α) : Prop :=
  Keeps P V (fun e => H → e.Agrees r) p

/-- A program whose result does not matter here. -/
abbrev ReadsAny {α : Type} (P : World → Prop) (H : Prop) (r : UploadRequest) (p : Io α) : Prop :=
  Reads P H r (fun _ => True) p

/-- The request may have changed something. -/
def World.Crossed (w : World) : Prop := w.mutation = .detachedCommit

/-- The response tells that the deadline of the request has passed. -/
def UploadResponse.reportsDeadline (res : UploadResponse) : Bool :=
  decide (res.status = .requestTimeout) && res.problem.any fun p =>
    decide (p.code = .requestTimeout ∨ p.code = .uploadOutcomeUnknown)

/-- The response does not deny what the request may have done. -/
structure UploadResponse.Candid (res : UploadResponse) : Prop where
  started : res.state ≠ some .notStarted
  deadline : res.reportsDeadline = true → res.state = some .unknown ∨
    res.state = some .awaitingConfirmation ∧ res.uploadOffset.isSome = true

/-- An error is rendered later. -/
def Exit.Candid : Exit → Prop
  | .reply res => res.Candid
  | .error _ => True

/-- What is asked of a response: it agrees with the client under an assumption, and past the
boundary it is candid. -/
structure UploadResponse.Settled (H : Prop) (past : Bool) (r : UploadRequest)
    (res : UploadResponse) : Prop where
  agrees : H → res.Agrees r.phase r.uploadLength
  candid : past = true → res.Candid

/-- An error is rendered later. -/
def Exit.Settled (H : Prop) (past : Bool) (r : UploadRequest) : Exit → Prop
  | .reply res => res.Settled H past r
  | .error _ => True

/-- The program stays across the boundary if it is started there, and ends with a result in `V`, a
response as asked or an error. -/
abbrev Settles {α : Type} (H : Prop) (past : Bool) (r : UploadRequest) (V : α → Prop) (p : Io α) :
    Prop :=
  Keeps (fun w => past = true → w.Crossed) V (Exit.Settled H past r) p

/-- A program whose result does not matter here. -/
abbrev SettlesAny {α : Type} (H : Prop) (past : Bool) (r : UploadRequest) (p : Io α) : Prop :=
  Settles H past r (fun _ => True) p

/-- A program that returns a response. -/
abbrev Responds (H : Prop) (past : Bool) (r : UploadRequest) (p : Io UploadResponse) : Prop :=
  Settles H past r (UploadResponse.Settled H past r) p

variable {H : Prop} {past awaiting : Bool} {site : Site} {r : UploadRequest} {α β : Type} {e : Exit}
  {p : Io α} {P : World → Prop} {V : α → Prop} {resumable : Option ℕ} {len size : ℕ}
  {message : String} {file : StageFile} {res : UploadResponse} {reserved : Option SpaceLease}
  {code : ErrorCode} {status : StatusCode}

lemma Exit.IsError.settled (h : e.IsError) : e.Settled H past r := by
  cases e with
  | reply res => exact h.elim
  | error e => trivial

lemma Exit.IsError.agrees (h : e.IsError) : e.Agrees r := by
  cases e with
  | reply res => exact h.elim
  | error e => trivial

lemma Calls.answers (h : Calls (fun _ => True) p) : AnswersAny r p :=
  h.mono (fun _ h => h) fun _ he => he.agrees

lemma Reads.of_keeps (h : Keeps P V Exit.IsError p) : Reads P H r V p :=
  h.mono (fun _ h => h) fun _ he _ => he.agrees

lemma Reads.answers (h : Reads (fun _ => True) True r V p) : Answers r V p :=
  h.mono (fun _ h => h) fun _ h => h trivial

/-- A call keeps to its side of the boundary, and its errors are rendered later. -/
lemma Calls.settles (h : Calls (fun m => past = true → m = .detachedCommit) p) :
    SettlesAny H past r p :=
  h.mono (fun _ h => h) fun _ he => he.settled

/-- A call whose errors the continuation handles. -/
lemma Calls.attempt_bind {f : Except Exit α → Io β} {V : β → Prop}
    (hp : Calls (fun m => past = true → m = .detachedCommit) p)
    (hok : ∀ a, Settles H past r V (f (.ok a)))
    (herr : ∀ e, e.IsError → Settles H past r V (f (.error e))) :
    Settles H past r V (p.attempt >>= f) :=
  Keeps.attempt_bind hp (fun a _ => hok a) herr

/-- Whatever side it is started on, the program answers as the client expects. -/
lemma Settles.answers (h : Settles True false r V p) : Answers r V p := by
  intro script w _
  refine (h script w nofun).mono (fun _ _ h => ⟨trivial, h.2⟩) (fun e _ h => ⟨trivial, ?_⟩)
    fun _ _ => trivial
  cases e with
  | reply res => exact h.2.agrees trivial
  | error e => trivial

/-! ### Responses -/

section Responses

variable {context : UploadErrorContext} {detail : String} {recovery : RecoveryAdvice}
  {state : UploadPublicState}

lemma phase_of_resume (h : r.mode.isResume = true) : r.phase = .resume := by
  unfold phase
  cases hmode : r.mode with
  | fresh => simp [hmode, UploadMode.isResume] at h
  | resume offset => rfl

lemma phase_of_fresh (h : r.mode.isResume = false) : r.phase = .fresh := by
  unfold phase
  cases hmode : r.mode with
  | fresh => rfl
  | resume offset => simp [hmode, UploadMode.isResume] at h

/-- A status that is expected with the state in either phase. -/
abbrev Expected (status : StatusCode) (state : UploadPublicState) : Prop :=
  status.asU16 ∈ freshUploadStatuses state ∧ status.asU16 ∈ resumeUploadStatuses state

/-- An error code that does not tell of the deadline. -/
abbrev Timely (code : ErrorCode) : Prop := code ≠ .requestTimeout ∧ code ≠ .uploadOutcomeUnknown

lemma mem_statuses (h : Expected status state) :
    status.asU16 ∈ uploadResponseStatuses r.phase state := by
  unfold phase
  cases r.mode with
  | fresh => exact h.1
  | resume offset => exact h.2

lemma phase_ne_checkpoint : r.phase ≠ .checkpoint := by
  unfold phase
  cases r.mode <;> nofun

lemma agrees_problem (hstat : status.asU16 ∈ uploadResponseStatuses r.phase context.state)
    (hlen : (uploadStateRule context.state).length.Allows (· = r.uploadLength)
      (context.uploadLength <|> res.uploadLength))
    (hoff : (uploadStateRule context.state).offset.Allows (· ≤ r.uploadLength)
      (context.uploadOffset <|> res.uploadOffset)) (hst : context.state ≠ .committed) :
    (applyUploadProblem context status code detail recovery res).Agrees r.phase r.uploadLength := by
  rintro state ⟨⟩ -
  exact ⟨hstat, hlen, hoff, fun h => absurd h hst, fun h => absurd h phase_ne_checkpoint⟩

/-- A request that was rejected before anything was recorded. -/
lemma agrees_rejected (hstat : Expected status .rejected) :
    (applyUploadProblem ⟨.rejected, some r.uploadLength, none⟩ status code detail recovery
      .empty).Agrees r.phase r.uploadLength :=
  agrees_problem (mem_statuses hstat) ⟨_, rfl, rfl⟩ (by rintro n ⟨⟩) nofun

lemma agrees_unknown (hlen : res.uploadLength = none)
    (hoff : ∀ k, res.uploadOffset = some k → k ≤ r.uploadLength) :
    (applyUploadUnknown detail res).Agrees r.phase r.uploadLength := by
  refine agrees_problem (mem_statuses (by decide)) (fun n hn => ?_) (fun n hn => ?_) nofun
  · cases hlen.symm.trans hn
  · exact hoff n hn

lemma offset_le (h : r.OffsetFits) {k : ℕ} (hk : r.mode.offset = some k) : k ≤ r.uploadLength := by
  have hinit : r.initialOffset = k := by simp [initialOffset, hk]
  exact hinit ▸ h

lemma agrees_notStarted (h : r.OffsetFits) (hstat : Expected status .notStarted) :
    (r.notStarted status code detail recovery).Agrees r.phase r.uploadLength := by
  refine agrees_problem (mem_statuses hstat) ⟨_, rfl, rfl⟩ (fun n hn => ?_) nofun
  refine offset_le h ?_
  simpa [empty] using hn

lemma agrees_uncertain (h : r.OffsetFits) (hstat : Expected status .unknown) :
    (r.uncertain status code detail recovery).Agrees r.phase r.uploadLength := by
  refine agrees_problem (mem_statuses hstat) (by rintro n ⟨⟩; rfl) (fun n hn => ?_) nofun
  refine offset_le h ?_
  simpa [empty] using hn

lemma agrees_running {off : ℕ} (hstat : status.asU16 ∈ uploadResponseStatuses r.phase .running)
    (h : off ≤ r.uploadLength) :
    (applyUploadProblem ⟨.running, some r.uploadLength, some off⟩ status code detail recovery
      .empty).Agrees r.phase r.uploadLength :=
  agrees_problem hstat ⟨_, rfl, rfl⟩ ⟨_, rfl, h⟩ nofun

/-- An upload that stopped is running if it can be resumed, and rejected otherwise. -/
lemma agrees_stopped (hrun : ∀ k, resumable = some k → k ≤ r.uploadLength ∧
      status.asU16 ∈ uploadResponseStatuses r.phase .running) (hrej : Expected status .rejected) :
    (stoppedUpload r resumable status code detail).Agrees r.phase r.uploadLength := by
  cases resumable with
  | none => exact agrees_rejected hrej
  | some k => exact agrees_running (hrun k rfl).2 (hrun k rfl).1

/-- The upload stops where the request began. -/
lemma agrees_stopped_initial (h : r.OffsetFits)
    (hrun : status.asU16 ∈ resumeUploadStatuses .running) (hrej : Expected status .rejected) :
    (stoppedUpload r r.mode.offset status code detail).Agrees r.phase r.uploadLength := by
  refine agrees_stopped (fun k hk => ⟨offset_le h hk, ?_⟩) hrej
  rw [phase_of_resume (UploadMode.resume_of_offset hk)]
  exact hrun

lemma agrees_empty {phase : UploadRequestPhase} {expectedLength : ℕ} :
    empty.Agrees phase expectedLength := by
  rintro state ⟨⟩

lemma candid_empty : empty.Candid := ⟨nofun, nofun⟩

lemma agrees_sessionNotFound : sessionNotFound.Agrees r.phase r.uploadLength :=
  agrees_problem (mem_statuses (by decide)) rfl rfl nofun

lemma candid_problem (hsta : context.state ≠ .notStarted) (hdeadline : status = .requestTimeout →
      code = .requestTimeout ∨ code = .uploadOutcomeUnknown → context.state = .unknown ∨
        context.state = .awaitingConfirmation ∧ context.uploadOffset.isSome = true) :
    (applyUploadProblem context status code detail recovery res).Candid where
  started h := hsta (Option.some.inj h)
  deadline h := by
    have h' : status = .requestTimeout ∧
        (code = .requestTimeout ∨ code = .uploadOutcomeUnknown) := by
      simpa [reportsDeadline, applyUploadProblem, applyUploadRecordHeaders] using h
    rcases hdeadline h'.1 h'.2 with hst | ⟨hst, hoff⟩
    · exact .inl (congrArg some hst)
    · obtain ⟨offset, hoff⟩ := Option.isSome_iff_exists.mp hoff
      exact .inr ⟨congrArg some hst, by
        simp [applyUploadProblem, applyUploadRecordHeaders, hoff]⟩

/-- A stop that is not due to the deadline. -/
lemma candid_stopped {r : UploadRequest} (h : Timely code) :
    (stoppedUpload r resumable status code detail).Candid := by
  refine candid_problem ?_ fun _ hcode => (hcode.elim h.1 h.2).elim
  split <;> nofun

/-! What is asked of the responses that can be rendered on either side of the boundary. -/

lemma settled_rejected (hstat : Expected status .rejected) (hcode : Timely code) :
    (applyUploadProblem ⟨.rejected, some r.uploadLength, none⟩ status code detail recovery
      .empty).Settled H past r :=
  ⟨fun _ => agrees_rejected hstat,
    fun _ => candid_problem nofun fun _ h => (h.elim hcode.1 hcode.2).elim⟩

lemma settled_unknown (hlen : res.uploadLength = none)
    (hoff : H → ∀ k, res.uploadOffset = some k → k ≤ r.uploadLength) :
    (applyUploadUnknown detail res).Settled H past r :=
  ⟨fun h => agrees_unknown hlen (hoff h), fun _ => candid_problem nofun fun _ _ => .inl rfl⟩

lemma settled_unknown_empty : (applyUploadUnknown detail .empty).Settled H past r :=
  settled_unknown rfl (by rintro - k ⟨⟩)

/-- Only a resumed request confirms a retained stage. -/
lemma settled_awaiting (hrsm : H → r.mode.isResume = true)
    (hstat : status.asU16 ∈ resumeUploadStatuses .awaitingConfirmation) :
    (applyAwaitingConfirmationProblem r.uploadLength status code detail).Settled H past r := by
  refine ⟨fun h => agrees_problem ?_ ⟨_, rfl, rfl⟩ ⟨_, rfl, Nat.le_refl _⟩ nofun, fun _ =>
    candid_problem nofun fun _ _ => .inr ⟨rfl, rfl⟩⟩
  rw [phase_of_resume (hrsm h)]
  exact hstat

/-- A resumed upload can be resumed again from where the request began. -/
lemma settled_running (hrsm : r.mode.isResume = true) (hoff : H → r.OffsetFits)
    (hstat : status.asU16 ∈ resumeUploadStatuses .running) (hcode : Timely code) :
    (applyUploadProblem ⟨.running, some r.uploadLength, some r.initialOffset⟩ status code detail
      recovery .empty).Settled H past r := by
  refine ⟨fun h => agrees_running ?_ (hoff h),
    fun _ => candid_problem nofun fun _ h => (h.elim hcode.1 hcode.2).elim⟩
  rw [phase_of_resume hrsm]
  exact hstat

lemma settled_stopped_initial (hoff : H → r.OffsetFits)
    (hrun : status.asU16 ∈ resumeUploadStatuses .running) (hrej : Expected status .rejected)
    (hcode : Timely code) : (stoppedUpload r r.mode.offset status code detail).Settled H past r :=
  ⟨fun h => agrees_stopped_initial (hoff h) hrun hrej, fun _ => candid_stopped hcode⟩

/-- A response that tells the whole length as its offset. -/
lemma settled_whole (hstat : status.asU16 ∈ uploadResponseStatuses r.phase state)
    (hst : state = .unknown ∨ state = .awaitingConfirmation) :
    (applyUploadProblem ⟨state, some r.uploadLength, some r.uploadLength⟩ status code detail
      recovery res).Settled H past r := by
  rcases hst with rfl | rfl
  · exact ⟨fun _ => agrees_problem hstat (by rintro n ⟨⟩; rfl)
      (by rintro n ⟨⟩; exact Nat.le_refl _) nofun,
      fun _ => candid_problem nofun fun _ _ => .inl rfl⟩
  · exact ⟨fun _ => agrees_problem hstat ⟨_, rfl, rfl⟩ ⟨_, rfl, Nat.le_refl _⟩ nofun,
      fun _ => candid_problem nofun fun _ _ => .inr ⟨rfl, rfl⟩⟩

end Responses

/-! ### Uploads that stop -/

lemma deadlineBeforeMutation_reads (hoff : H → r.OffsetFits) :
    ReadsAny P H r (deadlineBeforeMutation r message) :=
  deadlinePassed_keeps.bind fun _ _ => .when fun _ =>
    .throw fun h => agrees_notStarted (hoff h) (by decide)

/-- A rollback whose failure makes the outcome unknown. -/
lemma rollback_settles (hres : res.Settled H past r) :
    Responds H past r (do
      let cleanup ← (resetAndAncestors site true).attempt
      match cleanup with
      | .error _ => pure (applyUploadUnknown message .empty)
      | .ok () => pure res : Io UploadResponse) :=
  resetAndAncestors_calls.attempt_bind (fun _ => .pure hres) fun _ _ =>
    .pure settled_unknown_empty

section

variable (hoff : H → r.OffsetFits)

include hoff

lemma finishPrecommitSpaceFailure_settles :
    Responds H past r (finishPrecommitSpaceFailure site r file message) := by
  unfold finishPrecommitSpaceFailure
  split
  case isTrue hrsm =>
    exact truncateToCheckpoint_calls.settles.bind fun _ _ =>
      .pure (settled_running hrsm hoff (by decide) (by decide))
  case isFalse => exact rollback_settles (settled_rejected (by decide) (by decide))

lemma finishPrecommitIoFailure_settles :
    Responds H past r (finishPrecommitIoFailure site r message) := by
  unfold finishPrecommitIoFailure
  split
  case isTrue hrsm =>
    exact .pure (settled_running hrsm hoff (by decide) (by decide))
  case isFalse => exact rollback_settles (settled_rejected (by decide) (by decide))

lemma finishTimedOutAt_settles : Responds H past r (finishTimedOutAt site r file size message) := by
  unfold finishTimedOutAt
  split
  case isTrue hcp =>
    refine persistCheckpointInner_calls.attempt_bind (fun _ => .pure ?_) fun e he => ?_
    · exact settled_unknown rfl (by rintro - k ⟨⟩; exact hcp.2.1)
    · exact .bind (.when fun _ => discardFreshStage_calls.settles) fun _ _ => .throw he.settled
  case isFalse =>
    split
    · exact discardFreshStage_calls.settles.bind fun _ _ => .pure settled_unknown_empty
    · refine .bind (.when fun _ => cutBack_calls.settles) fun _ _ => .pure ?_
      exact settled_unknown rfl (by rintro h k ⟨⟩; exact hoff h)

lemma finishTimedOutUpload_settles :
    Responds H past r (finishTimedOutUpload site r file message) := by
  refine flush_calls.attempt_bind (fun file => ?_) fun e he => ?_
  · refine metadata_calls.attempt_bind (fun _ => finishTimedOutAt_settles hoff) fun e he => ?_
    exact .bind (.when fun _ => resetAndAncestors_calls.settles) fun _ _ => .throw he.settled
  · exact .bind (.when fun _ => discardFreshStage_calls.settles) fun _ _ => .throw he.settled

/-! ### The body -/

lemma finishExcessBody_settles : Responds H past r (finishExcessBody site r file) := by
  refine .bind (U := fun _ => True) ?_ fun _ _ =>
    .pure (settled_stopped_initial hoff (by decide) (by decide) (by decide))
  split
  · exact cutBack_calls.settles
  · exact drop_calls.settles.bind fun _ _ => resetAndAncestors_calls.settles

lemma finishInsufficientStorage_settles :
    Responds H past r (finishInsufficientStorage site r file) :=
  cutBack_calls.settles.bind fun _ _ => .bind (.when fun _ => resetAndAncestors_calls.settles)
    fun _ _ => .pure (settled_stopped_initial hoff (by decide) (by decide) (by decide))

end

/-- What is kept for a resumption does not exceed the upload. -/
lemma keepForResume_settles : Settles H past r (fun kept => kept = true → size ≤ r.uploadLength)
      (keepForResume site r file size) := by
  unfold keepForResume
  split
  case isTrue hcp =>
    exact persistCheckpointInner_calls.settles.bind fun _ _ => .pure fun _ => hcp.2.1
  case isFalse =>
    split
    · exact drop_calls.settles.bind fun _ _ => .throw trivial
    · exact drop_calls.settles.bind fun _ _ =>
        resetAndAncestors_calls.settles.bind fun _ _ => .pure nofun

section

variable (hoff : H → r.OffsetFits)

include hoff

lemma finishTransferError_settles {e : UploadTransferError} :
    Responds H past r (finishTransferError site r file e) := by
  cases e with
  | totalTimeout => exact finishTimedOutUpload_settles hoff
  | excessBody =>
    exact partialSize_calls.settles.bind fun _ _ => finishExcessBody_settles hoff
  | insufficientStorage =>
    exact partialSize_calls.settles.bind fun _ _ => finishInsufficientStorage_settles hoff
  | idleTimeout =>
    refine partialSize_calls.settles.bind fun found _ => keepForResume_settles.bind
      fun kept hkept => .pure ⟨fun _ => agrees_stopped (fun k hk => ?_) (by decide),
        fun _ => candid_stopped (by decide)⟩
    cases kept with
    | false => cases hk
    | true =>
      cases hk
      exact ⟨hkept rfl, mem_statuses (by decide)⟩
  | io kind =>
    exact partialSize_calls.settles.bind fun _ _ => keepForResume_calls.settles.bind fun _ _ =>
      .throw trivial

end

/-! ### The stage -/

lemma createStage_settles : SettlesAny H past r (createStage site r) := by
  refine createPrivateUploadStage_calls.attempt_bind (fun _ => .pure trivial) fun e he => ?_
  split
  case _ heq => exact .pure trivial
  case _ heq =>
    -- the client does not expect this answer
    refine .throw ⟨?_, fun _ => candid_problem nofun nofun⟩
    rintro - state - hclash
    cases hclash
  case _ heq => exact .throw (Except.error.inj heq ▸ he.settled)

lemma timedOutReply_keeps {X : Exit → Prop} (hemp : X (.reply .empty)) (hres : X (.reply res)) :
    Keeps P (fun _ => True) X (timedOutReply res) := by
  refine deadlinePassed_keeps.bind fun late _ => .throw ?_
  cases late with
  | false => exact hemp
  | true => exact hres

lemma trackCreated_settles : SettlesAny H past r (trackCreated file) := by
  refine Calls.attempt_bind fsStep_unit_keeps (fun _ => ?_) fun e he => ?_
  · exact deadlinePassed_keeps.bind fun _ _ => .when fun _ =>
      discardCreatedStage_calls.settles.bind fun _ _ => .throw settled_unknown_empty
  · refine discardCreatedStage_calls.settles.bind fun _ _ => ?_
    split
    · exact timedOutReply_keeps ⟨fun _ => agrees_empty, fun _ => candid_empty⟩ settled_unknown_empty
    · exact .throw he.settled

/-- A caught error that is raised again later. -/
lemma rethrow_settles {f : Except Exit α → Io β} {V : β → Prop}
    (hp : Calls (fun m => past = true → m = .detachedCommit) p)
    (hf : ∀ x : Except Exit α, (∀ e, x = .error e → e.IsError) → Settles H past r V (f x)) :
    Settles H past r V (p.attempt >>= f) := by
  refine hp.attempt_bind (fun a => hf _ ?_) fun e he => hf _ ?_
  · rintro e ⟨⟩
  · rintro e' ⟨⟩
    exact he

lemma rethrow_error_settles {x : Except Exit α} (h : ∀ e, x = .error e → e.IsError) :
    SettlesAny H past r (rethrow x) := by
  cases x with
  | ok a => exact .pure trivial
  | error e => exact .throw (h e rfl).settled

section

variable (hoff : H → r.OffsetFits)

include hoff

lemma recordFreshStage_settles : SettlesAny H past r (recordFreshStage site r file) := by
  refine deadlinePassed_keeps.bind fun late _ => .bind (.when fun _ => ?_) fun _ _ => ?_
  · exact (finishTimedOutUpload_settles hoff).bind fun res hres => .throw hres
  · refine persistCheckpointInner_calls.attempt_bind (fun _ => .pure trivial) fun e he => ?_
    refine rethrow_settles discardUnrecordedStage_calls fun discarded hdiscarded =>
      rethrow_settles reset_calls fun cleared hclr =>
      rethrow_settles fsStep_unit_keeps fun rolledBack hrolledBack => ?_
    exact (rethrow_error_settles hdiscarded).bind fun _ _ =>
      (rethrow_error_settles hclr).bind fun _ _ =>
      (rethrow_error_settles hrolledBack).bind fun _ _ => .throw he.settled

/-- A boundary that was crossed cannot be closed any more. -/
lemma beginUploadMutationOrReject_settles :
    SettlesAny H past r (beginUploadMutationOrReject r message) := by
  refine .ask_bind fun a => .bind (.when fun _ => .modify fun w hw hpast => ?_) fun _ _ =>
    .get_bind fun w hw => .modify_bind (fun w hw hpast => ?_) (.when fun hfalse => .throw
      ⟨fun h => agrees_notStarted (hoff h) (by decide), fun hpast => ?_⟩)
  · change (MutationProgress.cancelUploadBeforeMutation w.mutation).2 = _
    rw [show w.mutation = .detachedCommit from hw hpast]
    rfl
  · change (MutationProgress.beginUploadMutation w.mutation).2 = _
    rw [show w.mutation = .detachedCommit from hw hpast]
    rfl
  · rw [show w.mutation = .detachedCommit from hw hpast] at hfalse
    exact absurd hfalse (by decide)

end

lemma reserveFresh_reads : ReadsAny P H r (reserveFresh site r) := by
  refine .bind (Reads.of_keeps fsStep_keeps) fun _ _ =>
    .bind (Reads.of_keeps reserveAllocated_keeps) fun lease _ => ?_
  cases lease with
  | none => exact .throw fun _ => agrees_rejected (by decide)
  | some lease => exact .pure trivial

lemma stageFresh_answers (hoff : r.OffsetFits) : AnswersAny r (stageFresh site r) :=
  .bind (Reads.answers reserveFresh_reads) fun _ _ =>
    .bind (Reads.answers (deadlineBeforeMutation_reads fun _ => hoff)) fun _ _ =>
    (beginUploadMutationOrReject_settles fun _ => hoff).answers.bind fun _ _ =>
    createStage_settles.answers.bind fun _ _ => trackCreated_settles.answers.bind fun _ _ =>
    (recordFreshStage_settles fun _ => hoff).answers.bind fun _ _ => .pure trivial

section

variable (hoff : H → r.OffsetFits)

include hoff

lemma stopWhenLate_settles : SettlesAny H past r (stopWhenLate site r file message) := by
  refine deadlinePassed_keeps.bind fun late _ => .get_bind fun w hw => .bind (.when fun hlate => ?_)
    fun _ _ => deadlinePassed_keeps.bind fun late _ => .when fun _ => ?_
  · exact .throw ⟨fun h => agrees_notStarted (hoff h) (by decide),
      fun hpast => of_decide_eq_false hlate.2.2 (hw hpast) |>.elim⟩
  · exact (finishTimedOutUpload_settles hoff).bind fun res hres => .throw hres

lemma reserveTransfer_settles (haw : H → awaiting = true → r.mode.isResume = true) :
    SettlesAny H past r (reserveTransfer site r awaiting reserved) := by
  refine .bind (U := fun _ => True) ?_ fun lease _ => ?_
  · split
    · exact .pure trivial
    · exact Calls.settles reserveAllocated_keeps
  · split
    · exact .pure trivial
    · split
      case isTrue h => exact .throw (settled_awaiting (haw · h) (by decide))
      case isFalse =>
        exact .bind (.when fun _ => resetAndAncestors_calls.settles) fun _ _ =>
          .throw (settled_stopped_initial hoff (by decide) (by decide) (by decide))

omit hoff in
/-- The available space is asked for, and its lack is answered. -/
lemma confirm_settles {onLack : Io Unit} (h : SettlesAny H past r onLack) :
    SettlesAny H past r (do
      let avail ← reservedSpaceIsAvailable.attempt
      match avail with
      | .ok true => pure ()
      | .ok false | .error _ => onLack : Io Unit) := by
  refine Calls.attempt_bind reservedSpaceIsAvailable_keeps (fun avail => ?_) fun _ _ => h
  cases avail with
  | false => exact h
  | true => exact .pure trivial

lemma confirmSpace_settles (haw : H → awaiting = true → r.mode.isResume = true) :
    SettlesAny H past r (confirmSpace site r awaiting file) := by
  refine confirm_settles ?_
  unfold refuseUnconfirmed
  split
  case isTrue h => exact .throw (settled_awaiting (haw · h) (by decide))
  case isFalse =>
    exact (beginUploadMutationOrReject_settles hoff).bind fun _ _ =>
      (finishPrecommitSpaceFailure_settles hoff).bind fun res hres => .throw hres

lemma admitTransfer_settles {state : Option UploadRecordState}
    (haw : H → state = some .awaitingConfirmation → r.mode.isResume = true) :
    SettlesAny H past r (admitTransfer site r state file reserved) := by
  have haw' : H → decide (state = some .awaitingConfirmation) = true →
      r.mode.isResume = true := fun hH h => haw hH (of_decide_eq_true h)
  have hconfirm : SettlesAny H past r (confirmTransfer site r state file reserved) :=
    (stopWhenLate_settles hoff).bind fun _ _ => (reserveTransfer_settles hoff haw').bind
      fun _ _ => (confirmSpace_settles hoff haw').bind fun _ _ => .pure trivial
  exact hconfirm.bind fun _ _ => (stopWhenLate_settles hoff).bind fun _ _ =>
    (beginUploadMutationOrReject_settles hoff).bind fun _ _ => .pure trivial

end

/-! ### The commit -/

section Commit

/-- Only a resumed request confirms a stage, and it is answered with the status of its phase. -/
structure UploadTransaction.Fits (r : UploadRequest) (t : UploadTransaction) : Prop where
  awaiting : t.awaitingConfirmation = true → r.mode.isResume = true
  success : t.successStatus.asU16 ∈ uploadResponseStatuses r.phase .committed

variable {t : UploadTransaction}

lemma abandonUpload_settles {unconfirmed detail : String}
    (h : Expected status .rejected) (hcode : Timely code) :
    Settles H past r V (abandonUpload site r unconfirmed status code detail : Io α) :=
  resetAndAncestors_calls.attempt_bind (fun _ => .throw (settled_rejected h hcode)) fun _ _ =>
    .throw settled_unknown_empty

lemma startCommit_settles : SettlesAny H past r (startCommit site r file) :=
  persistComplete_calls.attempt_bind (fun _ => .pure trivial) fun _ _ =>
    noteSetback_calls.settles.bind fun _ _ => abandonUpload_settles (by decide) (by decide)

lemma confirmSpaceAfterStart_settles : SettlesAny H past r (confirmSpaceAfterStart site r) :=
  confirm_settles (noteSetback_calls.settles.bind fun _ _ =>
    abandonUpload_settles (by decide) (by decide))

lemma finishRejected_settles : Responds H past r (finishRejected site r file) := by
  refine persistComplete_calls.attempt_bind (fun _ => ?_) fun _ _ => .pure settled_unknown_empty
  refine replacementIdentity_calls.settles.bind fun _ _ => .pure ?_
  exact settled_whole (mem_statuses (by decide)) (.inr rfl)

lemma finishNotPublished_settles : Responds H past r (finishNotPublished site r) :=
  noteSetback_calls.settles.bind fun _ _ => resetAndAncestors_calls.settles.bind fun _ _ =>
    persistTerminal_calls.attempt_bind (fun _ => .pure (settled_rejected (by decide) (by decide)))
      fun _ _ => .pure (settled_rejected (by decide) (by decide))

lemma finishDurabilityUnknown_settles : Responds H past r (finishDurabilityUnknown site r) := by
  have hrep : Responds H past r (do
      removeEmptyStageDirectory
      pure <| applyUploadProblem ⟨.unknown, some r.uploadLength, some r.uploadLength⟩
        .internalServerError .uploadPublicationDurabilityUnknown
        "Upload commit was not confirmed; refresh the folder before trying again" .queryUpload
        .empty : Io UploadResponse) :=
    removeEmptyStageDirectory_calls.settles.bind fun _ _ =>
      .pure (settled_whole (mem_statuses (by decide)) (.inl rfl))
  exact persistUnknown_calls.attempt_bind (fun _ => hrep) fun _ _ => hrep

variable (ht : H → t.Fits r)

include ht

/-- While a stage waits for its confirmation, the answer repeats that. -/
lemma awaiting_settles
    (hstat : status.asU16 ∈ resumeUploadStatuses .awaitingConfirmation)
    (hp : Settles H past r V p) :
    Settles H past r V
      (if t.awaitingConfirmation then awaitingReply r status code message else p) := by
  split
  case isTrue h => exact .throw (settled_awaiting (fun hH => (ht hH).awaiting h) hstat)
  case isFalse => exact hp

lemma stagedLength_settles : SettlesAny H past r (stagedLength r t file) := by
  refine metadata_calls.attempt_bind (fun _ => .pure trivial) fun e he => ?_
  exact awaiting_settles ht (by decide) (.throw he.settled)

lemma checkStagedLength_settles : SettlesAny H past r (checkStagedLength site r t file len) := by
  refine .when fun _ => awaiting_settles ht (by decide) ?_
  refine .bind (U := fun _ => True) ?_ fun _ _ =>
    .throw ⟨fun _ => agrees_stopped (fun k hk => ?_) (by decide),
      fun _ => candid_stopped (by decide)⟩
  · split
    · exact persistCheckpointInner_calls.settles
    · exact resetAndAncestors_calls.settles
  · split at hk
    case isTrue hshort =>
      cases hk
      exact ⟨hshort.le, mem_statuses (by decide)⟩
    case isFalse => cases hk

lemma replayMetadata_settles : SettlesAny H past r (replayMetadata site r t file) := by
  unfold replayMetadata
  split
  · exact .pure trivial
  · refine applyReplacementMetadata_calls.attempt_bind (fun _ => .pure trivial) fun e he => ?_
    dsimp only
    split
    case isTrue h =>
      split
      · exact .throw (settled_awaiting (fun hH => (ht hH).awaiting h) (by decide))
      · exact .throw (settled_awaiting (fun hH => (ht hH).awaiting h) (by decide))
    case isFalse =>
      refine resetAndAncestors_calls.settles.bind fun _ _ => ?_
      split
      · exact .throw (settled_rejected (by decide) (by decide))
      · exact .throw he.settled

lemma confirmSpaceAfterReplay_settles : SettlesAny H past r (confirmSpaceAfterReplay site r t) := by
  exact confirm_settles <| awaiting_settles ht (by decide)
    (abandonUpload_settles (by decide) (by decide))

lemma finishPublished_settles : Responds H past r (finishPublished site r t) := by
  refine removeEmptyStageDirectory_calls.settles.bind fun _ _ =>
    persistTerminal_calls.attempt_bind (fun _ => .pure ?_) fun _ _ => .pure ?_
  · refine ⟨fun hH => ?_, fun _ => ⟨nofun, fun h => ?_⟩⟩
    · rintro state ⟨⟩ -
      exact ⟨(ht hH).success, ⟨_, rfl, rfl⟩, ⟨_, rfl, Nat.le_refl _⟩, fun _ => rfl,
        fun h => absurd h phase_ne_checkpoint⟩
    · simp [reportsDeadline, applyUploadRecordHeaders, empty] at h
  · exact settled_whole (mem_statuses (by decide)) (.inl rfl)

lemma commitReadyUpload_settles : Responds H past r (commitReadyUpload site r t file) := by
  refine commitStagedFile_calls.settles.bind fun outcome _ => ?_
  cases outcome with
  | published => exact finishPublished_settles ht
  | rejected => exact finishRejected_settles
  | notPublished => exact finishNotPublished_settles
  | publishedDurabilityUnknown => exact finishDurabilityUnknown_settles

variable (hoff : H → r.OffsetFits)

include hoff

lemma flushTransferred_settles : SettlesAny H past r (flushTransferred site r t) := by
  refine flush_calls.attempt_bind (fun _ => .pure trivial) fun e _ => ?_
  exact awaiting_settles ht (by decide)
    ((finishPrecommitIoFailure_settles hoff).bind fun res hres => .throw hres)

lemma confirmSpaceBeforeCommit_settles :
    SettlesAny H past r (confirmSpaceBeforeCommit site r t file) := by
  exact confirm_settles <| awaiting_settles ht (by decide)
    ((finishPrecommitSpaceFailure_settles hoff).bind fun res hres => .throw hres)

lemma deadlineBeforeCommit_settles : SettlesAny H past r (deadlineBeforeCommit site r t file) := by
  exact deadlinePassed_keeps.bind fun late _ => .when fun _ =>
    awaiting_settles ht (by decide)
      ((finishTimedOutUpload_settles hoff).bind fun res hres => .throw hres)

lemma prepareTransferredUpload_settles : Responds H past r (prepareTransferredUpload site r t) :=
  (flushTransferred_settles ht hoff).bind fun _ _ =>
    (confirmSpaceBeforeCommit_settles ht hoff).bind fun _ _ =>
    (deadlineBeforeCommit_settles ht hoff).bind fun _ _ =>
    (stagedLength_settles ht).bind fun _ _ =>
    (deadlineBeforeCommit_settles ht hoff).bind fun _ _ =>
    (checkStagedLength_settles ht).bind fun _ _ =>
    (deadlineBeforeCommit_settles ht hoff).bind fun _ _ =>
    (replayMetadata_settles ht).bind fun _ _ =>
    (confirmSpaceAfterReplay_settles ht).bind fun _ _ =>
    startCommit_settles.bind fun _ _ => confirmSpaceAfterStart_settles.bind fun _ _ =>
    commitReadyUpload_settles ht

lemma transferUploadBody_settles : Responds H past r (transferUploadBody site r t) := by
  refine (receiveUploadBody_calls _ _).settles.bind fun received _ => ?_
  split
  · exact prepareTransferredUpload_settles
      (fun hH => { awaiting := (ht hH).awaiting, success := (ht hH).success }) hoff
  · next e _ =>
    split
    case isTrue h =>
      refine .throw ?_
      cases e <;> exact settled_awaiting (fun hH => (ht hH).awaiting h) (by decide)
    case isFalse => exact finishTransferError_settles hoff

end Commit

end DufsRam
