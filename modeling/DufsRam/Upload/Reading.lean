import DufsRam.Upload.Answers

/-!
# What an upload reads

Before it changes anything, an upload looks at its record, at the target and at its checkpoint. What
it finds may end the request; the response then agrees with the client if the record is that of an
upload of this length.
-/

namespace DufsRam

open Crash Client StatusCode

variable {α : Type} {H : Prop} {P : World → Prop} {site : Site} {r : UploadRequest}
  {code : ErrorCode} {detail : String} {recovery : RecoveryAdvice} {c : UploadCheckpoint}
  {existing checkpoint : Option UploadCheckpoint} {status : StatusCode}
  {inspection : UploadTargetInspection} {state : UploadPublicState} {len off : ℕ} {V : α → Prop}

/-! ### The record -/

/-- The record is that of an upload of this length. -/
structure UploadCheckpoint.Fits (expectedLength : ℕ) (c : UploadCheckpoint) : Prop where
  length : c.uploadLength = expectedLength
  offset : c.durableOffset ≤ expectedLength
  committed : c.state = .committed → c.durableOffset = expectedLength

def RecordFits (expectedLength : ℕ) (existing : Option UploadCheckpoint) : Prop :=
  ∀ c, existing = some c → c.Fits expectedLength

lemma allows_some {presence : FieldPresence} {bound : ℕ → Prop} {n : ℕ}
    (hpresence : presence ≠ .absent) (h : bound n) : presence.Allows bound (some n) := by
  cases presence with
  | absent => exact absurd rfl hpresence
  | optional =>
    rintro _ ⟨⟩
    exact h
  | required => exact ⟨n, rfl, h⟩

/-- Only a session that was never seen has neither a length nor an offset. -/
lemma rule_ne_absent (h : state ≠ .notSeen) :
    (uploadStateRule state).length ≠ .absent ∧ (uploadStateRule state).offset ≠ .absent := by
  cases state with
  | notSeen => exact absurd rfl h
  | _ => exact ⟨nofun, nofun⟩

/-- A problem that reports a length and an offset, in a state whose rule wants them. -/
lemma agrees_reported {res : UploadResponse}
    (hstat : status.asU16 ∈ uploadResponseStatuses r.phase state)
    (hst : state ≠ .notSeen ∧ state ≠ .committed) (hlen : len = r.uploadLength)
    (hoff : off ≤ r.uploadLength) :
    (applyUploadProblem ⟨state, some len, some off⟩ status code detail recovery
      res).Agrees r.phase r.uploadLength :=
  agrees_problem hstat (allows_some (rule_ne_absent hst.1).1 hlen)
    (allows_some (rule_ne_absent hst.1).2 hoff) hst.2

lemma agrees_record (hc : c.Fits r.uploadLength)
    (hstat : status.asU16 ∈ freshUploadStatuses state ∧ status.asU16 ∈ resumeUploadStatuses state)
    (hst : state ≠ .notSeen ∧ state ≠ .committed) :
    (c.problem state status code detail recovery).Agrees r.phase r.uploadLength :=
  agrees_reported (mem_statuses hstat) hst hc.length hc.offset

lemma agrees_committedReply (hc : c.Fits r.uploadLength) (hst : c.state = .committed) :
    (c.committedReply r).Agrees r.phase r.uploadLength := by
  have hstat : ok.asU16 ∈ uploadResponseStatuses r.phase .committed :=
    mem_statuses (by decide)
  unfold UploadCheckpoint.committedReply
  rw [if_pos hc.length]
  rintro state ⟨⟩ -
  exact ⟨hstat, ⟨_, rfl, hc.length⟩, ⟨_, rfl, hc.offset⟩,
    fun _ => congrArg some (hc.committed hst), fun h => absurd h phase_ne_checkpoint⟩

/-- The states of a record that a conflict over the target reports. -/
lemma agrees_conflictContext (hex : RecordFits r.uploadLength existing) :
    (applyUploadProblem (conflictContext r existing) .conflict code detail recovery
      (applyTargetInspectionHeaders inspection .empty)).Agrees r.phase r.uploadLength := by
  have hcon : ∀ state : UploadPublicState, conflict.asU16 ∈
      freshUploadStatuses state ∧ conflict.asU16 ∈ resumeUploadStatuses state →
      conflict.asU16 ∈ uploadResponseStatuses r.phase state :=
    fun _ h => mem_statuses h
  cases existing with
  | none => exact agrees_problem (hcon .notStarted (by decide)) ⟨_, rfl, rfl⟩ (by rintro n ⟨⟩) nofun
  | some c =>
    have hoff := (hex c rfl).offset
    rcases hst : c.state with _ | _ | _ | _ | _ <;>
      simp only [conflictContext, Option.map_some, hst] <;>
      exact agrees_reported (hcon _ (by decide)) (by decide) rfl hoff

lemma trackResumed_reads (hoff : H → r.OffsetFits) : ReadsAny P H r (trackResumed r) := by
  refine Keeps.attempt_bind fsStep_unit_keeps (fun _ _ => deadlineBeforeMutation_reads hoff)
    fun e he => ?_
  split
  · cases ‹_ = Except.ok _›
  · exact .throw fun _ => agrees_sessionNotFound
  · exact .throw fun _ => agrees_sessionNotFound
  · exact timedOutReply_keeps (fun _ => agrees_empty) fun h =>
      agrees_notStarted (hoff h) (by decide)
  · next heq => exact .throw (Except.error.inj heq ▸ fun _ => he.agrees)

/-! ### The target -/

lemma createOnlyTarget_reads (hex : H → RecordFits r.uploadLength existing) :
    ReadsAny P H r (createOnlyTarget r existing inspection) := by
  unfold createOnlyTarget
  split
  case isTrue => exact .throw fun h => agrees_conflictContext (hex h)
  case isFalse =>
    split
    case isTrue hbd =>
      cases existing with
      | none => simp at hbd
      | some c =>
        exact .throw fun h => agrees_reported (mem_statuses (by decide)) (by decide) rfl
          (hex h c rfl).offset
    case isFalse => exact .pure trivial

section Target

variable (hP : Unmeddled P)

include hP

lemma renderUploadTargetConflict_reads {ctx : UploadErrorContext}
    (h : ∀ inspection code detail, H → (applyUploadProblem ctx .conflict code detail
      .refreshTarget (applyTargetInspectionHeaders inspection .empty)).Agrees r.phase
      r.uploadLength) :
    Reads P H r V (do
      let res ← renderUploadTargetConflict site ctx
      reply res : Io α) := by
  refine .bind (U := fun res => H → res.Agrees r.phase r.uploadLength) ?_
    fun res hres => .throw hres
  exact .bind (Reads.of_keeps (replacementIdentity_keeps hP)) fun _ _ => .pure (h _ _ _)

lemma answerExisting_reads (hc : H → c.Fits r.uploadLength) :
    ReadsAny P H r (answerExisting site r c) := by
  unfold answerExisting
  cases hst : c.state with
  | committed => exact .throw fun h => agrees_committedReply (hc h) hst
  | rejected | unknown => exact .throw fun h => agrees_record (hc h) (by decide) (by decide)
  | running =>
    exact .when fun _ => .throw fun h => agrees_record (hc h) (by decide) (by decide)
  | awaitingConfirmation =>
    dsimp only
    split
    case isTrue =>
      exact renderUploadTargetConflict_reads hP fun _ _ _ h =>
        agrees_reported (mem_statuses (by decide)) (by decide) (hc h).length (hc h).offset
    case isFalse =>
      split
      case isTrue hlen => exact .throw fun h => absurd (hc h).length hlen
      case isFalse =>
        split
        · exact .throw fun h => agrees_record (hc h) (by decide) (by decide)
        · exact .pure trivial

variable (hex : H → RecordFits r.uploadLength existing)

include hex

lemma checkExisting_reads : ReadsAny P H r (checkExisting site r existing) := by
  cases existing with
  | some c => exact answerExisting_reads hP fun h => hex h c rfl
  | none => exact .when fun _ => .throw fun _ => agrees_rejected (by decide)

lemma targetConflict_reads : Reads P H r V (targetConflict site r existing) :=
  renderUploadTargetConflict_reads hP fun _ _ _ h => agrees_conflictContext (hex h)

lemma overwriteTarget_reads {expected : Revision} :
    ReadsAny P H r (overwriteTarget site r existing inspection expected) := by
  unfold overwriteTarget
  split
  case isTrue => exact targetConflict_reads hP hex
  case isFalse =>
    refine Keeps.attempt_bind (replacementMetadata_keeps hP) (fun target _ => ?_) fun e he => ?_
    · dsimp only
      split
      · exact targetConflict_reads hP hex
      · exact .pure trivial
    · dsimp only
      split
      · exact targetConflict_reads hP hex
      · exact .throw fun _ => he.agrees

lemma chooseTarget_reads : ReadsAny P H r (chooseTarget site r existing) := by
  refine .bind (Reads.of_keeps (replacementIdentity_keeps hP)) fun identity _ => ?_
  split
  · exact createOnlyTarget_reads hex
  · exact overwriteTarget_reads hP hex

end Target

/-! ### The checkpoint -/

/-- A resumed upload has a checkpoint, a fresh one has none. -/
lemma sessionCheckpoint_reads (hex : H → RecordFits r.uploadLength existing) :
    Reads P H r (fun checkpoint => checkpoint.isSome = r.mode.isResume ∧
      (H → RecordFits r.uploadLength checkpoint)) (sessionCheckpoint r existing) := by
  unfold sessionCheckpoint
  split
  case isTrue hmode =>
    cases existing with
    | some c => exact .pure ⟨hmode.symm, hex⟩
    | none => exact .throw fun _ => agrees_sessionNotFound
  case isFalse hmode => exact .pure ⟨by simpa using hmode, nofun⟩

/-- A problem in the state of a checkpoint that can be resumed. -/
lemma agrees_publicState (hrsm : r.mode.isResume = true)
    (h : status.asU16 ∈ resumeUploadStatuses .running ∧
      status.asU16 ∈ resumeUploadStatuses .awaitingConfirmation)
    (hlen : len = r.uploadLength) (hle : off ≤ r.uploadLength) (state : UploadRecordState) :
    (applyUploadProblem ⟨state.publicState, some len, some off⟩ status code detail recovery
      .empty).Agrees r.phase r.uploadLength := by
  have hphase := phase_of_resume hrsm
  unfold UploadRecordState.publicState
  split
  · exact agrees_reported (hphase ▸ h.2) (by decide) hlen hle
  · exact agrees_reported (hphase ▸ h.1) (by decide) hlen hle

lemma checkCheckpoint_reads (hsome : checkpoint.isSome = r.mode.isResume)
    (hcp : H → RecordFits r.uploadLength checkpoint) :
    ReadsAny P H r (checkCheckpoint r checkpoint) := by
  cases checkpoint with
  | none => exact .pure trivial
  | some c =>
    have hc : H → c.Fits r.uploadLength := fun h => hcp h c rfl
    unfold checkCheckpoint
    dsimp only
    split
    case isTrue hlen => exact .throw fun h => absurd (hc h).length hlen
    case isFalse =>
      split
      · exact .throw fun h =>
          agrees_publicState hsome.symm (by decide) (hc h).length (hc h).offset c.state
      · exact .pure trivial

lemma offset_of_resume (h : r.mode.isResume = true) : r.mode.offset = some r.initialOffset := by
  unfold UploadRequest.initialOffset
  cases hmode : r.mode with
  | fresh => simp [hmode, UploadMode.isResume] at h
  | resume offset => rfl

lemma checkContentLength_reads (hoff : H → r.OffsetFits)
    (hsome : checkpoint.isSome = r.mode.isResume) :
    ReadsAny P H r (checkContentLength r checkpoint) := by
  refine .bind (Reads.of_keeps check_keeps) fun _ _ => .when fun _ => ?_
  cases checkpoint with
  | none =>
    rw [UploadMode.offset_of_fresh hsome.symm]
    exact .throw fun _ => agrees_rejected (by decide)
  | some c =>
    rw [offset_of_resume hsome.symm]
    exact .throw fun h => agrees_publicState hsome.symm (by decide) rfl (hoff h) c.state

end DufsRam
