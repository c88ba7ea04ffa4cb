import DufsRam.Upload.Commit

/-!
# The calls of an upload

The parts of an upload that render no response: the calls of the file system and of the store, and
what is made of them. They end early only with an error, and none of them moves the mutation
boundary.
-/

namespace DufsRam

open Crash StageFile

/-- An error, not a response. -/
def Exit.IsError : Exit → Prop
  | .reply _ => False
  | .error _ => True

variable {site : Site} {r : UploadRequest} {α : Type} {M : MutationProgress → Prop}
  {data : List UInt8} {len offset : ℕ} {file : StageFile} {expected id : StoredFileIdentity}
  {P : World → Prop} {created : Bool} {record : UploadRecordContext} {session : StoredUploadSession}
  {state : StoredUploadState}

/-! ### Calls -/

section Calls

lemma fail_keeps {V : α → Prop} {e : Failure} : Keeps P V Exit.IsError (fail e : Io α) :=
  .throw trivial

lemma fsStep_keeps : Keeps P (fun _ => True) Exit.IsError fsStep := by
  refine .ask_bind fun a => ?_
  cases a.error with
  | some kind => exact fail_keeps
  | none => exact .pure trivial

/-- A call whose answer is not looked at. -/
lemma fsStep_unit_keeps :
    Keeps P (fun _ => True) Exit.IsError (do let _ ← fsStep; pure () : Io Unit) :=
  fsStep_keeps.bind fun _ _ => .pure trivial

lemma deadlinePassed_keeps {X : Exit → Prop} : Keeps P (fun _ => True) X deadlinePassed :=
  .ask_bind fun _ => .pure trivial

lemma check_keeps {c : Prop} [Decidable c] {msg : String} :
    Keeps P (fun _ => True) Exit.IsError (check c msg) := by
  unfold check
  split
  · exact .pure trivial
  · exact fail_keeps

end Calls

/-- The program leaves the progress of its request alone, and ends early only with an error. -/
abbrev Calls {α : Type} (M : MutationProgress → Prop) (p : Io α) : Prop :=
  Keeps (fun w => M w.mutation) (fun _ => True) Exit.IsError p

@[simp] lemma mutation_meddle (a : Answer) (w : World) : (w.meddle a).mutation = w.mutation := by
  unfold World.meddle
  split <;> rfl

lemma storeStep_calls {cmd : TimeMs → Database → Result (α × Database)} :
    Calls M (storeStep cmd) := by
  refine .ask_bind fun a => ?_
  cases a.error with
  | some kind => exact fail_keeps
  | none =>
    refine .get_bind fun w _ => ?_
    cases cmd a.now w.db with
    | error message => exact fail_keeps
    | ok x => exact .modify_bind (fun _ h => h) (.pure trivial)

/-- The invariant survives what others do to the target. -/
def Unmeddled (P : World → Prop) : Prop := ∀ (a : Answer) w, P w → P (w.meddle a)

lemma unmeddled_mutation : Unmeddled fun w => M w.mutation := by
  intro a w h
  rwa [mutation_meddle]

namespace StageFile

lemma writeAll_calls : Calls M (file.writeAll data) := by
  refine .ask_bind fun a => .modify_bind (fun _ h => h) ?_
  cases a.error <;> exact .pure trivial

lemma flush_calls : Calls M file.flush := by
  refine .ask_bind fun a => ?_
  cases a.error with
  | some kind => exact .modify_bind (fun _ h => h) fail_keeps
  | none => exact .modify_bind (fun _ h => h) (.pure trivial)

lemma setLen_calls : Calls M (file.setLen len) := by
  refine .ask_bind fun a => .modify_bind (fun _ h => h) ?_
  cases a.error with
  | some kind => exact fail_keeps
  | none => exact .modify_bind (fun _ h => h) (.pure trivial)

lemma metadata_calls : Calls M file.metadata := by
  refine fsStep_keeps.bind fun a _ => .modify_bind (fun _ h => h) <| .get_bind fun w _ => ?_
  cases w.inodes file.identity with
  | none => exact fail_keeps
  | some n => exact .pure trivial

lemma drop_calls : Calls M file.drop := .ask_bind fun _ => .modify fun _ h => h

end StageFile

lemma syncFileToStorage_calls : Calls M (syncFileToStorage file) :=
  fsStep_keeps.bind fun _ _ => .modify fun _ h => h

lemma StageFile.seek_calls {pos : ℕ} : Calls M (file.seek pos) :=
  fsStep_keeps.bind fun _ _ => .pure trivial

lemma openStage_calls : Calls M openStage := by
  refine fsStep_keeps.bind fun _ _ => .get_bind fun w _ => ?_
  split
  · exact .pure trivial
  · exact fail_keeps

lemma stageMetadataNofollow_calls : Calls M stageMetadataNofollow := by
  refine fsStep_keeps.bind fun _ _ => .get_bind fun w _ => ?_
  split
  · exact .pure trivial
  · exact fail_keeps

lemma createPrivateUploadStage_calls : Calls M (createPrivateUploadStage site) := by
  refine fsStep_keeps.bind fun _ _ => .get_bind fun w _ => ?_
  split
  · exact fail_keeps
  · split
    · exact fail_keeps
    · exact .modify_bind (fun _ h => h) (.pure trivial)

lemma removeFileIfIdentity_calls : Calls M (removeFileIfIdentity expected) := by
  refine fsStep_keeps.bind fun _ _ => .get_bind fun w _ => ?_
  split
  · exact .pure trivial
  · split
    · exact .pure trivial
    · refine .ask_bind fun a => .bind (.when fun _ => .modify fun _ h => h) fun _ _ => ?_
      cases a.error with
      | some kind => exact fail_keeps
      | none => exact .pure trivial

lemma reserveAllocated_keeps {rem : ℕ} :
    Keeps P (fun _ => True) Exit.IsError (reserveAllocated site rem) := by
  refine fsStep_keeps.bind fun _ _ => ?_
  split
  · exact fail_keeps
  · exact .pure trivial

lemma reservedSpaceIsAvailable_keeps :
    Keeps P (fun _ => True) Exit.IsError reservedSpaceIsAvailable :=
  fsStep_keeps.bind fun _ _ => .pure trivial

/-! ### The target -/

section Target

variable {P : World → Prop} (hP : Unmeddled P)

include hP

lemma targetStep_keeps : Keeps P (fun _ => True) Exit.IsError targetStep := by
  refine .ask_bind fun a => .modify_bind (hP a) ?_
  cases a.error with
  | some kind => exact fail_keeps
  | none => exact .pure trivial

lemma replacementIdentity_keeps : Keeps P (fun _ => True) Exit.IsError replacementIdentity :=
  (targetStep_keeps hP).bind fun _ _ => .get_bind fun _ _ => .pure trivial

lemma captureMetadata_keeps {inspected : ExistingReplacementTarget} :
    Keeps P (fun _ => True) Exit.IsError (captureMetadata inspected) := by
  refine .ask_bind fun a => .modify_bind (hP a) ?_
  refine .bind (.when fun _ => fail_keeps) fun _ _ => .get_bind fun _ _ =>
    .bind (.when fun _ => fail_keeps) fun _ _ => .bind (.when fun _ => fail_keeps) fun _ _ =>
    (targetStep_keeps hP).bind fun _ _ => .get_bind fun w _ => ?_
  split
  · exact fail_keeps
  · exact .bind (.when fun _ => fail_keeps) fun _ _ => .bind (.when fun _ => fail_keeps)
      fun _ _ => .pure trivial

lemma replacementMetadata_keeps : Keeps P (fun _ => True) Exit.IsError replacementMetadata := by
  refine (replacementIdentity_keeps hP).bind fun identity _ => ?_
  split
  · exact .pure trivial
  · split
    · exact .pure trivial
    · exact .bind (.when fun _ => fail_keeps) fun _ _ => captureMetadata_keeps hP
    · exact fail_keeps
    · exact fail_keeps

end Target

lemma replacementIdentity_calls : Calls M replacementIdentity :=
  replacementIdentity_keeps unmeddled_mutation

lemma applyMetadataChanges_calls (changes : List MetadataChange) :
    Calls M (applyMetadataChanges id changes) := by
  induction changes with
  | nil => exact .pure trivial
  | cons change rest ih => exact fsStep_keeps.bind fun _ _ => .modify_bind (fun _ h => h) ih

lemma applyReplacementMetadata_calls {metadata : PreservedFileMetadata} :
    Calls M (applyReplacementMetadata file metadata) := by
  refine fsStep_keeps.bind fun _ _ => .get_bind fun w _ => ?_
  split
  · exact fail_keeps
  · exact applyMetadataChanges_calls _

lemma confirmRename_calls : Calls M (confirmRename created) := by
  have hverified : Calls M
      (if created then fsStep.attempt else pure (.ok {}) : Io (Except Exit Answer)) := by
    split
    · exact fsStep_keeps.attempt (fun _ _ => trivial) fun _ _ => trivial
    · exact .pure trivial
  refine hverified.bind fun verified _ => ?_
  refine .attempt_bind fsStep_keeps (fun a _ => ?_) fun e _ => ?_
  · cases verified <;> exact .pure trivial
  · cases verified <;> exact .pure trivial

lemma renameStage_calls {expected : ReplacementTargetIdentity} :
    Calls M (renameStage site id expected) := by
  refine .ask_bind fun a => .modify_bind (unmeddled_mutation a) (.get_bind fun w _ => ?_)
  split
  · exact .pure trivial
  · split
    · exact .pure trivial
    · split
      · exact .pure trivial
      · exact .modify_bind (fun _ h => h) confirmRename_calls

lemma commitStagedFile_calls {expected : ReplacementTargetIdentity} :
    Calls M (commitStagedFile site file expected) := by
  refine .attempt_bind syncFileToStorage_calls (fun _ _ => ?_) fun _ _ => .pure trivial
  refine .ask_bind fun a => .modify_bind (unmeddled_mutation a) (.get_bind fun w _ => ?_)
  split
  · exact .pure trivial
  · split
    · exact .pure trivial
    · split
      · exact .pure trivial
      · split
        · exact .pure trivial
        · exact renameStage_calls

/-! ### The record -/

lemma loadSession_calls : Calls M (loadSession site) := storeStep_calls

lemma validResumableStage_calls {expected : Option StoredFileIdentity} :
    Calls M (validResumableStage offset expected) := by
  cases expected with
  | none => exact .pure trivial
  | some identity =>
    refine .attempt_bind openStage_calls (fun file _ => ?_) fun e he => ?_
    · exact metadata_calls.bind fun _ _ => .pure trivial
    · dsimp only
      split
      · exact .pure trivial
      · exact .throw he

lemma openRecordedStage_calls {identity : StoredFileIdentity} {expected : UploadRecordState} :
    Calls M (openRecordedStage identity offset expected) := by
  refine .attempt_bind openStage_calls (fun file _ => ?_) fun e he => ?_
  · exact metadata_calls.bind fun _ _ => .pure trivial
  · dsimp only
    split
    · exact .pure trivial
    · exact .throw he

lemma openResumableStage_calls {expected : UploadRecordState} :
    Calls M (openResumableStage site len offset expected) := by
  refine loadSession_calls.bind fun session _ => ?_
  cases session with
  | none => exact .pure trivial
  | some session =>
    dsimp only
    split
    · split
      · exact .pure trivial
      · exact openRecordedStage_calls
    · exact .pure trivial

lemma saveSession_calls : Calls M (saveSession site session) := by
  unfold saveSession
  split
  · exact fail_keeps
  · refine storeStep_calls.bind fun saved _ => ?_
    cases saved with
    | inserted | updated | unchanged => exact .pure trivial
    | conflict | full => exact fail_keeps

lemma persistState_calls {identity : Option StoredFileIdentity} :
    Calls M (persistState site record offset state identity) := by
  refine .bind (U := fun _ => True) ?_ fun _ _ => saveSession_calls
  split
  · exact loadSession_calls
  · exact .pure trivial

lemma syncAndIdentifyStage_calls : Calls M (syncAndIdentifyStage file offset) :=
  flush_calls.bind fun _ _ => syncFileToStorage_calls.bind fun _ _ =>
    metadata_calls.bind fun _ _ => check_keeps.bind fun _ _ => check_keeps.bind fun _ _ =>
      check_keeps.bind fun _ _ => stageMetadataNofollow_calls.bind fun _ _ =>
        check_keeps.bind fun _ _ => .pure trivial

lemma persistCheckpointInner_calls {init : Bool} :
    Calls M (persistCheckpointInner site file record offset init) :=
  check_keeps.bind fun _ _ => syncAndIdentifyStage_calls.bind fun _ _ =>
    .bind (.when fun _ => fsStep_unit_keeps) fun _ _ => persistState_calls

lemma persistComplete_calls : Calls M (persistComplete site state file record) :=
  syncAndIdentifyStage_calls.bind fun _ _ => persistState_calls

lemma persistTerminal_calls {state : UploadRecordState} :
    Calls M (persistTerminal site record offset state) := by
  cases state with
  | committed | rejected => exact persistState_calls
  | running | awaitingConfirmation | unknown => exact fail_keeps

lemma persistUnknown_calls : Calls M (persistUnknown site record offset) :=
  check_keeps.bind fun _ _ => persistState_calls

lemma removeStage_calls : Calls M (removeStage expected) := by
  refine removeFileIfIdentity_calls.bind fun outcome _ => ?_
  cases outcome with
  | removedOrAbsent => exact .pure trivial
  | replacementPreserved => exact fail_keeps

lemma removeSession_calls : Calls M (removeSession session) :=
  storeStep_calls.bind fun _ _ => .when fun _ => fail_keeps

lemma reset_calls : Calls M (reset site) := by
  refine loadSession_calls.bind fun session _ => ?_
  cases session with
  | none => exact .pure trivial
  | some session =>
    dsimp only
    split
    · exact fail_keeps
    · refine .bind (U := fun _ => True) ?_ fun _ _ =>
        removeSession_calls.bind fun _ _ => fsStep_unit_keeps
      split
      · exact removeStage_calls
      · exact .pure trivial

lemma discardUnrecordedStage_calls : Calls M (discardUnrecordedStage file) :=
  metadata_calls.bind fun _ _ => check_keeps.bind fun _ _ =>
    removeStage_calls.bind fun _ _ => fsStep_unit_keeps

lemma resetAndAncestors_calls : Calls M (resetAndAncestors site created) :=
  reset_calls.bind fun _ _ => .when fun _ => fsStep_unit_keeps

/-! ### The stage and the body -/

lemma cutBack_calls : Calls M (cutBack r file) :=
  setLen_calls.bind fun _ _ => syncFileToStorage_calls

lemma truncateToCheckpoint_calls : Calls M (truncateToCheckpoint r file) := by
  refine .attempt_bind setLen_calls (fun file _ => ?_) fun _ _ => .pure trivial
  exact .attempt_bind syncFileToStorage_calls (fun _ _ => .pure trivial) fun _ _ => .pure trivial

lemma discardFreshStage_calls : Calls M (discardFreshStage site file) := by
  refine .attempt_bind discardUnrecordedStage_calls (fun _ _ => ?_) fun e he => ?_
  · exact resetAndAncestors_calls.bind fun _ _ => .pure trivial
  · exact resetAndAncestors_calls.bind fun _ _ => .throw he

lemma recheckSpace_calls {needed : Prop} [Decidable needed] : Calls M (recheckSpace needed) := by
  unfold recheckSpace
  split
  · refine .attempt_bind reservedSpaceIsAvailable_keeps (fun avail _ => ?_) fun e _ => ?_
    · cases avail <;> exact .pure trivial
    · split <;> exact .pure trivial
  · exact .pure trivial

lemma writeUploadChunk_calls {t : Receiver} : Calls M (writeUploadChunk data t) := by
  unfold writeUploadChunk
  split
  · exact .pure trivial
  · refine recheckSpace_calls.bind fun space _ => ?_
    cases space with
    | some e => exact .pure trivial
    | none =>
      refine writeAll_calls.bind fun written _ => ?_
      split
      · exact .pure trivial
      · exact deadlinePassed_keeps.bind fun _ _ => .pure trivial

lemma receiveUploadBody_calls (body : List BodyEvent) :
    ∀ t : Receiver, Calls M (receiveUploadBody body t) := by
  induction body with
  | nil => exact fun _ => .pure trivial
  | cons event rest ih =>
    intro t
    cases event with
    | failure | shutdown | idle | total => exact .pure trivial
    | chunk bytes =>
      unfold receiveUploadBody
      split
      · exact ih t
      · split
        · exact .pure trivial
        · refine writeUploadChunk_calls.bind fun written _ => ?_
          split
          · exact .pure trivial
          · split
            · exact .pure trivial
            · exact ih _

lemma partialSize_calls : Calls M (partialSize r file) := by
  refine .attempt_bind metadata_calls (fun _ _ => .pure trivial) fun e he => ?_
  dsimp only
  split
  · exact drop_calls.bind fun _ _ => .throw he
  · exact .pure trivial

lemma keepForResume_calls {size : ℕ} : Calls M (keepForResume site r file size) := by
  unfold keepForResume
  split
  · exact persistCheckpointInner_calls.bind fun _ _ => .pure trivial
  · split
    · exact drop_calls.bind fun _ _ => fail_keeps
    · exact drop_calls.bind fun _ _ => resetAndAncestors_calls.bind fun _ _ =>
        .pure trivial

lemma discardCreatedStage_calls : Calls M (discardCreatedStage file) := by
  refine .attempt_bind discardUnrecordedStage_calls (fun _ _ => ?_) fun e he => ?_
  · exact fsStep_unit_keeps.bind fun _ _ => .pure trivial
  · exact fsStep_unit_keeps.bind fun _ _ => .throw he

lemma noteSetback_calls {setback : Setback} : Calls M (noteSetback setback) := .modify fun _ h => h

lemma removeEmptyStageDirectory_calls : Calls M removeEmptyStageDirectory :=
  .attempt_bind fsStep_keeps (fun _ _ => .pure trivial) fun _ _ => .pure trivial

end DufsRam
