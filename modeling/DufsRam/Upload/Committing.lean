import DufsRam.Upload.Preparing
import DufsRam.Upload.Commit

/-!
# What the commit of an upload ensures

From a transferred body to the response: until the start is recorded the stage stays bound to its
row, the rename needs a recorded start, and what is recorded afterwards is what has happened.
-/

namespace DufsRam

open Crash Session Ensures StageFile StoredUploadState

variable {site : Site} {r : UploadRequest} {w w' : World} {s s' : Session} {file : StageFile}
  {t : UploadTransaction} {α : Type} {code : ErrorCode} {status : StatusCode} {awaiting : Bool}
  {E : Exit → Session → Prop} {expected : ReplacementTargetIdentity} {row : StoredUploadSession}
  {res : UploadResponse} {Q : α → World → Prop} {k : ℕ} {detail unconfirmed : String} {n : Inode}
  {e : Failure} {mutation : MutationProgress} {c : UploadCheckpoint} {π : Protocol Session}

/-! ### Before the start is recorded -/

lemma awaitingReply_runs {msg : String} (h : (w.session site).Durable r.uploadLength) :
    Ensures (protocol site r) (World.session site) (awaitingReply r status code msg) Q
      (fun e w' => Leaves r e (w'.session site)) w :=
  .throw (honest_durable h rfl rfl nofun)

/-- A descriptor of a retained stage is idle, and any other belongs to a running upload. -/
lemma Session.Bound.flushed_eq (h : Bound r awaiting file s) : file.flushed = file ∨ s.Running := by
  cases awaiting with
  | false => exact .inr h.allRunning
  | true =>
    obtain ⟨row, hrow, hbnd⟩ := h.row
    rcases h.state row hrow with hrun | ⟨-, -, hidle, -⟩
    · simp [hbnd.state] at hrun
    · exact .inl (flushed_of_idle hidle)

/-- The two ways a failure before the commit is answered. -/
lemma Session.Bound.fail_runs {confirmation retry : Io α}
    {E : Exit → World → Prop} (h : Bound r awaiting file s) (hk : Kept s (w.session site))
    (hinv : s.Inv site) (hconfirmation : (w.session site).Durable r.uploadLength →
      Ensures (protocol site r) (World.session site) confirmation Q E w)
    (hretry : (w.session site).Running →
      Ensures (protocol site r) (World.session site) retry Q E w) :
    Ensures (protocol site r) (World.session site) (if awaiting then confirmation else retry) Q E
      w := by
  cases awaiting with
  | true => exact hconfirmation ((h.complete hinv).1.kept hk)
  | false => exact hretry (h.allRunning.kept hk)

lemma flushTransferred_runs (h : Bound r t.awaitingConfirmation t.file (w.session site)) :
    Serves site r (flushTransferred site r t) (fun file s' =>
      Bound r t.awaitingConfirmation file s' ∧ file.queued = []) w := by
  refine .with_inv fun hinv => ?_
  refine attempt_bind (flush_runs (.refl _) h.toWritten) (fun file w' hfls => ?_) fun e w' he => ?_
  · obtain ⟨rfl, hk, hwr⟩ := hfls
    exact .pure ⟨h.move hk hwr rfl h.flushed_eq, queued_flushed⟩
  · refine h.fail_runs he.2 hinv awaitingReply_runs fun hrun => ?_
    exact (finishPrecommitIoFailure_runs hrun fun hrsm => (h.resumed hrsm).kept he.2).bind
      fun res _ hres => .throw hres

section

variable (h : Bound r t.awaitingConfirmation file (w.session site))

include h

lemma confirmSpaceBeforeCommit_runs :
    Serves site r (confirmSpaceBeforeCommit site r t file) (fun _ => Quiet (w.session site)) w := by
  refine .with_inv fun hinv => confirmed_runs fun w' hq => ?_
  refine h.fail_runs hq.kept hinv awaitingReply_runs fun hrun => ?_
  exact (finishPrecommitSpaceFailure_runs (h.quiet hq).toStaged hrun).bind fun res _ hres =>
    .throw hres

lemma deadlineBeforeCommit_runs :
    Serves site r (deadlineBeforeCommit site r t file) (fun _ => Quiet (w.session site)) w := by
  refine .with_inv fun hinv => (deadlinePassed_runs (.refl _)).bind fun late w' hq => ?_
  refine .when (fun _ => ?_) fun _ => hq
  refine h.fail_runs hq.kept hinv awaitingReply_runs fun _ => ?_
  exact (finishTimedOutUpload_runs (h.quiet hq).toStaged).bind fun res _ hres => .throw hres

lemma stagedLength_runs (hidle : file.queued = []) :
    Serves site r (stagedLength r t file) (fun x s' => Quiet (w.session site) s' ∧ x.1 = file ∧
      x.2 = file.pos) w := by
  refine .with_inv fun hinv => ?_
  refine attempt_bind (metadata_idle_runs (.refl _) hidle) (fun found w' hfnd => ?_)
    fun e w' he => ?_
  · obtain ⟨hq, hfile, -, n, hn, hlen⟩ := hfnd
    obtain ⟨m, hm, -, hpos, -⟩ := h.inode
    cases hn.symm.trans hm
    exact .pure ⟨hq, hfile, hlen.trans hpos⟩
  · exact h.fail_runs he.2.kept hinv awaitingReply_runs fun _ => .throw he.leaves

/-- Only a stage of the declared length goes on. -/
lemma checkStagedLength_runs :
    Serves site r (checkStagedLength site r t file k) (fun _ s' => s' = w.session site ∧
      k = r.uploadLength) w := by
  refine .with_inv fun hinv => .when (fun _ => ?_) fun heq => ⟨rfl, not_not.1 heq⟩
  refine h.fail_runs (.refl _) hinv awaitingReply_runs fun hrun => ?_
  refine Ensures.bind (Q := fun _ w' => k < r.uploadLength → (w'.session site).Durable k) ?_
    fun _ w' hdur => .throw (honest_stopped fun j hj => ?_)
  · split
    case isTrue =>
      exact (persistCheckpointInner_runs (.refl _) h.toWritten hrun.unfinished rfl
        fun _ => rfl).mono (fun _ _ hsvd _ => ⟨_, hsvd.1.row, Nat.le_refl _⟩)
        fun _ _ h => h.leaves
    case isFalse hlng =>
      exact (giveUp_runs hrun).mono (fun _ _ _ hlt => absurd hlt hlng) fun _ _ h => h
  · split at hj
    case isTrue hlt =>
      cases hj
      exact hdur hlt
    case isFalse => cases hj

end

/-! ### Replaying metadata -/

/-- Each change of the metadata is a replay that the row allows. -/
lemma applyMetadataChanges_runs (changes : List MetadataChange) (hrev : r.requestedRevision ≠ none)
    (hrow : ∀ row, s.row = some row → row.stageIdentity = some file.identity →
      row.state = .awaitingConfirmation ∨
        (row.state = .running ∧ row.targetRevision = r.requestedRevision)) (hsome : s.row ≠ none) :
    ∀ {w : World}, Kept s (w.session site) → Written r file (w.session site) →
      Runs site r (applyMetadataChanges file.identity changes)
        (fun _ s' => Kept s s' ∧ Written r file s') (Fails (Kept s)) w := by
  induction changes with
  | nil => exact fun hk h => .pure ⟨hk, h⟩
  | cons change rest ih =>
    intro w hk h
    refine seq (fsStep_runs (.refl _)) (fun _ _ he => he.mono fun hq => hk.trans hq.kept)
      fun _ w' hq => ?_
    replace hk := hk.trans hq.kept
    replace h := h.quiet hq
    obtain ⟨n, hn, -⟩ := h.inode
    have heq : (w'.mapInode file.identity fun n =>
        n.setAttributes (change.apply n.attributes)).session site = (w'.session site).setInode
          file.identity (n.setAttributes (change.apply n.attributes)) := session_mapInode _ hn
    refine .modify_bind ?_ (ih ?_ ?_)
    · rw [heq]
      exact .single (.replay _ _ n _ hn hrev (by rw [hk.row]; exact hrow))
    · rw [heq]
      exact hk.setInode
    · rw [heq]
      exact h.setInode hn rfl rfl fun hnone => absurd (hk.row.symm.trans hnone) hsome

lemma Session.Bound.allows_replay (h : Bound r awaiting file s) :
    ∀ row, s.row = some row → row.stageIdentity = some file.identity →
      row.state = .awaitingConfirmation ∨
        (row.state = .running ∧ row.targetRevision = r.requestedRevision) := by
  intro row hrow _
  obtain ⟨row', hrow', hbnd⟩ := h.row
  cases hrow.symm.trans hrow'
  cases awaiting with
  | true => exact .inl hbnd.state
  | false => exact .inr ⟨hbnd.state, hbnd.revision rfl⟩

lemma applyReplacementMetadata_runs {metadata : PreservedFileMetadata}
    (h : Bound r awaiting file (w.session site)) (hrev : r.requestedRevision ≠ none) :
    Runs site r (applyReplacementMetadata file metadata) (fun _ => Bound r awaiting file)
      (Fails (Kept (w.session site))) w := by
  refine seq (fsStep_runs (.refl _)) (fun _ _ he => he.mono Quiet.kept) fun _ w' hq => .get_bind ?_
  replace h := h.quiet hq
  obtain ⟨n, hn, -⟩ := h.inode
  have hn' : w'.inodes file.identity = some n := hn
  have hsome : (w'.session site).row ≠ none := by
    obtain ⟨row, hrow, -⟩ := h.row
    simp [hrow]
  rw [hn']
  refine (applyMetadataChanges_runs _ hrev h.allows_replay hsome (.refl _) h.toWritten).mono
    (fun _ _ hdone => h.move hdone.1 hdone.2 rfl (.inl rfl))
    fun _ _ he => he.mono hq.kept.trans

lemma replayMetadata_runs (h : Bound r t.awaitingConfirmation file (w.session site))
    (hmeta : r.requestedRevision = none → t.target.metadata = none) :
    Serves site r (replayMetadata site r t file) (fun _ => Bound r t.awaitingConfirmation file)
      w := by
  unfold replayMetadata
  cases hm : t.target.metadata with
  | none => exact .pure h
  | some metadata =>
    have hrev : r.requestedRevision ≠ none := fun hnone => by
      simp [hmeta hnone] at hm
    refine .with_inv fun hinv => ?_
    refine attempt_bind (applyReplacementMetadata_runs h hrev) (fun _ w' h => .pure h)
      fun e w' he => ?_
    obtain ⟨⟨f, rfl⟩, hk⟩ := he
    refine h.fail_runs hk hinv (fun hdur => ?_) fun hrun => ?_
    · split <;> exact awaitingReply_runs hdur
    · refine (giveUp_runs hrun).bind fun _ w'' _ => ?_
      split
      · exact .throw (honest_silent rfl rfl nofun)
      · exact .throw trivial

/-! ### Giving up and recording the start -/

/-- An upload that is given up is answered without an offset. -/
lemma abandonUpload_runs {Q : α → Session → Prop}
    (hopen : (w.session site).Open) (hgv : (w.session site).GivesUp) :
    Serves site r (abandonUpload site r unconfirmed status code detail) Q w := by
  refine attempt_bind (resetAndAncestors_runs (.refl _) hopen hgv) (fun _ w' _ => ?_)
    fun e w' _ => ?_
  · exact .throw (honest_silent rfl rfl nofun)
  · exact .throw (honest_unknown nofun)

lemma confirmSpaceAfterReplay_runs (h : Bound r t.awaitingConfirmation file (w.session site)) :
    Serves site r (confirmSpaceAfterReplay site r t) (fun _ => Quiet (w.session site)) w := by
  refine .with_inv fun hinv => confirmed_runs fun w' hq => ?_
  refine h.fail_runs hq.kept hinv awaitingReply_runs fun hrun => .with_inv fun hinv => ?_
  exact abandonUpload_runs (hrun.unfinished.isOpen hinv) hrun.givesUp

/-- After a setback even a complete upload may be given up. -/
lemma abandonAfterSetback_runs {b : Setback} {Q : α → Session → Prop}
    (hopen : (w.session site).Open) :
    Serves site r (do noteSetback b; abandonUpload site r unconfirmed status code detail) Q w := by
  refine .modify_bind (.single (.setback _ b)) (abandonUpload_runs hopen fun _ _ _ => ?_)
  exact List.cons_ne_nil _ _

/-- The row of a started commit. -/
structure StoredUploadSession.Starts (r : UploadRequest) (id : StoredFileIdentity)
    (row : StoredUploadSession) : Prop where
  state : row.state = .commitStarted
  identity : row.stageIdentity = some id
  uploadLength : row.uploadLength = r.uploadLength
  offset : row.durableOffset = r.uploadLength
  revision : row.targetRevision = r.requestedRevision

/-- The start is recorded: the row names the stage, which is complete and not yet renamed. -/
structure Session.Started (r : UploadRequest) (file : StageFile) (s : Session) : Prop where
  row : ∃ row, s.row = some row ∧ row.Starts r file.identity
  synced : ∃ n, Synced file n s
  isOpen : s.Open
  idle : file.queued = []
  offset : r.initialOffset ≤ file.pos
  pos : file.pos = r.uploadLength

lemma Session.Started.quiet (h : Started r file s) (hq : Quiet s s') : Started r file s' where
  row := hq.row ▸ h.row
  synced := h.synced.imp fun _ hsyn => hsyn.quiet hq
  isOpen := h.isOpen.later hq.kept.later
  idle := h.idle
  offset := h.offset
  pos := h.pos

lemma Session.Started.active (h : Started r file s) (row : StoredUploadSession)
    (hrow : s.row = some row) : row.state.isTerminal = false := by
  obtain ⟨row', hrow', hsts⟩ := h.row
  cases hrow.symm.trans hrow'
  simp [hsts.state, isTerminal]

/-- A synced stage of a bound upload may be recorded as started. -/
lemma Session.Bound.saves_start (h : Bound r awaiting file s) (hk : Kept s s')
    (hsyn : Synced file n s') (hopen : s'.Open) (hpos : file.pos = r.uploadLength) :
    s'.Saves r (completeRow site r .commitStarted file) := by
  obtain ⟨row, hrow, hbnd⟩ := h.row
  refine .start file.identity n rfl rfl hsyn.inode ?_ hsyn.stage rfl hopen rfl fun hnone => ?_
  · have hfull := hsyn.full
    rw [hpos] at hfull
    exact hfull
  · exact ⟨row, hk.row.trans hrow, hbnd.createOnly hnone⟩

lemma startCommit_runs (h : Bound r awaiting file (w.session site)) (hidle : file.queued = [])
    (hpos : file.pos = r.uploadLength) :
    Serves site r (startCommit site r file) (fun _ => Started r file) w := by
  refine .with_inv fun hinv => ?_
  have hopen := h.unfinished.isOpen hinv
  refine attempt_bind (persistComplete_runs (.refl _) h.toWritten h.unfinished.active
    fun n s' hk hsyn => ?_) (fun _ w' hsta => .pure ?_) fun e w' he => ?_
  · rw [flushed_of_idle hidle] at hsyn
    exact h.saves_start hk hsyn (hopen.later hk.later) hpos
  · obtain ⟨hk, hsyn⟩ := hsta
    rw [flushed_of_idle hidle] at hsyn
    exact ⟨⟨_, hk.row, rfl, rfl, rfl, rfl, rfl⟩, hsyn,
      hopen.imp (fun hpub => hk.published.trans hpub) fun hpur => hk.purged.trans hpur, hidle,
      h.sends.1, hpos⟩
  · exact abandonAfterSetback_runs (hopen.later he.2.later)

lemma confirmSpaceAfterStart_runs (h : Started r file (w.session site)) :
    Serves site r (confirmSpaceAfterStart site r) (fun _ => Quiet (w.session site)) w :=
  confirmed_runs fun _ hq => abandonAfterSetback_runs (h.isOpen.later hq.kept.later)

/-! ### Publication -/

/-- The stage was renamed under its recorded start. -/
structure Session.Published (r : UploadRequest) (file : StageFile) (s : Session) : Prop where
  row : ∃ row, s.row = some row ∧ row.Starts r file.identity
  renamed : ∃ q ∈ s.published, q.identity = file.identity ∧ q.inode.length = r.uploadLength

/-- What the outcome of the rename tells of the session. -/
def Session.Ended (r : UploadRequest) (file : StageFile) (s : Session) :
    ReplaceAndSyncOutcome → Prop
  | .published => Published r file s
  | .rejected | .notPublished => Started r file s
  | .publishedDurabilityUnknown => ∃ row, s.row = some row ∧ row.Starts r file.identity

lemma Session.Published.quiet (h : Published r file s) (hq : Quiet s s') : Published r file s' :=
  ⟨hq.row ▸ h.row, hq.published ▸ h.renamed⟩

lemma confirmRename_runs {created : Bool} (h : Published r file (w.session site)) :
    Runs site r (confirmRename created) (fun outcome s' => s'.Ended r file outcome) E w := by
  refine Ensures.bind (Q := fun _ w' => Quiet (w.session site) (w'.session site)) ?_
    fun verified w₁ hq => ?_
  · split
    · exact (fsStep_runs (.refl _)).attempt (fun _ _ hq => hq) fun _ _ he => he.2
    · exact .pure (.refl _)
  refine attempt_bind (fsStep_runs hq) (fun a w₂ hq => ?_) fun e w₂ he => ?_
  · cases verified with
    | ok => exact .pure (h.quiet hq)
    | error => exact .pure (h.quiet hq).row
  · cases verified with
    | ok | error => exact .pure (h.quiet he.2).row

section

variable (h : Started r file (w.session site))

include h

/-- The rename publishes the recorded stage. -/
lemma publish_reach {times : FileTimes}
    (hn : w.inodes file.identity = some n) : (Session.protocol site r).Reach (w.session site)
        ((w.publish site file.identity n times).session site) ∧
      Published r file ((w.publish site file.identity n times).session site) := by
  obtain ⟨row, hrow, hsts⟩ := h.row
  obtain ⟨m, hsyn⟩ := h.synced
  cases hsyn.inode.symm.trans hn
  have hfull : n.Full r.uploadLength := h.pos ▸ hsyn.full
  refine ⟨.single (.publish _ row file.identity n hrow hsts.state hsts.identity hsyn.stage
    hn ?_), ⟨row, hrow, hsts⟩, ⟨file.identity, n, w.row site⟩, ?_, rfl, hfull.length_eq⟩
  · rw [hsts.uploadLength]
    exact hfull
  · exact List.mem_append_right _ (List.mem_singleton_self _)

lemma renameStage_runs :
    Runs site r (renameStage site file.identity expected)
      (fun outcome s' => s'.Ended r file outcome) E w := by
  refine ask_bind fun a => .modify_bind (.of_eq (session_meddle a).symm) (.get_bind ?_)
  have h' : Started r file ((w.meddle a).session site) := by rwa [session_meddle]
  obtain ⟨n, hsyn⟩ := h'.synced
  have hn : (w.meddle a).inodes file.identity = some n := hsyn.inode
  rw [hn]
  dsimp only
  split
  case isTrue => exact .pure h'
  case isFalse =>
    split
    case isTrue => exact .pure h'
    case isFalse =>
      obtain ⟨hrch, hpublished⟩ := publish_reach h' hn
      exact .modify_bind hrch (confirmRename_runs hpublished)

lemma renameReplaceIfUnchanged_runs : Runs site r (renameReplaceIfUnchanged site file expected)
      (fun outcome s' => s'.Ended r file outcome) E w := by
  refine ask_bind fun a => .modify_bind (.of_eq (session_meddle a).symm) (.get_bind ?_)
  have h' : Started r file ((w.meddle a).session site) := by rwa [session_meddle]
  split
  case isTrue => exact .pure h'.row
  case isFalse =>
    split
    case isTrue => exact .pure h'
    case isFalse =>
      split
      case isTrue => exact .pure h'
      case isFalse =>
        split
        case isTrue => exact .pure h'
        case isFalse => exact renameStage_runs h'

lemma commitStagedFile_runs :
    Runs site r (commitStagedFile site file expected) (fun outcome s' => s'.Ended r file outcome)
      E w := by
  obtain ⟨n, hsyn⟩ := h.synced
  refine attempt_bind (syncFileToStorage_runs (.refl _) hsyn.inode) (fun _ w' hsync => ?_)
    fun e w' he => .pure (h.quiet he.2.2)
  obtain ⟨hk, s₁, hq, heq⟩ := hsync
  refine renameReplaceIfUnchanged_runs ⟨hk.row ▸ h.row, ⟨n.mapData .sync, ?_, ?_, ?_, ?_⟩,
    h.isOpen.later hk.later, h.idle, h.offset, h.pos⟩
  · exact hk.stage.trans hsyn.stage
  · rw [heq]
    simp [setInode]
  · have hfull := hsyn.full
    exact ⟨hfull.whole, hfull.length_eq, hfull.whole.trans hfull.length_eq, rfl⟩
  · exact fun hnone => hsyn.created (hk.row.symm.trans hnone)

end

/-! ### After the rename -/

lemma removeEmptyStageDirectory_runs (h : Quiet s (w.session site)) :
    Runs site r removeEmptyStageDirectory (fun _ => Quiet s) E w :=
  attempt_bind (fsStep_runs h) (fun _ _ h => .pure h) fun _ _ h => .pure h.2

/-- The row under which a started commit ends, with everything but its state and offset as
before. -/
lemma proposedSession_ends {state : StoredUploadState} :
    (proposedSession site ⟨r.uploadLength, none, false⟩ k state none (some row)).stageIdentity =
      row.stageIdentity := by
  simp [proposedSession]

lemma finishPublished_runs (h : Published r file (w.session site)) :
    Replies site r (finishPublished site r t) w := by
  refine (removeEmptyStageDirectory_runs (.refl _)).bind fun _ w₁ hq => ?_
  replace h := h.quiet hq
  obtain ⟨row, hrow, hsts⟩ := h.row
  obtain ⟨q, hq, hidn, hlen⟩ := h.renamed
  refine attempt_bind (persistState_runs (.refl _) rfl ?_ fun row' hrow' => ?_)
    (fun _ w₂ hsvd => .pure ?_) fun e w₂ he => .pure ?_
  · rw [hrow]
    refine .commit row q rfl hrow hsts.state proposedSession_ends.symm rfl hq ?_ hlen
    rw [proposedSession_ends, hsts.identity, hidn]
  · cases hrow.symm.trans hrow'
    simp [hsts.state, isTerminal]
  · refine ⟨fun k hk => .inl ?_, fun _ => ⟨_, hsvd.row, rfl, rfl⟩⟩
    rcases hk with hk | ⟨p, hp, -⟩
    · cases hk
      exact ⟨_, hsvd.row, Nat.le_refl _⟩
    · cases hp
  · exact honest_durable ⟨row, he.2.row.trans hrow, hsts.offset.ge⟩ rfl rfl (by simp)

lemma finishRejected_runs (h : Started r file (w.session site)) :
    Replies site r (finishRejected site r file) w := by
  obtain ⟨n, hsyn⟩ := h.synced
  obtain ⟨row, hrow, hsts⟩ := h.row
  refine attempt_bind (persistComplete_runs (.refl _) (hsyn.written h.idle h.offset)
    h.active fun m s' hk hsyn' => ?_) (fun _ w₁ hsvd => ?_) fun e w₁ _ => .pure ?_
  · rw [flushed_of_idle h.idle] at hsyn'
    have hfull := hsyn'.full
    rw [h.pos] at hfull
    exact .retain file.identity m row rfl rfl hsyn'.inode hfull rfl (h.isOpen.later hk.later)
      (hk.row.trans hrow) hsts.state rfl
  · refine (renderUploadTargetConflict_runs (.refl _)).mono (fun res w₂ hres => ?_)
      fun _ _ he => he.leaves
    obtain ⟨hq, inspection, status, code, detail, recovery, rfl⟩ := hres
    exact honest_durable ⟨_, hq.row.trans hsvd.1.row, Nat.le_refl _⟩ rfl rfl nofun
  · exact honest_unknown nofun

lemma finishNotPublished_runs (h : Started r file (w.session site)) :
    Replies site r (finishNotPublished site r) w := by
  refine .modify_bind (.single (.setback _ .notPublished)) ?_
  refine seq (resetAndAncestors_runs (.refl _) h.isOpen fun _ _ _ => List.cons_ne_nil _ _)
    (fun _ _ he => he.leaves) fun _ w₁ hreset => ?_
  obtain ⟨hl, hnone⟩ := hreset
  have hopen : (w₁.session site).Open :=
    h.isOpen.imp (fun hpub => hl.published.trans hpub) fun hpur => hl.purged.trans hpur
  refine attempt_bind (persistState_runs (.refl _) rfl ?_ fun row hrow => ?_)
    (fun _ w₂ _ => .pure ?_) fun e w₂ _ => .pure ?_
  · rw [hnone]
    exact .reject rfl rfl rfl hopen hnone
  · simp [hnone] at hrow
  · exact honest_silent rfl rfl nofun
  · exact honest_silent rfl rfl nofun

lemma persistUnknown_runs (hrow : (w.session site).row = some row)
    (hsts : row.Starts r file.identity) :
    Runs site r (persistUnknown site ⟨r.uploadLength, none, false⟩ r.uploadLength)
      (fun _ s' => s'.Durable r.uploadLength) (Fails fun s' => s'.Durable r.uploadLength) w := by
  have hdur : (w.session site).Durable r.uploadLength := ⟨row, hrow, hsts.offset.ge⟩
  refine seq (check_runs (Quiet.refl _)) (fun _ _ he => he.mono fun hq =>
    hdur.kept hq.kept) fun _ w₁ hq => ?_
  refine (persistState_runs hq.2 rfl ?_ fun row' hrow' => ?_).mono
    (fun _ _ hsvd => ⟨_, hsvd.row, Nat.le_refl _⟩)
    fun _ _ he => he.mono fun hq => hdur.kept hq.kept
  · rw [hrow]
    exact .lose row rfl hrow hsts.state proposedSession_ends.symm rfl
  · cases hrow.symm.trans hrow'
    simp [hsts.state, isTerminal]

lemma finishDurabilityUnknown_runs (hrow : (w.session site).row = some row)
    (hsts : row.Starts r file.identity) : Replies site r (finishDurabilityUnknown site r) w := by
  refine (attempt_runs (persistUnknown_runs hrow hsts)).bind fun _ w₁ hdur => ?_
  refine (removeEmptyStageDirectory_runs (.refl _)).bind fun _ w₂ hq => .pure ?_
  exact honest_durable (hdur.1.kept hq.kept) rfl rfl nofun

lemma commitReadyUpload_runs (h : Started r file (w.session site)) :
    Replies site r (commitReadyUpload site r t file) w := by
  refine (commitStagedFile_runs h).bind fun outcome w₁ hend => ?_
  cases outcome with
  | published => exact finishPublished_runs hend
  | rejected => exact finishRejected_runs hend
  | notPublished => exact finishNotPublished_runs hend
  | publishedDurabilityUnknown =>
    obtain ⟨row, hrow, hsts⟩ := hend
    exact finishDurabilityUnknown_runs hrow hsts

lemma prepareTransferredUpload_runs (h : Bound r t.awaitingConfirmation t.file (w.session site))
    (hmeta : r.requestedRevision = none → t.target.metadata = none) :
    Replies site r (prepareTransferredUpload site r t) w := by
  refine (flushTransferred_runs h).bind fun file w₁ hfls => ?_
  obtain ⟨h, hidle⟩ := hfls
  refine (confirmSpaceBeforeCommit_runs h).bind fun _ w₂ hq => ?_
  replace h := h.quiet hq
  refine (deadlineBeforeCommit_runs h).bind fun _ w₃ hq => ?_
  replace h := h.quiet hq
  refine (stagedLength_runs h hidle).bind fun staged w₄ hstgd => ?_
  obtain ⟨hq, hfile, hlen⟩ := hstgd
  replace h := h.quiet hq
  rw [hfile]
  refine (deadlineBeforeCommit_runs h).bind fun _ w₅ hq => ?_
  replace h := h.quiet hq
  refine (checkStagedLength_runs h).bind fun _ w₆ hchk => ?_
  obtain ⟨heq, hpos⟩ := hchk
  replace h := h.quiet heq
  refine (deadlineBeforeCommit_runs h).bind fun _ w₇ hq => ?_
  refine (replayMetadata_runs (h.quiet hq) hmeta).bind fun _ w₈ h => ?_
  refine (confirmSpaceAfterReplay_runs h).bind fun _ w₉ hq => ?_
  refine (startCommit_runs (h.quiet hq) hidle (hlen.symm.trans hpos)).bind fun _ w₁₀ hsta => ?_
  exact (confirmSpaceAfterStart_runs hsta).bind fun _ _ hq =>
    commitReadyUpload_runs (hsta.quiet hq)

/-! ### The whole request -/

lemma transferUploadBody_runs (h : Prepared r t (w.session site)) :
    Replies site r (transferUploadBody site r t) w := by
  refine .with_inv fun hinv => ?_
  have hrunning : r.uploadLength - r.initialOffset ≠ 0 → (w.session site).Running := by
    intro hrem
    cases haw : t.awaitingConfirmation with
    | false => exact Bound.allRunning (haw ▸ h.toBound)
    | true =>
      have hcpl := (Bound.complete (haw ▸ h.toBound) hinv).2
      omega
  have hsends : r.Sends t.file.pos (t.file.queued ++ r.body.flatMap BodyEvent.bytes) := by
    rw [h.idle, h.start, List.nil_append]
    exact ⟨Nat.le_refl _, by simp [UploadRequest.bytes]⟩
  refine (receiveUploadBody_runs r.body (.refl _) h.toWritten hrunning hsends).bind
    fun received w₁ hreceived => ?_
  obtain ⟨hk, hwr, hid, hmv⟩ := hreceived
  have hbd := h.toBound.move hk hwr hid hmv
  cases received.2 with
  | none =>
    exact prepareTransferredUpload_runs (t := { t with file := received.1 }) hbd h.metadata
  | some e =>
    refine h.toBound.fail_runs hk hinv (fun hdur => .throw ?_) fun hrun => ?_
    · cases e <;> exact honest_durable hdur rfl rfl nofun
    · exact finishTransferError_runs hbd.toStaged hrun

lemma processUpload_runs : Replies site r (processUpload site r) w :=
  prepareUpload_runs.bind fun _ _ h => transferUploadBody_runs h

/-- The problems of the store are told with the context they are given. -/
lemma uploadRecordStoreProblem_eq_some {ctx : UploadErrorContext}
    (h : uploadRecordStoreProblem ctx e = some res) : ∃ status code detail recovery,
      res = applyUploadProblem ctx status code detail recovery .empty := by
  cases e with
  | io | other => cases h
  | dispatch => exact ⟨_, _, _, _, (Option.some.inj h).symm⟩
  | record error => cases error <;> exact ⟨_, _, _, _, (Option.some.inj h).symm⟩

lemma handleUpload_runs : Runs site r (handleUpload site r) (fun res s => res.Honest r s)
    (Fails fun _ => True) w := by
  refine attempt_bind processUpload_runs (fun res _ h => .pure h) fun e w₁ he => ?_
  cases e with
  | reply res => exact .pure he
  | error f =>
    dsimp only
    split
    case h_1 res hres =>
      obtain ⟨status, code, detail, recovery, rfl⟩ := uploadRecordStoreProblem_eq_some hres
      exact .pure honest_uncertain
    case h_2 => exact .throw ⟨⟨_, rfl⟩, trivial⟩

lemma honest_renderUploadError : (renderUploadError r mutation e).Honest r s := by
  unfold renderUploadError
  split
  · exact honest_uncertain
  · exact honest_notStarted

lemma honest_deadlineResponse {cancelled : Bool} : (deadlineResponse r cancelled).Honest r s := by
  unfold deadlineResponse
  split
  · exact honest_notStarted
  · exact honest_uncertain

lemma honest_trackedResponse {late : Bool} {handled : Except Exit UploadResponse}
    (h : ∀ res, handled = .ok res ∨ handled = .error (.reply res) → res.Honest r s) :
    (trackedResponse r mutation late handled).Honest r s := by
  unfold trackedResponse
  split
  · exact honest_deadlineResponse
  · split
    · exact honest_deadlineResponse
    · split
      · exact h _ (.inl rfl)
      · exact h _ (.inr rfl)
      · exact honest_renderUploadError

lemma UploadResponse.Honest.quiet (h : res.Honest r s) (hq : Quiet s s') : res.Honest r s' where
  offset k hk := (h.offset k hk).imp_left fun hdur => hdur.kept hq.kept
  committed hst := hq.row ▸ h.committed hst

/-- A request follows the protocol of its session, answers honestly and never fails. -/
lemma runTrackedUpload_runs : Runs site r (runTrackedUpload site r) (fun res s => res.Honest r s)
    (fun _ _ => False) w := by
  refine attempt_bind handleUpload_runs (fun res w₁ h => ?_) fun e w₁ he => ?_
  · refine (deadlinePassed_runs (E := fun _ _ => False) (.refl _)).bind fun late w₂ hq =>
      .get_bind ?_
    refine .pure (honest_trackedResponse fun res' hres => ?_)
    rcases hres with hres | hres
    · cases hres
      exact h.quiet hq
    · cases hres
  · refine (deadlinePassed_runs (E := fun _ _ => False) (.refl _)).bind fun late w₂ hq =>
      .get_bind ?_
    refine .pure (honest_trackedResponse fun res' hres => ?_)
    obtain ⟨⟨f, rfl⟩, -⟩ := he
    rcases hres with hres | hres <;> cases hres

/-! ### Status -/

lemma honest_report {state : UploadPublicState} (h : s.Existing (some c))
    (hres : res.problem = none) (hst : state = .committed → c.state = .committed) :
    (c.report state res).Honest r s where
  offset k hk := by
    rcases hk with hk | ⟨p, hp, -⟩
    · cases hk
      exact .inl h.durable
    · simp [UploadCheckpoint.report, applyUploadRecordHeaders, hres] at hp
  committed hcom := by
    obtain ⟨row, hrow, rfl⟩ := h
    exact ⟨row, hrow, state_of_committed (hst (Option.some.inj hcom)), rfl⟩

lemma honest_notSeen : (applyUploadRecordHeaders none none .notSeen
    { UploadResponse.empty with status := status }).Honest r s := by
  refine ⟨fun k hk => ?_, nofun⟩
  rcases hk with hk | ⟨p, hp, -⟩
  · cases hk
  · cases hp

lemma renderStatus_runs (h : Quiet s (w.session site)) (hc : s.Existing (some c)) :
    RunsIn site π (renderStatus site c) (fun res s' => Quiet s s' ∧ ∀ r', res.Honest r' s')
      (Fails (Quiet s)) w := by
  have hrpt {w' : World} (hq : Quiet s (w'.session site)) :
      (w'.session site).Existing (some c) := by
    obtain ⟨row, hrow, hcp⟩ := hc
    exact ⟨row, hq.row.trans hrow, hcp⟩
  unfold renderStatus
  cases hst : c.state with
  | running | rejected => exact .pure ⟨h, fun _ => honest_report (hrpt h) rfl nofun⟩
  | committed => exact .pure ⟨h, fun _ => honest_report (hrpt h) rfl fun _ => hst⟩
  | unknown => exact .pure ⟨h, fun _ => honest_record (hrpt h).durable nofun⟩
  | awaitingConfirmation =>
    exact (replacementIdentity_runs h).bind fun _ _ h =>
      .pure ⟨h, fun _ => honest_report (hrpt h) rfl nofun⟩

/-- A status request only looks, and its answer does not depend on any request. -/
lemma handleUploadStatus_runs (hπ : ∀ s, π.Inv s → s.Inv site) :
    RunsIn site π (handleUploadStatus site)
    (fun res s' => Quiet (w.session site) s' ∧ ∀ r', res.Honest r' s')
    (Fails (Quiet (w.session site))) w := by
  refine attempt_bind (lookup_runs hπ (.refl _)) (fun found w₁ hfnd => ?_) fun e w₁ he => ?_
  · obtain ⟨hq, hshows⟩ := hfnd
    cases found with
    | notSeen | foreignOwner => exact .pure ⟨hq, fun _ => honest_notSeen⟩
    | found c => exact renderStatus_runs hq hshows
  · obtain ⟨⟨f, rfl⟩, hq⟩ := he
    dsimp only
    cases hres : uploadRecordStoreProblem ⟨.unknown, none, none⟩ f with
    | none => exact .throw ⟨⟨_, rfl⟩, hq⟩
    | some res =>
      obtain ⟨status, code, detail, recovery, rfl⟩ := uploadRecordStoreProblem_eq_some hres
      exact .pure ⟨hq, fun _ => honest_silent rfl rfl nofun⟩

end DufsRam
