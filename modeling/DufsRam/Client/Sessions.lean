import DufsRam.Client.Turns

/-!
# What the manager leaves to the sessions

An uploader belongs to a session of the server, with its identifier and the revision of the target
that the user has agreed to replace. The queue, the rows and the batches are of no concern to it:
`OfSessions` is a property that only a few operations can touch.
-/

namespace DufsRam.Client

open Manager List

/-- A change of an uploader that keeps its session. -/
structure SameSession (f : Uploader → Uploader) : Prop where
  name : ∀ u, (f u).name = u.name
  targetRevision : ∀ u, (f u).targetRevision = u.targetRevision
  uploadId : ∀ u, (f u).uploadId = u.uploadId
  awaiting : ∀ u revision staged, (f u).awaiting = .choice revision staged →
    u.awaiting = .choice revision staged

lemma Plain.sameSession {f : Uploader → Uploader} (h : Plain f) : SameSession f :=
  ⟨h.name, h.targetRevision, h.uploadId, h.awaiting⟩

/-- A property of the sessions, of the requests they have sent and of the selections. -/
structure OfSessions (P : Manager → Prop) : Prop where
  modify : ∀ {m j f}, SameSession f → P m → P (m.modify j f)
  send : ∀ {m j request}, (∃ u, m.uploaders j = some u ∧ SentRequest.Of request j u) → P m →
    P { m with sent := m.sent ++ [request] }
  congr : ∀ {m m' : Manager}, P m → m'.uploaders = m.uploaders → m'.sent = m.sent →
    m'.jobs = m.jobs → m'.nextIndex = m.nextIndex → P m'

variable {Q P : Manager → Prop} {now : ℕ} {uploadEntries : List QueuedUploadEntry}
  {env : UploadEnvironment} {m : Manager}

namespace OfSessions

variable {i : ℕ}

lemma and (h : OfSessions P) (hQ : OfSessions Q) : OfSessions fun m => P m ∧ Q m where
  modify hf hm := ⟨h.modify hf hm.1, hQ.modify hf hm.2⟩
  send hreq hm := ⟨h.send hreq hm.1, hQ.send hreq hm.2⟩
  congr hm hups hsent hjobs hnext :=
    ⟨h.congr hm.1 hups hsent hjobs hnext, hQ.congr hm.2 hups hsent hjobs hnext⟩

lemma transmits (h : OfSessions P) : Transmits i P where
  modify hf hm := h.modify hf.sameSession hm
  attempt hm := h.congr hm rfl rfl rfl rfl
  send hreq hm := h.send hreq hm

/-! ### The end of an upload -/

section

variable (h : OfSessions P) (hm : P m)

include h hm

lemma clearRecovery : P (m.clearRecovery i) :=
  h.congr (h.modify (j := i) (f := fun u =>
    { u with recoveryTimer := false, recoveryAction := .none, recoveryAvailableAt := some 0 })
    (by constructor <;> simp) hm) rfl rfl rfl rfl

lemma addTerminalRow (row : TerminalUploadRow) : P (m.addTerminalRow env row) := by
  unfold Manager.addTerminalRow
  dsimp only
  generalize take _ _ = evicted
  have hrows : ∀ m : Manager, P m → P (evicted.foldl (fun m evicted =>
      if evicted.disposable then m.clearRecovery evicted.index else m) m) := by
    induction evicted with
    | nil => exact fun _ hm => hm
    | cons row rest ih =>
      intro m hm
      refine ih _ ?_
      dsimp only
      split
      · exact h.clearRecovery hm
      · exact hm
  exact hrows _ (h.congr hm rfl rfl rfl rfl)

lemma releasePending : P (m.releasePending i) := by
  unfold Manager.releasePending
  split
  · split
    · exact h.congr (h.modify (j := i) (f := fun u => { u with pendingAccounted := false })
        (by constructor <;> simp) hm) rfl rfl rfl rfl
    · exact hm
  · exact hm

lemma retainTerminalRow (disposable : Bool) : P (m.retainTerminalRow env i disposable) := by
  unfold Manager.retainTerminalRow
  split
  · refine h.addTerminalRow ?_ _
    exact h.congr (h.releasePending (i := i) hm) rfl rfl rfl rfl
  · exact hm

lemma createRecoveryButton (recovery : Recovery) : P (m.createRecoveryButton i recovery) := by
  have hmod : ∀ {f}, SameSession f → P { m.modify i f with failed := insert i m.failed } :=
    fun hf => h.congr (h.modify hf hm) rfl rfl rfl rfl
  unfold Manager.createRecoveryButton
  split
  · exact hm
  · refine hmod ?_
    constructor <;> intro u <;> dsimp only <;> split <;> try split
    all_goals simp

lemma conclude (ending : Ending) (recovery : Recovery) : P (m.conclude env i ending recovery) := by
  have hend : P (((m.clearTimeouts i).clearRecovery i).modify i fun u =>
      { u with state := ending.state, phase := ending.phase, awaiting := .nothing }) := by
    refine h.modify ?_ (h.clearRecovery (h.transmits.clearTimeouts hm))
    constructor <;> simp
  unfold Manager.conclude
  refine h.retainTerminalRow (h.createRecoveryButton ?_ recovery) _
  split
  · exact h.congr hend rfl rfl rfl rfl
  · exact hend

lemma releaseSlot : P (m.releaseSlot i) :=
  h.congr (h.modify (j := i) (f := fun u => { u with runningAccounted := false })
    (by constructor <;> simp) hm) rfl rfl rfl rfl

/-! ### The queue -/

lemma failInLoop (recovery : Recovery) : P (m.failInLoop env i recovery) := by
  unfold Manager.failInLoop
  split
  · exact h.releaseSlot (h.conclude hm _ _)
  · exact hm

lemma startQueued : P (m.startQueued env i) := by
  unfold Manager.startQueued
  split
  · have htaken : P { m.modify i fun u =>
        { u with queueEntry := none, runningAccounted := true } with
        running := m.running + 1
        starts := m.starts ++ [m.unresolvedUnknown] } := by
      refine h.congr (h.modify (j := i) (f := fun u =>
        { u with queueEntry := none, runningAccounted := true }) ?_ hm) rfl rfl rfl rfl
      constructor <;> simp
    unfold start
    split
    · exact htaken
    · have hsta := h.modify (j := i) (f := fun u =>
        { u with state := .running, pendingRecovery := .none }) (by constructor <;> simp) htaken
      split
      · exact h.transmits.queryCheckpoint hsta _ _
      · exact h.transmits.queryCheckpoint hsta _ _
      · exact h.transmits.sendBodyWith hsta _ fun hm => h.failInLoop hm _
  · exact hm

end

lemma runQueueLoop (h : OfSessions P) (n : ℕ) (m : Manager) (hm : P m) :
    P (runQueueLoop env n m) := by
  induction n generalizing m with
  | zero => exact hm
  | succ n ih =>
    unfold Manager.runQueueLoop
    split
    · split
      · exact h.congr hm rfl rfl rfl rfl
      · exact ih _ (h.startQueued (h.congr hm rfl rfl rfl rfl))
    · exact hm

section

variable (h : OfSessions P) (hm : P m)

include h hm

lemma runQueue : P (m.runQueue env) := by
  unfold Manager.runQueue
  split
  · exact hm
  · exact h.runQueueLoop _ m hm

lemma resolveUnknown : P (m.resolveUnknown env i) := by
  unfold Manager.resolveUnknown
  split
  · dsimp only
    split
    · exact h.congr hm rfl rfl rfl rfl
    · exact h.runQueue (h.congr hm rfl rfl rfl rfl)
  · exact hm

lemma finish (ending : Ending) (recovery : Recovery) : P (m.finish env i ending recovery) := by
  unfold Manager.finish
  split
  · have hconc : P (m.conclude env i ending recovery) := h.conclude hm ending recovery
    unfold finishRunning
    split
    · split
      · exact h.runQueue (h.releaseSlot hconc)
      · exact hconc
    · exact hconc
  · exact hm

/-! ### Cancelling and recovering -/

lemma cancelQueued (queue : UploadQueue ℕ) : P (m.cancelQueued env i queue) := by
  have htaken : P (({ m with queue } : Manager).modify i fun u => { u with queueEntry := none }) :=
    h.modify (by constructor <;> simp) (h.congr hm rfl rfl rfl rfl)
  refine h.runQueue (h.retainTerminalRow (h.modify ?_ (h.clearRecovery htaken)) _)
  constructor <;> simp

lemma abort (outcomeUnknown : Bool) : P (m.abort env i outcomeUnknown) := by
  have habor : P (m.modify i fun u => { u with abortOutcomeUnknown := outcomeUnknown }) :=
    h.modify (by constructor <;> simp) hm
  unfold Manager.abort
  dsimp only
  split
  · split
    · unfold handleAbort
      split
      · exact habor
      · dsimp only
        split
        · exact h.finish (h.transmits.clearTimeouts habor) _ _
        · exact h.finish (h.transmits.clearTimeouts habor) _ _
    · exact habor
  · exact habor

lemma cancel : P (m.cancel env i) := by
  unfold Manager.cancel
  split
  · exact hm
  · split
    · exact h.cancelQueued hm _
    · split
      · exact h.abort hm _
      · exact hm

end

lemma cancelMembers (h : OfSessions P) (env : UploadEnvironment) (i : ℕ) (members : List ℕ)
    (m : Manager) (hm : P m) : P (m.cancelMembers env i members) := by
  induction members generalizing m with
  | nil => exact hm
  | cons j rest ih =>
    refine ih _ ?_
    dsimp only
    split
    · exact h.cancel hm
    · exact hm

section

variable (h : OfSessions P) (hm : P m)

include h hm

lemma cancelRemainingBatch : P (m.cancelRemainingBatch env i) := by
  unfold Manager.cancelRemainingBatch
  split
  · exact hm
  · split
    · exact hm
    · next u _ _ batch _ =>
      have hmarked : P { m with
          batches := Function.update m.batches u.batchId
            (some { batch with cancelRequested := true })
          cancellingBatch := true } := h.congr hm rfl rfl rfl rfl
      have hcncl := h.cancelMembers env i batch.members _ hmarked
      exact h.runQueue (h.congr hcncl rfl rfl rfl rfl)

lemma accountPending : P (m.accountPending i) := by
  unfold Manager.accountPending
  split
  · split
    · exact hm
    · exact h.congr (h.modify (j := i) (f := fun u => { u with pendingAccounted := true })
        (by constructor <;> simp) hm) rfl rfl rfl rfl
  · exact hm

lemma enqueue (recovery : UploadRecoveryAction) : P (m.enqueue env i recovery) := by
  have hctd : P ((m.removeTerminalRow i).accountPending i) :=
    h.accountPending (h.congr hm rfl rfl rfl rfl)
  unfold Manager.enqueue
  generalize (m.removeTerminalRow i).accountPending i = m₁ at hctd ⊢
  have hqd := h.modify (j := i) (f := fun u =>
    { u with
      state := .queued
      pendingRecovery := recovery
      queueEntry := some (m₁.queue.enqueue i).2 }) (by constructor <;> simp) hctd
  exact h.runQueue (h.congr hqd rfl rfl rfl rfl)

lemma recheckUnknown : P (m.recheckUnknown i) := by
  have hctd : P ((m.removeTerminalRow i).accountPending i) :=
    h.accountPending (h.congr hm rfl rfl rfl rfl)
  have hrun := h.modify (j := i) (f := fun u =>
    { u with state := .running, runningAccounted := true }) (by constructor <;> simp) hctd
  refine h.transmits.queryCheckpoint ?_ _ _
  exact h.congr hrun rfl rfl rfl rfl

lemma recover {recovery : UploadRecoveryAction} : P (m.recover env now i recovery) := by
  unfold Manager.recover
  split
  · exact hm
  · next u _ =>
    have htaken : P (({ m with
        failed := m.failed.erase i
        knownTargets := insert u.name m.knownTargets } : Manager).clearRecovery i) :=
      h.clearRecovery (h.congr hm rfl rfl rfl rfl)
    dsimp only
    split_ifs
    all_goals first | exact hm | skip
    · exact h.recheckUnknown htaken
    · exact h.enqueue htaken recovery

end

/-- What is left to show of a property of the sessions is what the handlers do to them. -/
lemma handles (h : OfSessions P) (hQ : OfSessions Q) {restart : Prop}
    {ask confirm : String → Prop} (hask : ∀ {m rev staged}, ask rev → P m →
      P (m.modify i fun u =>
        { u with phase := .awaitingConfirmation, awaiting := .choice rev staged }))
    (hcfm : ∀ {m rev}, confirm rev → P m → P (m.confirmRevision i rev))
    (hforget : ∀ {m}, P m → P (m.forgetRevision i)) (hrelax : ∀ {m}, P m → Q m)
    (hrst : ∀ {m}, restart → P m → Q (m.restartSession env i)) :
    Handles env i restart ask confirm P Q where
  toTransmits := h.transmits
  ask := by
    intro m rev staged hrev hm
    unfold resolveDestinationConflict
    split
    · exact hask hrev hm
    · exact hm
  confirm := hcfm
  forget := hforget
  finish hm := h.finish hm _ _
  resolve hm := h.resolveUnknown hm
  pause hm := h.congr hm rfl rfl rfl rfl
  cancelRemaining hm := h.cancelRemainingBatch hm
  relax := hrelax
  restart hgone hm :=
    hQ.transmits.sendBodyWith (hrst hgone hm) _ fun hm => hQ.finish hm _ _

end OfSessions

/-! ### Selections -/

/-- What a selection may hold: revisions that were shown, and later those that were confirmed. -/
def SelectionJob.Allows (shown confirmed : String → String → Prop) (job : SelectionJob) : Prop :=
  match job.stage with
  | .waiting | .preflight _ => True
  | .choice _ uploadEntries conflicts =>
    (∀ entry ∈ uploadEntries, entry.revision = none) ∧
      ∀ conflict ∈ conflicts, ∀ revision ∈ conflict.revision, shown conflict.entry.name revision
  | .enqueuing _ entries =>
    ∀ entry ∈ entries, ∀ revision ∈ entry.revision, confirmed entry.name revision

namespace Manager

/-- The event is a response that shows this revision of the target: to a preflight, or about a
conflict of an uploader. -/
def ShowsConflict (env : UploadEnvironment) (m : Manager) (event : ManagerEvent)
    (name revision : String) : Prop :=
  match event with
  | .preflightReply payload => ∃ job rest accepted targets, m.jobs = job :: rest ∧
    job.stage = .preflight accepted ∧
    parseUploadPreflight payload (accepted.map fun entry => env.logicalChildPath entry.name) =
      some targets ∧
    ∃ target ∈ accepted.zip targets, target.1.name = name ∧ target.2.exists_ = true ∧
      target.2.revision = some revision
  | event => ∃ i u, eventIndex event = some i ∧ m.uploaders i = some u ∧ u.name = name ∧
    m.OffersOverwrite i event revision

/-- The user confirms in a dialog that this revision of the target is replaced. -/
def ConfirmsConflict (m : Manager) (event : ManagerEvent) (name revision : String) : Prop :=
  match event with
  | .chooseBatch choice => choice = .confirm ∧ ∃ job rest accepted uploadEntries conflicts,
    m.jobs = job :: rest ∧ job.stage = .choice accepted uploadEntries conflicts ∧
    ∃ conflict ∈ conflicts, conflict.entry.name = name ∧ conflict.revision = some revision
  | event => ∃ i u, eventIndex event = some i ∧ m.uploaders i = some u ∧ u.name = name ∧
    m.ConfirmsOverwrite i event revision

end Manager

/-- A property of the sessions that selections keep, as long as they upload what they may. -/
structure Selects (env : UploadEnvironment) (shown confirmed : String → String → Prop)
    (P : Manager → Prop) : Prop extends OfSessions P where
  relist : ∀ {m jobs}, (∀ job ∈ jobs, SelectionJob.Allows shown confirmed job) → P m →
    P { m with jobs }
  create : ∀ {m batchId entry},
    (∀ revision ∈ QueuedUploadEntry.revision entry, confirmed entry.name revision) → P m →
    P (m.createUploader env batchId entry)

namespace Selects

variable {shown confirmed : String → String → Prop} {job : SelectionJob} {rest : List SelectionJob}
  {accepted : List UploadSelectionEntry}

/-- Every revision among the entries was confirmed. -/
abbrev Confirms (confirmed : String → String → Prop) (entries : List QueuedUploadEntry) : Prop :=
  ∀ entry ∈ entries, ∀ revision ∈ entry.revision, confirmed entry.name revision

lemma revision_of_freeEntry {targets : List (UploadSelectionEntry × PreflightValue)}
    {entry : QueuedUploadEntry} (hent : entry ∈ targets.filterMap freeEntry) :
    entry.revision = none := by
  obtain ⟨⟨source, target⟩, -, hfree⟩ := mem_filterMap.1 hent
  unfold freeEntry at hfree
  dsimp only at hfree
  split at hfree <;> cases hfree
  rfl

/-- An entry without a revision needs no confirmation. -/
lemma confirmed_of_none {entries : List QueuedUploadEntry}
    (hnone : ∀ entry ∈ entries, entry.revision = none) : Confirms confirmed entries := by
  intro entry hent rev hrev
  rw [hnone entry hent] at hrev
  cases hrev

section

variable (h : Selects env shown confirmed P)

include h

section

variable (hrest : ∀ job ∈ rest, SelectionJob.Allows shown confirmed job)

include hrest

lemma endJob (hm : P m) : P (m.endJob job rest) := by
  unfold Manager.endJob Manager.releasePreflightRows
  have hm' := h.relist hrest hm
  split
  · exact h.congr hm' rfl rfl rfl rfl
  · exact hm'

lemma awaitStage (hm : P m) {stage : SelectionStage}
    (hjob : ({ job with stage } : SelectionJob).Allows shown confirmed) :
    P (m.awaitStage job rest stage) := by
  refine h.relist (fun other hoth => ?_) hm
  rcases mem_cons.1 hoth with rfl | hoth
  · exact hjob
  · exact hrest other hoth

lemma enqueueLoop {batchId : ℕ} (entries : List QueuedUploadEntry) (chunk : ℕ) (m : Manager)
    (hm : P m) (hents : Confirms confirmed entries) :
    P (enqueueLoop env job rest batchId chunk entries m) := by
  have hclose : ∀ (left : List QueuedUploadEntry) (m : Manager), P m →
      P ((m.closeBatch batchId left).endJob job rest) :=
    fun _ _ hm => h.endJob hrest (h.congr hm rfl rfl rfl rfl)
  induction entries generalizing chunk m with
  | nil =>
    unfold Manager.enqueueLoop
    exact hclose _ _ hm
  | cons entry left ih =>
    have hleft : Confirms confirmed left :=
      fun other hoth => hents other (mem_cons_of_mem _ hoth)
    have hcre : P (m.materialize env batchId entry) :=
      h.congr (h.enqueue (h.create (hents entry mem_cons_self) hm) .none) rfl rfl rfl rfl
    unfold Manager.enqueueLoop
    split
    · exact hclose _ _ hm
    · dsimp only
      split
      · exact h.awaitStage hrest hcre hleft
      · exact h.awaitStage hrest hcre hleft
      · exact ih _ _ hcre hleft

lemma admitEntries (hm : P m) (hents : Confirms confirmed uploadEntries) :
    P (m.admitEntries env job rest accepted uploadEntries) := by
  unfold Manager.admitEntries
  dsimp only
  split
  · exact h.endJob hrest hm
  · split
    · exact h.endJob hrest (h.congr hm rfl rfl rfl rfl)
    · exact h.endJob hrest (h.congr hm rfl rfl rfl rfl)
    · next m' hdone =>
      have hm' : P m' := by
        unfold transferPreflightRows at hdone
        split at hdone
        · cases hdone
        · dsimp only at hdone
          split at hdone <;> cases hdone
          exact h.congr hm rfl rfl rfl rfl
      refine h.enqueueLoop hrest _ _ _ (h.congr hm' rfl rfl rfl rfl) fun entry hent => ?_
      exact hents entry ((mem_insertionSort _).1 (mem_filter.1 hent).1)

lemma beginSelection (hm : P m) : P (m.beginSelection env job rest) := by
  unfold Manager.beginSelection
  split
  · exact h.endJob hrest hm
  · dsimp only
    split
    · exact h.endJob hrest hm
    · exact h.awaitStage hrest hm trivial

lemma preflightReply (hm : P m) {payload : List PreflightValue} (hshown : ∀ targets,
      parseUploadPreflight payload (accepted.map fun entry => env.logicalChildPath entry.name) =
        some targets →
      ∀ target ∈ accepted.zip targets, target.2.exists_ = true →
      ∀ rev ∈ target.2.revision, shown target.1.name rev) :
    P (m.preflightReply env job rest accepted payload) := by
  unfold Manager.preflightReply
  split
  · exact h.endJob hrest hm
  · next targets htgts =>
    split
    · exact h.endJob hrest hm
    · dsimp only
      split
      · exact h.admitEntries hrest hm (confirmed_of_none fun _ => revision_of_freeEntry)
      · refine h.awaitStage hrest hm ⟨fun _ => revision_of_freeEntry, ?_⟩
        intro conflict hcon rev hrev
        obtain ⟨⟨entry, target⟩, htgt, hcon⟩ := mem_filterMap.1 hcon
        unfold conflictEntry at hcon
        dsimp only at hcon
        split at hcon
        case isTrue hex =>
          cases hcon
          exact hshown targets htgts _ htgt hex.2 rev hrev
        case isFalse => cases hcon

lemma chooseBatch (hm : P m) {conflicts : List UploadConflict} {choice : DialogChoice}
    (hnone : ∀ entry ∈ uploadEntries, entry.revision = none)
    (hconf : choice = .confirm → ∀ conflict ∈ conflicts, ∀ rev ∈ conflict.revision,
      confirmed conflict.entry.name rev) :
    P (m.chooseBatch env job rest accepted uploadEntries conflicts choice) := by
  unfold Manager.chooseBatch
  split
  · exact h.endJob hrest hm
  · split
    case isTrue hchoice =>
      refine h.admitEntries hrest hm fun entry hent => ?_
      rcases mem_append.1 hent with hent | hent
      · exact confirmed_of_none hnone entry hent
      · obtain ⟨conflict, hcon, rfl⟩ := mem_map.1 hent
        exact hconf hchoice conflict hcon
    case isFalse => exact h.admitEntries hrest hm (confirmed_of_none hnone)

end

variable {m' : Manager} {event : ManagerEvent} (hm : P m)
  (halw : ∀ job ∈ m.jobs, SelectionJob.Allows shown confirmed job)
  (hshown : ∀ name revision, m.ShowsConflict env event name revision → shown name revision)
  (hconf : ∀ name revision, m.ConfirmsConflict event name revision → confirmed name revision)

include hm halw hshown hconf

/-- A selection shows what its preflight has found and uploads what the user has confirmed. -/
theorem selectionStep (hjobs : m.jobs = job :: rest)
    (hstep : m.selectionStep env job rest job.stage event = some m') : P m' := by
  have hjob : job.Allows shown confirmed := halw job (hjobs ▸ mem_cons_self)
  have hrest : ∀ other ∈ rest, SelectionJob.Allows shown confirmed other :=
    fun other hoth => halw other (hjobs ▸ mem_cons_of_mem _ hoth)
  unfold SelectionJob.Allows at hjob
  unfold Manager.selectionStep at hstep
  split at hstep <;> cases hstep
  · exact h.beginSelection hrest hm
  · next accepted payload hstg =>
    refine h.preflightReply hrest hm fun targets htgts target htgt hex rev hr => ?_
    exact hshown _ _ ⟨job, rest, accepted, targets, hjobs, hstg, htgts, target, htgt, rfl, hex, hr⟩
  · unfold preflightFailed
    split
    · exact h.endJob hrest (h.congr hm rfl rfl rfl rfl)
    · exact h.endJob hrest hm
  · next accepted uploadEntries conflicts choice hstg =>
    rw [hstg] at hjob
    refine h.chooseBatch hrest hm hjob.1 fun hchoice conflict hcon rev hrev => ?_
    exact hconf _ _ ⟨hchoice, job, rest, accepted, uploadEntries, conflicts, hjobs, hstg,
      conflict, hcon, rfl, hrev⟩
  · next batchId entries hstg =>
    rw [hstg] at hjob
    exact h.enqueueLoop hrest entries _ m hm hjob

/-- A step of the manager, up to what the handlers of an uploader do. -/
theorem step (hhdl : ∀ i u, eventIndex event = some i → m.uploaders i = some u →
      m.uploaderStep env now i u.awaiting event = some m' → P m')
    (hstep : m.step env now event = some m') : P m' := by
  unfold Manager.step at hstep
  split at hstep
  · cases hstep
    unfold addFiles
    split
    · exact hm
    · refine h.congr (h.relist (fun job hjob => ?_) hm) rfl rfl rfl rfl
      rcases mem_append.1 hjob with hjob | hjob
      · exact halw job hjob
      · rw [mem_singleton.1 hjob]
        exact trivial
  · cases hstep
    refine h.modify ?_ hm
    constructor <;> intro u <;> split <;> simp
  · cases hstep
    refine h.modify ?_ hm
    constructor <;> simp
  · split at hstep <;> cases hstep
    exact h.recover hm
  · cases hstep
    exact h.cancel hm
  · split at hstep
    · next i hidx =>
      obtain ⟨u, hu, hstep⟩ := Option.bind_eq_some_iff.1 hstep
      exact hhdl i u hidx hu hstep
    · split at hstep
      · cases hstep
      · next hjobs => exact h.selectionStep hm halw hshown hconf hjobs hstep

end

end Selects

end DufsRam.Client
