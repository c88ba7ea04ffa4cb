import DufsRam.Client.Selection

/-!
# What a handler can do

The handlers of an uploader are put together from a few operations on the manager. `Handles` lists
them, with the occasions on which a session is restarted, an overwrite is offered and a revision is
confirmed; a property that they keep is kept by every handler.
-/

namespace DufsRam.Client

open Manager Option Uploader

/-- A change of what an uploader is doing, and of nothing that others rely on. -/
structure Plain (f : Uploader → Uploader) : Prop where
  name : ∀ u, (f u).name = u.name
  size : ∀ u, (f u).size = u.size
  batchId : ∀ u, (f u).batchId = u.batchId
  targetRevision : ∀ u, (f u).targetRevision = u.targetRevision
  uploadId : ∀ u, (f u).uploadId = u.uploadId
  state : ∀ u, (f u).state = u.state
  runningAccounted : ∀ u, (f u).runningAccounted = u.runningAccounted
  pendingAccounted : ∀ u, (f u).pendingAccounted = u.pendingAccounted
  awaiting : ∀ u revision staged, (f u).awaiting = .choice revision staged →
    u.awaiting = .choice revision staged

/-- The request is one of the uploader, for its session and with its revision. -/
structure SentRequest.Of (request : SentRequest) (i : ℕ) (u : Uploader) : Prop where
  index : request.index = i
  uploadId : request.uploadId = u.uploadId
  targetRevision : request.targetRevision = u.targetRevision
  overwrite : request.overwrite = u.targetRevision.isSome

variable {f : Uploader → Uploader} {request : SentRequest} {u : Uploader} {i : ℕ} {m : Manager}
  {onError : Manager → Manager} {again : Bool} {env : UploadEnvironment} {P : Manager → Prop}

lemma SentRequest.Of.plain (h : request.Of i u) (hf : Plain f) : request.Of i (f u) :=
  ⟨h.index, h.uploadId.trans (hf.uploadId u).symm,
    h.targetRevision.trans (hf.targetRevision u).symm, by rw [h.overwrite, hf.targetRevision u]⟩

lemma Plain.comp {g : Uploader → Uploader} (hf : Plain f) (hg : Plain g) :
    Plain fun u => f (g u) where
  name u := (hf.name _).trans (hg.name u)
  size u := (hf.size _).trans (hg.size u)
  batchId u := (hf.batchId _).trans (hg.batchId u)
  targetRevision u := (hf.targetRevision _).trans (hg.targetRevision u)
  uploadId u := (hf.uploadId _).trans (hg.uploadId u)
  state u := (hf.state _).trans (hg.state u)
  runningAccounted u := (hf.runningAccounted _).trans (hg.runningAccounted u)
  pendingAccounted u := (hf.pendingAccounted _).trans (hg.pendingAccounted u)
  awaiting u _ _ h := hg.awaiting u _ _ (hf.awaiting _ _ _ h)

/-- The response reports a target that exists, in a way that the client trusts. -/
def Uploader.reportsConflict (u : Uploader) (response : Response) (revision : String) : Prop :=
  trustedUploadTargetChange
    (u.classify (if u.uploadRequestPhase = .resume then .resume else .fresh) response)
    response.detail response.headers u.size = some (.exists_ revision true)

/-- The response is bound to the session and says that the server does not know it, or has rejected
it. -/
def Uploader.reportsGone (u : Uploader) (phase : UploadRequestPhase) (response : Response) : Prop :=
  (u.classify phase response).kind = .state .notSeen ∨
    (u.classify phase response).kind = .state .rejected

namespace Manager

variable (m : Manager) (i : ℕ)

/-- The event is a response that is bound to the session of the uploader and reports that it is not
known or rejected, or acknowledges that it was discarded. -/
def ReportsGone (event : ManagerEvent) : Prop :=
  ∃ u ∈ m.uploaders i, match event with
    | .checkpointReply _ response => u.reportsGone .checkpoint response
    | .reconcileReply _ response => u.reportsGone .checkpoint response
    | .discardReply _ response => u.reportsGone .discard response
    | _ => False

/-- The event is a response that reports a conflict with this revision of the target. -/
def OffersOverwrite (event : ManagerEvent) (revision : String) : Prop :=
  ∃ u ∈ m.uploaders i, match event with
    | .uploadResponse _ response => u.reportsConflict response revision
    | .checkpointReply _ response =>
      (u.classify .checkpoint response).kind = .state .awaitingConfirmation ∧
        parseTargetRevision response.headers = some revision
    | _ => False

/-- The user confirms that the target with this revision is replaced. -/
def ConfirmsOverwrite (event : ManagerEvent) (revision : String) : Prop :=
  ∃ u ∈ m.uploaders i, match event with
    | .chooseConflict _ choice => choice = .confirm ∧ ∃ staged, u.awaiting = .choice revision staged
    | _ => False

end Manager

/-- The property is kept when an uploader sends a request. -/
structure Transmits (i : ℕ) (P : Manager → Prop) : Prop where
  modify : ∀ {m f}, Plain f → P m → P (m.modify i f)
  attempt : ∀ {m}, P m → P { m with attempts := m.attempts + 1 }
  send : ∀ {m request}, (∃ u, m.uploaders i = some u ∧ request.Of i u) → P m →
    P { m with sent := m.sent ++ [request] }

/-- `P` is kept by the operations of the handlers of an uploader, up to a restart of its session;
from then on it is `Q` that holds. -/
structure Handles (env : UploadEnvironment) (i : ℕ) (restart : Prop) (ask confirm : String → Prop)
    (P Q : Manager → Prop) : Prop extends Transmits i P where
  ask : ∀ {m revision staged}, ask revision → P m →
    P (m.resolveDestinationConflict i revision staged)
  confirm : ∀ {m revision}, confirm revision → P m → P (m.confirmRevision i revision)
  forget : ∀ {m}, P m → P (m.forgetRevision i)
  finish : ∀ {m ending recovery}, P m → P (m.finish env i ending recovery)
  resolve : ∀ {m}, P m → P (m.resolveUnknown env i)
  pause : ∀ {m}, P m → P m.pauseForAuthentication
  cancelRemaining : ∀ {m}, P m → P (m.cancelRemainingBatch env i)
  relax : ∀ {m}, P m → Q m
  restart : ∀ {m}, restart → P m → Q ((m.restartSession env i).sendBody env i false)

@[simp] lemma Manager.uploaders_modify (m : Manager) (i : ℕ) (f : Uploader → Uploader) :
    (m.modify i f).uploaders i = (m.uploaders i).map f := by
  simp [Manager.modify]

lemma Manager.uploaders_modify_of_ne {j : ℕ} (h : j ≠ i) :
    (m.modify i f).uploaders j = m.uploaders j := by
  simp [Manager.modify, h]

lemma SentRequest.Of.modify (h : request.Of i u) (hu : m.uploaders i = some u) (hf : Plain f) :
    ∃ u', (m.modify i f).uploaders i = some u' ∧ request.Of i u' :=
  ⟨f u, by simp [hu], h.plain hf⟩

namespace Transmits

section

variable (h : Transmits i P) (hm : P m)

include h hm

lemma clearTimeouts : P (m.clearTimeouts i) :=
  h.modify (by constructor <;> simp) hm

lemma startTransfer (phase : UploadRequestPhase) : P (m.startTransfer i phase) :=
  h.modify (by constructor <;> simp) hm

lemma queryCheckpoint (queryingUnknown retryAfterCheck : Bool) :
    P (m.queryCheckpoint i queryingUnknown retryAfterCheck) :=
  h.modify (by constructor <;> simp) hm

/-- A request is sent, or the browser refuses it. -/
lemma transmit {onDispatch : Uploader → Uploader}
    (hreq : ∃ u, m.uploaders i = some u ∧ request.Of i u) (hdispatch : Plain onDispatch)
    (hError : ∀ {m}, P m → P (onError m)) : P (m.transmit env i request onDispatch onError) := by
  obtain ⟨u, hu, hof⟩ := hreq
  unfold Manager.transmit
  dsimp only
  split
  · have hplain : Plain fun u =>
        onDispatch { u with requestDispatched := true, awaiting := .transfer } :=
      hdispatch.comp (by constructor <;> simp)
    refine h.send ⟨_, ?_, hof.plain hplain⟩ (h.modify hplain (h.attempt hm))
    rw [uploaders_modify, hu]
    rfl
  · refine hError (h.clearTimeouts (h.modify ?_ (h.attempt hm)))
    constructor <;> simp

lemma sendBodyWith (forceResume : Bool) (hError : ∀ {m}, P m → P (onError m)) :
    P (m.sendBodyWith env i onError forceResume) := by
  unfold Manager.sendBodyWith
  split
  · exact hm
  · next u hu =>
    have hplain : Plain fun u : Uploader => u := by constructor <;> simp
    refine h.transmit (h.startTransfer hm _) ?_ hplain hError
    exact SentRequest.Of.modify ⟨rfl, rfl, rfl, rfl⟩ hu (by constructor <;> simp)

end

end Transmits

namespace Handles

variable {now : ℕ} {restart : Prop} {ask confirm : String → Prop} {Q : Manager → Prop}
  {response : Response}

section

variable (h : Handles env i restart ask confirm P Q) (hm : P m)

include h hm

lemma settled : P (m.settled i) :=
  h.modify (by constructor <;> simp) hm

lemma discardStaged (again : Bool) : P (m.discardStaged i again) :=
  h.modify (by constructor <;> simp) hm

lemma failForAuthentication : P (m.failForAuthentication env i) :=
  h.finish (h.pause hm)

lemma sendBody (forceResume : Bool) : P (m.sendBody env i forceResume) :=
  h.sendBodyWith hm forceResume fun hm => h.finish hm

lemma publishStaged : P (m.publishStaged env i) := by
  unfold Manager.publishStaged
  split
  · exact hm
  · next u hu =>
    split
    · exact h.finish hm
    · next revision hrev =>
      have hof : (stagedRequest i u revision).Of i u :=
        ⟨rfl, rfl, hrev.symm, by simp [hrev, stagedRequest]⟩
      refine h.transmit (h.startTransfer hm _) ?_ ?_ fun hm => h.finish hm
      · unfold Manager.startTransfer
        exact hof.modify hu (by constructor <;> simp)
      · constructor <;> intro u <;> split <;> simp

lemma finishDiscard (hrst : restart) (again : Bool) : Q (m.finishDiscard env i again) := by
  unfold Manager.finishDiscard
  split
  · exact h.relax (h.finish hm)
  · exact h.restart hrst (h.forget hm)

lemma retryMissingTarget (staged : Bool) : P (m.retryMissingTarget env i staged) := by
  unfold Manager.retryMissingTarget
  split
  · exact h.discardStaged hm _
  · split
    · exact hm
    · split
      · exact h.finish hm
      · exact h.sendBody (h.forget (h.modify (by constructor <;> simp) hm)) _

/-! ### The response to a transfer -/

lemma handleTargetChange (staged : Bool) {change : TargetChange}
    (hask : ∀ rev, change = .exists_ rev true → ask rev) :
    P (m.handleTargetChange env i staged change) := by
  cases change with
  | missing | resetStage => exact h.retryMissingTarget hm _
  | exists_ rev replaceable =>
    unfold Manager.handleTargetChange
    dsimp only
    split
    case isTrue hreplaceable =>
      subst hreplaceable
      exact h.ask (hask rev rfl) hm
    case isFalse =>
      split
      · exact h.discardStaged hm _
      · exact h.finish hm

lemma handleUploadProblem (u : Uploader) (classification : UploadClassification)
    (response : Response) : P (m.handleUploadProblem env now i u classification response) := by
  unfold Manager.handleUploadProblem
  split
  · exact h.queryCheckpoint hm _ _
  · split
    · exact h.finish hm
    · exact h.finish hm

lemma handleUploadResponse
    (hask : ∀ u ∈ m.uploaders i, ∀ rev, u.reportsConflict response rev → ask rev) :
    P (m.handleUploadResponse env now i response) := by
  have hm' := h.clearTimeouts (h.settled hm)
  unfold Manager.handleUploadResponse
  dsimp only
  split
  · exact hm'
  · next u hu =>
    simp only [Manager.clearTimeouts, Manager.settled, uploaders_modify, map_map] at hu
    obtain ⟨u₀, hu₀, rfl⟩ := map_eq_some_iff.1 hu
    split
    · exact h.finish hm'
    · exact h.failForAuthentication hm'
    · exact h.failForAuthentication hm'
    · split
      · exact h.finish hm'
      · split
        · next change hchg =>
          refine h.handleTargetChange hm' _ fun rev hrev => hask u₀ hu₀ rev ?_
          rw [hrev] at hchg
          exact hchg
        · exact h.handleUploadProblem hm' _ _ response

lemma handleNetworkError : P (m.handleNetworkError env i) := by
  unfold Manager.handleNetworkError
  dsimp only
  split
  · exact h.settled hm
  · split
    · exact h.finish (h.clearTimeouts (h.settled hm))
    · exact h.finish (h.clearTimeouts (h.settled hm))

lemma handleOversizedResponse : P (m.handleOversizedResponse env i) := by
  unfold Manager.handleOversizedResponse
  dsimp only
  split
  · exact h.finish (h.clearTimeouts (h.settled hm))
  · exact h.settled hm

lemma handleAbort : P (m.handleAbort env i) := by
  unfold Manager.handleAbort
  split
  · exact hm
  · dsimp only
    split
    · exact h.finish (h.clearTimeouts hm)
    · exact h.finish (h.clearTimeouts hm)

lemma abort (outcomeUnknown : Bool) : P (m.abort env i outcomeUnknown) := by
  have hm' : P (m.modify i fun u => { u with abortOutcomeUnknown := outcomeUnknown }) :=
    h.modify (by constructor <;> simp) hm
  unfold Manager.abort
  dsimp only
  split
  · split
    · exact h.handleAbort hm'
    · exact hm'
  · exact hm'

lemma beginCommitWait : P (m.beginCommitWait i) := by
  refine h.modify ?_ hm
  constructor <;> intro u <;> split <;> simp

/-! ### The response to a query -/

lemma handleStaged (u : Uploader) (protocol : Option BoundUploadProtocol)
    (hask : ∀ rev, parseTargetRevision response.headers = some rev → ask rev) :
    P (m.handleStaged env i u protocol response) := by
  unfold Manager.handleStaged
  split
  · exact h.finish hm
  · dsimp only
    split
    · exact h.finish hm
    · split
      · exact h.retryMissingTarget (h.modify (by constructor <;> simp) (h.resolve hm)) _
      · next rev hrev =>
        split
        · exact h.ask (hask rev hrev) (h.resolve hm)
        · exact h.discardStaged (h.resolve hm) _

lemma handleResumable (u : Uploader) (retryAfterCheck : Bool)
    (protocol : Option BoundUploadProtocol) :
    P (m.handleResumable env i u retryAfterCheck protocol) := by
  unfold Manager.handleResumable
  split
  · exact h.finish hm
  · next offset _ =>
    have hm' : P ((m.modify i fun u => { u with uploadOffset := offset }).resolveUnknown env i) :=
      h.resolve (h.modify (by constructor <;> simp) hm)
    split
    · exact h.sendBody hm' _
    · exact h.finish hm'

lemma handleGone (hrst : restart) (retryAfterCheck : Bool) :
    Q (m.handleGone env i retryAfterCheck) := by
  unfold Manager.handleGone
  split
  · exact h.restart hrst (h.resolve hm)
  · exact h.relax (h.finish (h.resolve hm))

lemma checkpointReply {retryAfterCheck : Bool}
    (hrst : ∀ u ∈ m.uploaders i, u.reportsGone .checkpoint response → restart)
    (hask : ∀ u ∈ m.uploaders i, ∀ rev,
      (u.classify .checkpoint response).kind = .state .awaitingConfirmation →
      parseTargetRevision response.headers = some rev → ask rev) :
    Q (m.checkpointReply env now i retryAfterCheck response) := by
  have hm' : P ((m.settled i).modify i fun u => { u with abortable := false }) :=
    h.modify (by constructor <;> simp) (h.settled hm)
  unfold Manager.checkpointReply
  dsimp only
  split
  · exact h.relax hm'
  · next u hu =>
    simp only [Manager.settled, uploaders_modify, map_map] at hu
    obtain ⟨u₀, hu₀, rfl⟩ := map_eq_some_iff.1 hu
    split
    · exact h.relax (h.failForAuthentication hm')
    · exact h.relax (h.failForAuthentication hm')
    · next hkind => exact h.handleGone hm' (hrst u₀ hu₀ (.inl hkind)) _
    · next hkind => exact h.handleGone hm' (hrst u₀ hu₀ (.inr hkind)) _
    · exact h.relax (h.finish (h.resolve hm'))
    · next hkind =>
      exact h.relax (h.handleStaged hm' _ _ fun rev => hask u₀ hu₀ rev hkind)
    · exact h.relax (h.handleResumable hm' _ _ _)
    · exact h.relax (h.finish hm')
    · exact h.relax (h.finish hm')
    · exact h.relax (h.finish hm')

lemma checkpointFailed (queryingUnknown : Bool) (recovery : Recovery) :
    P (m.checkpointFailed env i queryingUnknown recovery) := by
  have hm' : P ((m.settled i).modify i fun u => { u with abortable := false }) :=
    h.modify (by constructor <;> simp) (h.settled hm)
  unfold Manager.checkpointFailed
  split
  · exact h.finish hm'
  · exact h.finish hm'

/-! ### The choice of the user and the discard -/

lemma chooseConflict {rev : String} {staged : Bool} {choice : DialogChoice}
    (hcfm : choice = .confirm → confirm rev) : P (m.chooseConflict env i rev staged choice) := by
  have hm' := h.settled hm
  unfold Manager.chooseConflict
  dsimp only
  split
  · exact hm'
  · split
    · exact hm'
    · split
      case isTrue hchoice =>
        split
        · exact h.publishStaged (h.confirm (hcfm hchoice) hm')
        · exact h.sendBody (h.confirm (hcfm hchoice) hm') _
      case isFalse =>
        have hcncl : P (if choice = .cancel then (m.settled i).cancelRemainingBatch env i
            else m.settled i) := by
          split
          · exact h.cancelRemaining hm'
          · exact hm'
        split
        · exact h.discardStaged hcncl _
        · exact h.finish hcncl

lemma reconcileDiscard (again : Bool) : P (m.reconcileDiscard i again) :=
  h.modify (by constructor <;> simp) hm

lemma discardReply (hrst : ∀ u ∈ m.uploaders i, u.reportsGone .discard response → restart) :
    Q (m.discardReply env i again response) := by
  have hm' := h.settled hm
  unfold Manager.discardReply
  dsimp only
  split
  · exact h.relax hm'
  · next u hu =>
    simp only [Manager.settled, uploaders_modify] at hu
    obtain ⟨u₀, hu₀, rfl⟩ := map_eq_some_iff.1 hu
    split
    · exact h.relax (h.failForAuthentication hm')
    · exact h.relax (h.failForAuthentication hm')
    · next hkind =>
      split
      · exact h.finishDiscard hm' (hrst u₀ hu₀ (.inr hkind)) _
      · exact h.relax (h.reconcileDiscard hm' _)
    · exact h.relax (h.reconcileDiscard hm' _)

lemma discardFailed (again auth : Bool) : P (m.discardFailed env i again auth) := by
  unfold Manager.discardFailed
  split
  · exact h.failForAuthentication (h.settled hm)
  · exact h.reconcileDiscard (h.settled hm) _

lemma reconcileReply (hrst : ∀ u ∈ m.uploaders i, u.reportsGone .checkpoint response → restart) :
    Q (m.reconcileReply env i again response) := by
  have hm' := h.settled hm
  unfold Manager.reconcileReply
  dsimp only
  split
  · exact h.relax hm'
  · next u hu =>
    simp only [Manager.settled, uploaders_modify] at hu
    obtain ⟨u₀, hu₀, rfl⟩ := map_eq_some_iff.1 hu
    split
    · next hkind => exact h.finishDiscard hm' (hrst u₀ hu₀ (.inr hkind)) _
    · next hkind => exact h.finishDiscard hm' (hrst u₀ hu₀ (.inl hkind)) _
    · exact h.relax (h.finish hm')
    · exact h.relax (h.failForAuthentication hm')
    · exact h.relax (h.failForAuthentication hm')
    · exact h.relax (h.finish hm')

lemma reconcileFailed (again auth : Bool) : P (m.reconcileFailed env i again auth) := by
  unfold Manager.reconcileFailed
  split
  · exact h.failForAuthentication (h.settled hm)
  · exact h.finish (h.settled hm)

end

/-- Whatever an uploader waits for, its handlers keep the property. -/
theorem uploaderStep {event : ManagerEvent} {m' : Manager}
    (h : Handles env i (m.ReportsGone i event) (m.OffersOverwrite i event)
      (m.ConfirmsOverwrite i event) P Q) (hm : P m) (hu : m.uploaders i = some u)
    (hstep : m.uploaderStep env now i u.awaiting event = some m') : Q m' := by
  unfold Manager.uploaderStep at hstep
  split at hstep <;> cases hstep
  · refine h.relax (h.handleUploadResponse hm ?_)
    exact fun u hu rev hcon => ⟨u, hu, hcon⟩
  · exact h.relax (h.handleNetworkError hm)
  · exact h.relax (h.handleOversizedResponse hm)
  · exact h.relax (h.abort hm _)
  · refine h.checkpointReply hm (fun u hu hgone => ⟨u, hu, hgone⟩) ?_
    exact fun u hu rev hkind hrev => ⟨u, hu, hkind, hrev⟩
  · exact h.relax (h.checkpointFailed hm _ _)
  · next rev staged _ choice haw =>
    exact h.relax (h.chooseConflict hm fun hchoice => ⟨u, hu, hchoice, staged, haw⟩)
  · exact h.discardReply hm fun u hu hgone => ⟨u, hu, hgone⟩
  · exact h.relax (h.discardFailed hm _ _)
  · exact h.reconcileReply hm fun u hu hgone => ⟨u, hu, hgone⟩
  · exact h.relax (h.reconcileFailed hm _ _)

end Handles

end DufsRam.Client
