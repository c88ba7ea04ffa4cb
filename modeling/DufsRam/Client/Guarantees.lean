import Mathlib.Algebra.BigOperators.Group.Finset.Piecewise
import DufsRam.Client.Turns

/-!
# What the upload manager guarantees

Whatever the user, the browser and the server do, and in whatever order: the transfers under way fit
the slots, no upload is taken from the queue while an outcome is unknown, the rows are counted, and
no two uploads under way have the same target. An upload that runs already may be sent again.
-/

namespace DufsRam.Client

open Manager Finset

variable {env : UploadEnvironment} {m : Manager} {left : List QueuedUploadEntry}
  {rest : List SelectionJob} {batchId reserved : ℕ}

namespace Manager

/-- The uploaders with the property. -/
def uploadersWhere (p : Uploader → Bool) (m : Manager) : Finset ℕ :=
  (range m.nextIndex).filter fun i => (m.uploaders i).any p

def runningTransfers (m : Manager) : Finset ℕ :=
  m.uploadersWhere fun u => decide (u.state = .running)

/-- The rows that are accounted for and have not come to an end. -/
def accountedRows (m : Manager) : Finset ℕ :=
  m.uploadersWhere fun u => u.pendingAccounted && u.state.isLive

/-- The entries of the open batches that have no uploader yet. -/
def openEntries (m : Manager) : ℕ :=
  ∑ b ∈ range m.nextBatchId, ((m.batches b).map Batch.remainingEntries).getD 0

/-- The accounts of the manager as its user may rely on them. -/
structure InOrder (env : UploadEnvironment) (m : Manager) : Prop where
  /-- Every uploader is one of those that are counted. -/
  indexed : ∀ i u, m.uploaders i = some u → i < m.nextIndex
  running : m.running = m.runningTransfers.card
  running_le : m.runningTransfers.card ≤ env.maxConcurrentUploads
  /-- Nothing was unresolved when an upload was started. -/
  starts : ∀ unresolved ∈ m.starts, unresolved = ∅
  paused : m.unresolvedUnknown ≠ ∅ → m.queueState ≠ .running
  pending : m.pendingRows = m.accountedRows.card + m.openEntries
  pending_nonneg : 0 ≤ m.pendingRows
  reserved_nonneg : 0 ≤ m.preflightReservedRows
  capacity : m.pendingRows + m.preflightReservedRows ≤ 512
  transferred : m.transferFailed = false
  unique : ∀ i j u v, m.uploaders i = some u → m.uploaders j = some v → u.state.isLive = true →
    v.state.isLive = true → u.name = v.name → i = j

end Manager

lemma uploadersWhere_eq_select (p : Row → Bool) :
    m.uploadersWhere (fun u => p u.row) = m.books.select p := by
  refine filter_congr fun i _ => ?_
  cases hu : m.uploaders i <;> simp [Manager.books, hu]

/-- The rows that are accounted for are those under way. -/
lemma accountedRows_eq_liveSet {claimed : List String} (h : m.books.Named claimed) :
    m.accountedRows = m.books.liveSet := by
  have hsel := uploadersWhere_eq_select (m := m) fun row =>
    row.pendingAccounted && row.state.isLive
  refine hsel.trans ?_
  ext i
  rw [Books.liveSet, Books.mem_select, Books.mem_select]
  cases hrow : m.books.rows i with
  | none => simp
  | some row => simp [(h.accounted i row hrow).1]

/-- The first selection alone has a batch with entries left. -/
lemma openEntries_eq (h : Turn env left batchId reserved rest m) : m.openEntries = left.length := by
  have hopen : ∀ b ∈ range m.nextBatchId,
      ((m.batches b).map Batch.remainingEntries).getD 0 = if b = batchId then left.length else 0 :=
    fun b _ => h.openEntries b
  rw [Manager.openEntries, sum_congr rfl hopen, sum_ite_eq']
  split
  case isTrue => rfl
  case isFalse hcls =>
    by_contra hne
    refine hcls (mem_range.2 (h.opened fun hnil => hne ?_))
    rw [hnil, List.length_nil]

lemma Turn.inOrder (h : Turn env left batchId reserved rest m) : m.InOrder env := by
  have hrun : m.runningTransfers = m.books.runningSet :=
    uploadersWhere_eq_select fun row => decide (row.state = .running)
  have hpend : m.pendingRows = m.accountedRows.card + m.openEntries := by
    rw [accountedRows_eq_liveSet h.sound.toNamed, openEntries_eq h]
    exact h.sound.pending
  have hrsv : m.preflightReservedRows = reserved + reservedRows rest := h.reserved
  constructor
  case indexed => exact fun i u hu => h.sound.bounded i u.row (rows_of_uploader hu)
  case running =>
    rw [hrun]
    exact h.sound.running
  case running_le =>
    rw [hrun]
    exact (card_le_card subset_union_left).trans h.sound.slots
  case starts => exact h.sound.starts
  case paused => exact fun hne hque => hne (h.sound.resolved hque)
  case pending => exact hpend
  case pending_nonneg => omega
  case reserved_nonneg => omega
  case capacity => exact h.sound.capacity
  case transferred => exact h.transferFailed
  case unique =>
    exact fun i j u v hu hv => h.sound.unique i j u.row v.row (rows_of_uploader hu)
      (rows_of_uploader hv)

/-- Whatever happens, and in whatever order, the accounts of the manager are in order. -/
theorem upload_manager_in_order (env : UploadEnvironment) (schedule : ℕ → ℕ × ManagerEvent)
    (n : ℕ) : ((uploadManager env).run schedule n).InOrder env := by
  obtain ⟨_, _, _, _, -, hturn⟩ : Balanced env ((uploadManager env).run schedule n) :=
    Transition.Machine.run_invariant Balanced.init (fun _ _ _ h hstep => h.step hstep) n
  exact hturn.inOrder

/-- A page that uploads two files at a time. -/
def pairPage : UploadEnvironment where
  maxConcurrentUploads := 2
  maxTerminalRows := 8
  randomUUID n := if n = 0 then "first" else if n = 1 then "second" else "third"
  logicalChildPath name := name
  dispatches _ := true

/-- A response about the second upload, all of whose one byte has arrived. -/
def secondResponse (status : ℕ) (state : String) (detail : ProblemDetail) : Response where
  status := status
  errorCode := none
  headers
    | .uploadId => some "second"
    | .operationState => some state
    | .uploadLength | .uploadOffset => some "1"
    | .targetRevision => none
    | .targetReplaceable => some "true"
  detail := detail
  retryAfter := none

/-- The outcome of the first upload is unknown when the server has no target for the second one any
more, so that its staged file is discarded. -/
def discardedStage : ℕ → ℕ × ManagerEvent
  | 0 => (0, .addFiles [⟨"a", 1⟩, ⟨"b", 1⟩])
  | 1 => (0, .beginSelection)
  | 2 => (0, .preflightReply [⟨"a", false, none, true⟩, ⟨"b", false, none, true⟩])
  | 3 => (0, .networkError 0)
  | 4 => (0, .uploadResponse 1
      (secondResponse 409 "awaiting-confirmation" ⟨409, .uploadTargetChanged, .other⟩))
  | _ => (0, .discardReply 1 (secondResponse 204 "rejected" ⟨0, .other, .other⟩))

/-- An upload that runs already is sent again, as a new one, while another outcome is unknown. -/
theorem discarded_stage_sent_anew :
    let m := (uploadManager pairPage).run discardedStage 5
    let m' := (uploadManager pairPage).run discardedStage 6
    m.unresolvedUnknown = {0} ∧ m'.unresolvedUnknown = {0} ∧
      ∃ request, m'.sent = m.sent ++ [request] ∧ request.phase = .fresh ∧
        ∀ r ∈ m.sent, r.uploadId ≠ request.uploadId := by
  refine ⟨by decide +kernel, by decide +kernel, ⟨1, .fresh, "third", 1, none, false, none⟩, ?_⟩
  decide +kernel

end DufsRam.Client
