import DufsRam.Client.Books

/-!
# The operations of the manager keep its accounts

Every operation of an uploader, and the loop that starts the queued ones, is followed in the books.
What the selections rely on is left alone by all of them.
-/

namespace DufsRam.Client

open Manager Function Batch

variable {env : UploadEnvironment} {m m₀ m' : Manager} {i batchId : ℕ} {u : Uploader}
  {g : Row → Row} {f : Uploader → Uploader} {recovery : Recovery} {disposable : Bool}
  {ending : Ending} {batch : Option Batch} {d : Desk}

/-! ### The books of an operation -/

namespace Books

def modify (i : ℕ) (g : Row → Row) (b : Books) : Books :=
  { b with rows := Function.update b.rows i ((b.rows i).map g) }

lemma modify_of_row {b : Books} {row : Row} (h : b.rows i = some row) :
    b.modify i g = b.set i (g row) := by
  simp [modify, set, h]

end Books

lemma books_modify (h : ∀ u, (f u).row = g u.row) : (m.modify i f).books = m.books.modify i g := by
  have hrows : (m.modify i f).books.rows = (m.books.modify i g).rows := by
    funext j
    by_cases hj : j = i
    · subst hj
      simp [books, Books.modify, comp_def, h]
    · simp [Manager.books, Books.modify, Manager.modify, hj]
  exact congrArg (fun rows => ({ m.books with rows } : Books)) hrows

lemma Plain.row (h : Plain f) (u : Uploader) : (f u).row = u.row := by
  simp [Uploader.row, h.name, h.state, h.pendingAccounted, h.runningAccounted]

lemma books_modify_of_same (h : ∀ u, (f u).row = u.row) : (m.modify i f).books = m.books := by
  rw [books_modify (g := id) h]
  simp [Books.modify]

@[simp] lemma books_modify_of_plain (h : Plain f) : (m.modify i f).books = m.books :=
  books_modify_of_same h.row

@[simp] lemma books_clearTimeouts : (m.clearTimeouts i).books = m.books :=
  books_modify_of_plain (by constructor <;> simp)

@[simp] lemma books_clearRecovery : (m.clearRecovery i).books = m.books := by
  have h := books_modify_of_plain (m := m) (i := i) (f := fun u =>
    { u with recoveryTimer := false, recoveryAction := .none, recoveryAvailableAt := some 0 })
    (by constructor <;> simp)
  exact h

@[simp] lemma books_createRecoveryButton : (m.createRecoveryButton i recovery).books = m.books := by
  unfold createRecoveryButton
  split
  · rfl
  · refine books_modify_of_plain ?_
    constructor <;> intro u <;> dsimp only <;> split <;> try split
    all_goals simp

/-- What neither the rows of the table nor the buttons matter for. -/
lemma addTerminalRow_keeps {α : Type} {f : Manager → α} (hclr : ∀ m i, f (clearRecovery i m) = f m)
    (hrows : ∀ (m : Manager) rows, f { m with terminalHistory := rows } = f m)
    (row : TerminalUploadRow) : f (m.addTerminalRow env row) = f m := by
  have hfold : ∀ (rows : List TerminalUploadRow) (m : Manager), f (rows.foldl (fun m evicted =>
        if evicted.disposable then m.clearRecovery evicted.index else m) m) = f m := by
    intro rows
    induction rows with
    | nil => exact fun _ => rfl
    | cons row rest ih =>
      intro m
      rw [List.foldl_cons, ih]
      split
      · exact hclr m row.index
      · rfl
  exact (hfold _ _).trans (hrows m _)

@[simp] lemma books_addTerminalRow {row : TerminalUploadRow} :
    (m.addTerminalRow env row).books = m.books :=
  addTerminalRow_keeps (f := books) (fun _ _ => books_clearRecovery) (fun _ _ => rfl) row

@[simp] lemma books_removeTerminalRow : (m.removeTerminalRow i).books = m.books := rfl

@[simp] lemma books_leaveBatch : (m.leaveBatch i batchId).books = m.books := rfl

lemma exists_uploader {row : Row} (h : m.books.rows i = some row) :
    ∃ u, m.uploaders i = some u ∧ u.row = row :=
  Option.map_eq_some_iff.1 h

lemma rows_of_uploader (h : m.uploaders i = some u) : m.books.rows i = some u.row := by
  simp [books, h]

section Row

variable {row : Row}

lemma books_retainTerminalRow (hrow : m.books.rows i = some row)
    (hpend : row.pendingAccounted = true) : (m.retainTerminalRow env i disposable).books =
      { m.books.set i { row with pendingAccounted := false } with
        pendingRows := max 0 (m.books.pendingRows - 1)
        knownTargets := m.books.knownTargets.erase row.name } := by
  obtain ⟨u, hu, rfl⟩ := exists_uploader hrow
  have hrelease : (m.releasePending i).books =
      { m.books.set i { u.row with pendingAccounted := false } with
        pendingRows := max 0 (m.books.pendingRows - 1) } := by
    have hmod : (m.modify i fun u => { u with pendingAccounted := false }).books =
        m.books.set i { u.row with pendingAccounted := false } := by
      rw [books_modify (g := fun row => { row with pendingAccounted := false }) fun _ => rfl,
        Books.modify_of_row hrow]
    have hu' : u.pendingAccounted = true := hpend
    simp only [releasePending, hu, hu', if_true]
    exact congrArg (fun b : Books => { b with pendingRows := max 0 (m.books.pendingRows - 1) }) hmod
  simp only [retainTerminalRow, hu, books_addTerminalRow, books_leaveBatch]
  exact congrArg (fun b : Books => { b with knownTargets := b.knownTargets.erase u.name }) hrelease

lemma books_releaseSlot (hrow : m.books.rows i = some row) : (m.releaseSlot i).books =
      { m.books.set i { row with runningAccounted := false } with
        running := max 0 (m.books.running - 1) } := by
  have hmod : (m.modify i fun u => { u with runningAccounted := false }).books =
      m.books.set i { row with runningAccounted := false } := by
    rw [books_modify (g := fun row => { row with runningAccounted := false }) fun _ => rfl,
      Books.modify_of_row hrow]
  exact congrArg (fun b : Books => { b with running := max 0 (m.books.running - 1) }) hmod

/-- The unresolved outcomes after an upload has ended. -/
def Manager.Ending.unresolved (ending : Ending) (i : ℕ) (unresolved : Finset ℕ) : Finset ℕ :=
  if ending = .unknown then insert i unresolved else unresolved

def Manager.Ending.queueState (ending : Ending) (state : QueueState) : QueueState :=
  if ending = .unknown then if state = .pausedAuth then .pausedAuth else .pausedUnknown else state

lemma books_pauseForUnknown :
    (if ending = .unknown then m.pauseForUnknown i else m).books = { m.books with
        unresolvedUnknown := ending.unresolved i m.books.unresolvedUnknown
        queueState := ending.queueState m.books.queueState } := by
  unfold Ending.unresolved Ending.queueState
  split <;> rfl

lemma books_conclude (hrow : m.books.rows i = some row)
    (hpend : row.pendingAccounted = true) : (m.conclude env i ending recovery).books =
      { m.books.set i { row with state := ending.state, pendingAccounted := false } with
        pendingRows := max 0 (m.books.pendingRows - 1)
        knownTargets := m.books.knownTargets.erase row.name
        unresolvedUnknown := ending.unresolved i m.books.unresolvedUnknown
        queueState := ending.queueState m.books.queueState } := by
  have hst : (((m.clearTimeouts i).clearRecovery i).modify i fun u =>
      { u with state := ending.state, phase := ending.phase, awaiting := .nothing }).books =
      m.books.set i { row with state := ending.state } := by
    rw [books_modify (g := fun row => { row with state := ending.state }) fun _ => rfl,
      books_clearRecovery, books_clearTimeouts, Books.modify_of_row hrow]
  unfold conclude
  dsimp only
  generalize (((m.clearTimeouts i).clearRecovery i).modify i fun u =>
    { u with state := ending.state, phase := ending.phase, awaiting := .nothing }) = m₁ at hst ⊢
  have hrow₁ : ((if ending = .unknown then m₁.pauseForUnknown i else m₁).createRecoveryButton i
      recovery).books.rows i = some { row with state := ending.state } := by
    rw [books_createRecoveryButton, books_pauseForUnknown, hst]
    exact Books.rows_set_self
  rw [books_retainTerminalRow hrow₁ hpend, books_createRecoveryButton, books_pauseForUnknown, hst]
  simp [Books.set]

/-- The end of an upload and the release of its slot, where no counter is at zero. -/
lemma books_retire (hrow : m.books.rows i = some row)
    (hpend : row.pendingAccounted = true) (hpos : 1 ≤ m.books.pendingRows)
    (hpos' : 1 ≤ m.books.running) : ((m.conclude env i ending recovery).releaseSlot i).books =
      { m.books.set i ⟨row.name, ending.state, false, false⟩ with
        running := m.books.running - 1
        pendingRows := m.books.pendingRows - 1
        knownTargets := m.books.knownTargets.erase row.name
        unresolvedUnknown := ending.unresolved i m.books.unresolvedUnknown
        queueState := ending.queueState m.books.queueState } := by
  have hconclude : (m.conclude env i ending recovery).books = _ := books_conclude hrow hpend
  have hrow' : (m.conclude env i ending recovery).books.rows i =
      some { row with state := ending.state, pendingAccounted := false } := by
    rw [hconclude]
    exact Books.rows_set_self
  have hpend' : max 0 (m.books.pendingRows - 1) = m.books.pendingRows - 1 := by omega
  have hrun' : max 0 (m.books.running - 1) = m.books.running - 1 := by omega
  rw [books_releaseSlot hrow', hconclude]
  simp only [Books.set, update_idem, hpend', hrun']

end Row

/-! ### What the selections rely on -/

/-- The selections and the batches. -/
structure Desk where
  jobs : List SelectionJob
  preflightReservedRows : ℤ
  transferFailed : Bool
  nextBatchId : ℕ
  batches : ℕ → Option Batch

def Manager.desk (m : Manager) : Desk :=
  ⟨m.jobs, m.preflightReservedRows, m.transferFailed, m.nextBatchId, m.batches⟩

namespace Desk

/-- The entries of a batch that have no uploader yet. -/
def openEntries (d : Desk) (batchId : ℕ) : ℕ := ((d.batches batchId).map remainingEntries).getD 0

/-- A batch whose loop has ended has no entries left. -/
def Complete (d : Desk) : Prop :=
  ∀ batchId batch, d.batches batchId = some batch → batch.enqueueComplete = true →
    batch.remainingEntries = 0

/-- What an uploader may do to the batches: their entries remain. -/
structure Same (d d' : Desk) : Prop where
  jobs : d'.jobs = d.jobs
  preflightReservedRows : d'.preflightReservedRows = d.preflightReservedRows
  transferFailed : d'.transferFailed = d.transferFailed
  nextBatchId : d'.nextBatchId = d.nextBatchId
  openEntries : ∀ batchId, d'.openEntries batchId = d.openEntries batchId
  complete : d'.Complete

variable {d' d'' : Desk}

lemma Same.trans (h : d.Same d') (h' : d'.Same d'') : d.Same d'' where
  jobs := h'.jobs.trans h.jobs
  preflightReservedRows := h'.preflightReservedRows.trans h.preflightReservedRows
  transferFailed := h'.transferFailed.trans h.transferFailed
  nextBatchId := h'.nextBatchId.trans h.nextBatchId
  openEntries batchId := (h'.openEntries batchId).trans (h.openEntries batchId)
  complete := h'.complete

/-- The desk with another batch in the place of this one. -/
def update (batchId : ℕ) (batch : Option Batch) (d : Desk) : Desk :=
  { d with batches := Function.update d.batches batchId batch }

lemma openEntries_update (d : Desk) (batchId : ℕ) (batch : Option Batch) (b : ℕ) :
    (d.update batchId batch).openEntries b =
      if b = batchId then (batch.map remainingEntries).getD 0 else d.openEntries b := by
  by_cases hb : b = batchId <;> simp [openEntries, update, hb]

lemma Complete.update (h : d.Complete)
    (hbat : ∀ batch' ∈ batch, batch'.enqueueComplete = true → batch'.remainingEntries = 0) :
    (d.update batchId batch).Complete := by
  intro b batch' hbat'
  by_cases hb : b = batchId
  · subst hb
    simp only [Desk.update, update_self] at hbat'
    exact hbat batch' hbat'
  · simp only [Desk.update, update_of_ne hb] at hbat'
    exact h b batch' hbat'

/-- A batch is changed, or goes once it has no entries left. -/
lemma same_update (h : d.Complete)
    (hopen : (batch.map remainingEntries).getD 0 = d.openEntries batchId)
    (hbat : ∀ batch' ∈ batch, batch'.enqueueComplete = true → batch'.remainingEntries = 0) :
    d.Same (d.update batchId batch) where
  jobs := rfl
  preflightReservedRows := rfl
  transferFailed := rfl
  nextBatchId := rfl
  openEntries b := by
    rw [openEntries_update]
    split
    case isTrue hb => rw [hopen, hb]
    case isFalse => rfl
  complete := h.update hbat

lemma openEntries_of_batch {batch : Batch} (h : d.batches batchId = some batch) :
    d.openEntries batchId = batch.remainingEntries := by
  simp [openEntries, h]

end Desk

@[simp] lemma desk_createRecoveryButton : (m.createRecoveryButton i recovery).desk = m.desk := by
  unfold createRecoveryButton
  split <;> rfl

@[simp] lemma desk_addTerminalRow {row : TerminalUploadRow} :
    (m.addTerminalRow env row).desk = m.desk :=
  addTerminalRow_keeps (f := desk) (fun _ _ => rfl) (fun _ _ => rfl) row

@[simp] lemma desk_releasePending : (m.releasePending i).desk = m.desk := by
  unfold releasePending
  split
  · split <;> rfl
  · rfl

lemma desk_leaveBatch (h : m.desk.Complete) (batchId : ℕ) :
    m.desk.Same (m.leaveBatch i batchId).desk := by
  have hcpl := h batchId
  refine Desk.same_update h ?_ ?_
  · cases hbat : m.batches batchId with
    | none => simp [Desk.openEntries, desk, hbat]
    | some batch =>
      rw [Desk.openEntries_of_batch hbat, Option.bind_some]
      unfold without
      dsimp only
      split
      case isTrue hgone => exact (hcpl batch hbat hgone.1).symm
      case isFalse => rfl
  · intro batch' hbat'
    obtain ⟨batch, hbat, hwo⟩ := Option.bind_eq_some_iff.1 hbat'
    unfold without at hwo
    dsimp only at hwo
    split at hwo <;> cases hwo
    exact hcpl batch hbat

lemma desk_retainTerminalRow (h : m.desk.Complete) :
    m.desk.Same (m.retainTerminalRow env i disposable).desk := by
  unfold retainTerminalRow
  split
  · next u hu =>
    rw [desk_addTerminalRow]
    have hdesk : ({ (m.releasePending i).removeTerminalRow i with
        knownTargets := ((m.releasePending i).removeTerminalRow i).knownTargets.erase u.name } :
          Manager).desk = m.desk := desk_releasePending
    have hsame := desk_leaveBatch (i := i) (hdesk ▸ h) u.batchId
    rwa [hdesk] at hsame
  · exact ⟨rfl, rfl, rfl, rfl, fun _ => rfl, h⟩

lemma desk_conclude (h : m.desk.Complete) :
    m.desk.Same (m.conclude env i ending recovery).desk := by
  unfold conclude
  dsimp only
  have hdesk : ∀ m₁ : Manager, (if ending = .unknown then m₁.pauseForUnknown i else m₁).desk =
      m₁.desk := by
    intro m₁
    split <;> rfl
  generalize hm₁ : (if ending = .unknown then _ else _ : Manager) = m₁
  have hm₁desk : m₁.desk = m.desk := by
    rw [← hm₁, hdesk]
    rfl
  have hsame : (m₁.createRecoveryButton i recovery).desk.Same
      ((m₁.createRecoveryButton i recovery).retainTerminalRow env i
        (decide (recovery.action ≠ .none))).desk :=
    desk_retainTerminalRow (by simpa [hm₁desk] using h)
  rwa [desk_createRecoveryButton, hm₁desk] at hsame

/-! ### The loop of the queue -/

@[simp] lemma queue_retainTerminalRow : (m.retainTerminalRow env i disposable).queue = m.queue := by
  unfold retainTerminalRow
  split
  · refine (addTerminalRow_keeps (f := queue) (fun _ _ => rfl) (fun _ _ => rfl) _).trans ?_
    unfold leaveBatch removeTerminalRow releasePending
    split <;> try split
    all_goals rfl
  · rfl

lemma queue_failInLoop : (m.failInLoop env i recovery).queue = m.queue := by
  unfold Manager.failInLoop Manager.conclude Manager.releaseSlot
  split
  · dsimp only [Manager.modify]
    rw [queue_retainTerminalRow, if_neg (by decide)]
    unfold Manager.createRecoveryButton
    split <;> rfl
  · rfl

/-- Starting an uploader takes nothing from the queue. -/
lemma queue_startQueued : (m.startQueued env i).queue = m.queue := by
  have htransmits : Transmits i fun m' => m'.queue = m.queue :=
    ⟨fun _ h => h, fun h => h, fun _ h => h⟩
  unfold startQueued start
  split
  · split
    · rfl
    · split
      · rfl
      · rfl
      · refine htransmits.sendBodyWith ?_ _ fun h => queue_failInLoop.trans h
        rfl
  · rfl

/-- The loop ends because no slot is free or nothing is queued, and not for want of fuel. -/
theorem runQueueLoop_stops (n : ℕ) (m : Manager) (hn : m.queue.remaining < n) :
    env.maxConcurrentUploads ≤ (runQueueLoop env n m).running ∨
      (runQueueLoop env n m).queue.dequeue.1 = none := by
  induction n generalizing m with
  | zero => exact absurd hn (Nat.not_lt_zero _)
  | succ n ih =>
    unfold runQueueLoop
    split
    case isFalse hfull => exact .inl (Int.not_lt.1 hfull)
    case isTrue =>
      split
      · next queue hque => exact .inr (UploadQueue.dequeue_of_empty hque)
      · next j queue hque =>
        refine ih _ ?_
        rw [queue_startQueued]
        exact (UploadQueue.remaining_dequeue hque).trans_le (Nat.le_of_lt_succ hn)

/-! ### Taking an upload up -/

/-- The row of an uploader is accounted as pending, unless it is so already. -/
lemma books_accountPending {row : Row} (hrow : m.books.rows i = some row) :
    (m.accountPending i).desk = m.desk ∧
    (m.accountPending i).books = { m.books.set i { row with pendingAccounted := true } with
      pendingRows := m.books.pendingRows + if row.pendingAccounted then 0 else 1 } := by
  obtain ⟨u, hu, rfl⟩ := exists_uploader hrow
  simp only [accountPending, hu]
  split
  case isTrue hpend =>
    refine ⟨rfl, ?_⟩
    have hrow' : { u.row with pendingAccounted := true } = u.row := by
      simp [Uploader.row, hpend]
    have hpend' : u.row.pendingAccounted = true := hpend
    have hrows : Function.update m.books.rows i (some u.row) = m.books.rows :=
      update_eq_self_iff.2 hrow.symm
    simp only [hrow', hpend', if_true, Books.set, hrows, add_zero]
  case isFalse hpend =>
    refine ⟨rfl, ?_⟩
    have hpend' : u.row.pendingAccounted = false := Bool.not_eq_true _ ▸ hpend
    have hmod : (m.modify i fun u => { u with pendingAccounted := true }).books =
        m.books.set i { u.row with pendingAccounted := true } := by
      rw [books_modify (g := fun row => { row with pendingAccounted := true }) fun _ => rfl,
        Books.modify_of_row hrow]
    simp only [hpend', Bool.false_eq_true, if_false]
    exact congrArg (fun b : Books => { b with pendingRows := m.books.pendingRows + 1 }) hmod

/-- An uploader is enqueued: its row is accounted for, and then the queue is run. -/
lemma enqueue_eq_runQueue {row : Row} (hrow : m.books.rows i = some row)
    (recovery : UploadRecoveryAction) :
    ∃ m₁ : Manager, m.enqueue env i recovery = m₁.runQueue env ∧ m₁.desk = m.desk ∧
      m₁.books = { m.books.set i { row with state := .queued, pendingAccounted := true } with
        pendingRows := m.books.pendingRows + if row.pendingAccounted then 0 else 1 } := by
  obtain ⟨hdesk, hbooks⟩ := books_accountPending (m := m.removeTerminalRow i) hrow
  refine ⟨_, rfl, hdesk, ?_⟩
  generalize (m.removeTerminalRow i).accountPending i = m' at hbooks ⊢
  have hrow' : m'.books.rows i = some { row with pendingAccounted := true } := by
    rw [hbooks]
    exact Books.rows_set_self
  have hqd : (m'.modify i fun u =>
      { u with
        state := .queued
        pendingRecovery := recovery
        queueEntry := some (m'.queue.enqueue i).2 }).books =
      m'.books.set i { row with state := .queued, pendingAccounted := true } := by
    rw [books_modify (g := fun row => { row with state := .queued }) fun _ => rfl,
      Books.modify_of_row hrow']
  refine hqd.trans ?_
  rw [hbooks]
  simp only [Books.set, update_idem, books_removeTerminalRow]

/-! ### The accounts -/

/-- The accounts are in order, and the selections and batches are as they were. -/
structure Accounts (env : UploadEnvironment) (claimed : List String) (openEntries : ℕ) (d : Desk)
    (m : Manager) : Prop where
  sound : m.books.Sound env claimed openEntries
  same : d.Same m.desk

namespace Accounts

variable {claimed : List String} {k : ℕ}

/-- An operation that changes neither the books nor the selections. -/
lemma congr (h : Accounts env claimed k d m) (hbooks : m'.books = m.books)
    (hdesk : m'.desk = m.desk) : Accounts env claimed k d m' :=
  ⟨hbooks ▸ h.sound, hdesk ▸ h.same⟩

lemma modify (h : Accounts env claimed k d m) (hf : Plain f) :
    Accounts env claimed k d (m.modify i f) :=
  h.congr (books_modify_of_plain hf) rfl

lemma transmits : Transmits i (Accounts env claimed k d) where
  modify hf h := h.modify hf
  attempt h := h.congr rfl rfl
  send _ h := h.congr rfl rfl

/-- The same while the queue runs. -/
lemma runs : Transmits i fun m => Accounts env claimed k d m ∧ m.queueState = .running where
  modify hf h := ⟨h.1.modify hf, h.2⟩
  attempt h := ⟨h.1.congr rfl rfl, h.2⟩
  send _ h := ⟨h.1.congr rfl rfl, h.2⟩

section

variable (h : Accounts env claimed k d m)

include h

lemma pending_of_running {row : Row} (hrow : m.books.rows i = some row)
    (hst : row.state = .running) :
    row.pendingAccounted = true ∧ row.runningAccounted = true := by
  obtain ⟨hpend, hrun⟩ := h.sound.accounted i row hrow
  rw [hst] at hpend hrun
  exact ⟨hpend, hrun⟩

/-- A running upload ends and gives its slot back. -/
lemma retire (hst : m.hasState i .running) :
    Accounts env claimed k d ((m.conclude env i ending recovery).releaseSlot i) ∧
      ((m.conclude env i ending recovery).releaseSlot i).queueState =
        ending.queueState m.queueState := by
  obtain ⟨u, hu, hst⟩ := hst
  have hrow := rows_of_uploader hu
  have hrun : u.row.state = .running := hst
  have hflg := h.pending_of_running hrow hrun
  have hlive : u.row.state.isLive = true := by rw [hrun]; rfl
  have hbooks : ((m.conclude env i ending recovery).releaseSlot i).books = _ :=
    books_retire hrow hflg.1 (h.sound.pending_pos hrow hlive) (h.sound.running_pos hrow hrun)
  refine ⟨⟨?_, h.same.trans (desk_conclude h.same.complete)⟩, congrArg Books.queueState hbooks⟩
  rw [hbooks]
  refine h.sound.leave hrow hlive (by cases ending <;> rfl) ⟨rfl, rfl⟩ (by rw [if_pos hrun]) ?_ ?_
  · intro j hj
    unfold Ending.unresolved at hj
    split at hj
    · rcases Finset.mem_insert.1 hj with rfl | hj
      · exact .inr ⟨rfl, hrun⟩
      · exact .inl hj
    · exact .inl hj
  · intro hq
    unfold Ending.queueState at hq
    unfold Ending.unresolved
    split at hq
    · split at hq <;> cases hq
    · next hne =>
      rw [if_neg hne]
      exact h.sound.resolved hq

/-! ### The queue -/

/-- The uploader is accounted as running before it is started. -/
lemma started (hque : m.queueState = .running) (hslot : m.running < env.maxConcurrentUploads)
    (hst : m.hasState i .queued) (hm' : m' = { m.modify i fun u =>
      { u with queueEntry := none, runningAccounted := true } with
        running := m.running + 1
        starts := m.starts ++ [m.unresolvedUnknown] }) : Accounts env claimed k d
      (m'.modify i fun u => { u with state := .running, pendingRecovery := .none }) := by
  obtain ⟨u, hu, hst⟩ := hst
  have hrow := rows_of_uploader hu
  have hbooks : m'.books = { m.books.set i { u.row with runningAccounted := true } with
      running := m.books.running + 1
      starts := m.books.starts ++ [m.books.unresolvedUnknown] } := by
    have hmod : (m.modify i fun u =>
        { u with queueEntry := none, runningAccounted := true }).books =
        m.books.set i { u.row with runningAccounted := true } := by
      rw [books_modify (g := fun row => { row with runningAccounted := true }) fun _ => rfl,
        Books.modify_of_row hrow]
    rw [hm']
    exact congrArg (fun b : Books =>
      { b with
        running := m.books.running + 1
        starts := m.books.starts ++ [m.books.unresolvedUnknown] }) hmod
  refine ⟨?_, ?_⟩
  · have hrow' : m'.books.rows i = some { u.row with runningAccounted := true } := by
      rw [hbooks]
      exact Books.rows_set_self
    rw [books_modify (g := fun row => { row with state := .running }) fun _ => rfl,
      Books.modify_of_row hrow', hbooks]
    have hstart := h.sound.start hrow hst hque hslot
    simpa only [Books.set, update_idem] using hstart
  · rw [hm']
    exact h.same

lemma failInLoop : Accounts env claimed k d (m.failInLoop env i recovery) ∧
      (m.failInLoop env i recovery).queueState = m.queueState := by
  unfold Manager.failInLoop
  split
  case isTrue hst => exact h.retire hst
  case isFalse => exact ⟨h, rfl⟩

lemma startQueued (hque : m.queueState = .running) (hslot : m.running < env.maxConcurrentUploads) :
    Accounts env claimed k d (m.startQueued env i) ∧
      (m.startQueued env i).queueState = .running := by
  unfold Manager.startQueued
  split
  case isFalse => exact ⟨h, hque⟩
  case isTrue hst =>
    have hsta := h.started hque hslot hst rfl
    unfold start
    split
    · next hnone =>
      obtain ⟨u, hu, -⟩ := hst
      rw [uploaders_modify, hu] at hnone
      cases hnone
    · split
      · exact ⟨transmits.queryCheckpoint hsta _ _, hque⟩
      · exact ⟨transmits.queryCheckpoint hsta _ _, hque⟩
      · refine runs.sendBodyWith ⟨hsta, hque⟩ _ fun ⟨h, hque⟩ => ?_
        exact ⟨h.failInLoop.1, h.failInLoop.2.trans hque⟩

/-- While the loop runs nothing pauses the queue. -/
lemma runQueueLoop (hque : m.queueState = .running) (n : ℕ) :
    Accounts env claimed k d (runQueueLoop env n m) := by
  induction n generalizing m with
  | zero => exact h
  | succ n ih =>
    unfold runQueueLoop
    split
    case isFalse => exact h
    case isTrue hslot =>
      split
      · exact h.congr rfl rfl
      · next i queue _ =>
        have htaken : Accounts env claimed k d { m with queue } := h.congr rfl rfl
        have hround := htaken.startQueued (i := i) hque hslot
        exact ih hround.1 hround.2

lemma runQueue : Accounts env claimed k d (m.runQueue env) := by
  unfold Manager.runQueue
  split
  case isTrue => exact h
  case isFalse hopen =>
    exact h.runQueueLoop (not_not.1 fun hque => hopen (.inl hque)) _

/-- Outcomes are resolved, and the queue runs only if all are. -/
lemma resolve {unresolved : Finset ℕ} {q : QueueState} (hsub : unresolved ⊆ m.unresolvedUnknown)
    (hq : q = .running → unresolved = ∅) :
    Accounts env claimed k d { m with unresolvedUnknown := unresolved, queueState := q } :=
  ⟨h.sound.of_same_rows rfl rfl rfl rfl hsub hq h.sound.known h.sound.toNamed.claimed rfl
    h.sound.capacity, h.same⟩

lemma resolveUnknown : Accounts env claimed k d (m.resolveUnknown env i) := by
  have hsub : m.unresolvedUnknown.erase i ⊆ m.unresolvedUnknown := Finset.erase_subset _ _
  unfold Manager.resolveUnknown
  split
  case isFalse => exact h
  case isTrue =>
    dsimp only
    split
    case isTrue =>
      refine h.resolve hsub fun hq => ?_
      exact Finset.subset_empty.1 (hsub.trans (h.sound.resolved hq).subset)
    case isFalse hnone =>
      refine (h.resolve hsub fun _ => ?_).runQueue
      exact not_not.1 fun hne => hnone (.inl hne)

lemma pauseForAuthentication : Accounts env claimed k d m.pauseForAuthentication :=
  h.resolve (Finset.Subset.refl _) nofun

/-! ### The ends of an uploader -/

lemma finish : Accounts env claimed k d (m.finish env i ending recovery) := by
  unfold Manager.finish
  split
  case isFalse => exact h
  case isTrue hst =>
    have hretired : Accounts env claimed k d
        ((m.conclude env i ending recovery).releaseSlot i) := (h.retire hst).1
    obtain ⟨u, hu, hst⟩ := hst
    have hrow := rows_of_uploader hu
    have hflg := h.pending_of_running hrow hst
    -- the slot is still accounted for when `finishRunning` looks
    obtain ⟨u', hu', hrow'⟩ : ∃ u', (m.conclude env i ending recovery).uploaders i = some u' ∧
        u'.row = { u.row with state := ending.state, pendingAccounted := false } := by
      apply exists_uploader
      rw [books_conclude hrow hflg.1]
      exact Books.rows_set_self
    have hacc : u'.runningAccounted = true :=
      (congrArg Row.runningAccounted hrow').trans hflg.2
    simp only [finishRunning, hu', hacc, if_true]
    exact hretired.runQueue

lemma cancelQueued (hst : m.hasState i .queued) (queue : UploadQueue ℕ) :
    Accounts env claimed k d (m.cancelQueued env i queue) := by
  obtain ⟨u, hu, hst⟩ := hst
  have hrow := rows_of_uploader hu
  have hqd : u.row.state = .queued := hst
  have hlive : u.row.state.isLive = true := by rw [hqd]; rfl
  obtain ⟨hpend, hrun⟩ := h.sound.accounted i u.row hrow
  rw [hqd] at hpend hrun
  generalize hm₁ : ((({ m with queue } : Manager).modify i fun u =>
    { u with queueEntry := none }).clearRecovery i).modify i
      (fun u => { u with state := .cancelled, phase := .cancelled }) = m₁
  have hbooks₁ : m₁.books = m.books.set i { u.row with state := .cancelled } := by
    rw [← hm₁, books_modify (g := fun row => { row with state := .cancelled }) fun _ => rfl,
      books_clearRecovery, books_modify_of_plain (by constructor <;> simp)]
    exact Books.modify_of_row hrow
  have hdesk₁ : m₁.desk = m.desk := by rw [← hm₁]; rfl
  have hcncl : Accounts env claimed k d (m₁.retainTerminalRow env i false) := by
    have hrow₁ : m₁.books.rows i = some { u.row with state := .cancelled } := by
      rw [hbooks₁]
      exact Books.rows_set_self
    have hsame : m₁.desk.Same (m₁.retainTerminalRow env i false).desk :=
      desk_retainTerminalRow (hdesk₁ ▸ h.same.complete)
    refine ⟨?_, h.same.trans (hdesk₁ ▸ hsame)⟩
    have hpos : max 0 (m.books.pendingRows - 1) = m.books.pendingRows - 1 :=
      max_eq_right (Int.sub_nonneg_of_le (h.sound.pending_pos hrow hlive))
    rw [books_retainTerminalRow hrow₁ hpend, hbooks₁]
    simp only [Books.set, update_idem, hpos, hrun]
    exact h.sound.leave hrow hlive rfl ⟨rfl, rfl⟩ (by simp [hqd]) (fun j hj => .inl hj)
      h.sound.resolved
  subst hm₁
  exact hcncl.runQueue

/-- A queued uploader is taken out of the queue, or was taken out before. -/
lemma cancel_of_queued (hst : m.hasState i .queued) :
    Accounts env claimed k d (m.cancel env i) := by
  unfold cancel
  split
  · exact h
  · split
    · exact h.cancelQueued hst _
    · next u hu _ _ =>
      obtain ⟨u', hu', hqd⟩ := hst
      cases hu.symm.trans hu'
      rw [if_neg fun hrun => by simp [hqd] at hrun]
      exact h

lemma cancelMembers (members : List ℕ) :
    Accounts env claimed k d (m.cancelMembers env i members) := by
  induction members generalizing m with
  | nil => exact h
  | cons j rest ih =>
    refine ih ?_
    dsimp only
    split
    case isTrue hmemb => exact h.cancel_of_queued hmemb.2
    case isFalse => exact h

lemma cancelRemainingBatch : Accounts env claimed k d (m.cancelRemainingBatch env i) := by
  unfold Manager.cancelRemainingBatch
  split
  · exact h
  · split
    · exact h
    · next u hu _ batch hbat =>
      -- the batch is only marked, so that its entries remain
      have hcanc : Accounts env claimed k d { m with
          batches := Function.update m.batches u.batchId
            (some { batch with cancelRequested := true })
          cancellingBatch := true } := by
        refine ⟨h.sound, h.same.trans (Desk.same_update h.same.complete ?_ ?_)⟩
        · rw [Desk.openEntries_of_batch hbat]
          rfl
        · rintro _ ⟨⟩
          exact h.same.complete u.batchId batch hbat
      have hcncl := hcanc.cancelMembers (i := i) batch.members
      exact runQueue (hcncl.congr rfl rfl)

end

/-! ### The handlers -/

/-- The handlers of an uploader keep the accounts. -/
lemma handles {restart : Prop} {ask confirm : String → Prop} :
    Handles env i restart ask confirm (Accounts env claimed k d) (Accounts env claimed k d) where
  toTransmits := transmits
  ask := by
    intro m rev staged _ h
    unfold resolveDestinationConflict
    split
    · exact h.congr (books_modify_of_same fun _ => rfl) rfl
    · exact h
  confirm _ h := h.congr (books_modify_of_same fun _ => rfl) rfl
  forget h := h.congr (books_modify_of_same fun _ => rfl) rfl
  restart {m} _ h := by
    have hbooks : (m.modify i fun u =>
        { u with
          uploadId := env.randomUUID m.drawn
          uploadOffset := 0
          uploadRequestPhase := .fresh
          missingTargetRetryUsed := false }).books = m.books := books_modify_of_same fun _ => rfl
    have hrst : Accounts env claimed k d (m.restartSession env i) := h.congr hbooks rfl
    exact transmits.sendBodyWith hrst _ fun h => h.finish
  relax h := h
  finish h := h.finish
  resolve := resolveUnknown
  pause := pauseForAuthentication
  cancelRemaining := cancelRemainingBatch

section

variable (h : Accounts env claimed k d m)

include h

lemma cancel : Accounts env claimed k d (m.cancel env i) := by
  by_cases hqd : m.hasState i .queued
  · exact h.cancel_of_queued hqd
  · unfold Manager.cancel
    split
    · exact h
    · next u hu =>
      have hst : u.state ≠ .queued := fun hst => hqd ⟨u, hu, hst⟩
      rw [if_neg hst]
      dsimp only
      split
      · have hhdls : Handles env i True (fun _ => True) (fun _ => True)
          (Accounts env claimed k d) (Accounts env claimed k d) := handles
        exact hhdls.abort h _
      · exact h

/-! ### Recovering -/

section

variable (hu : m.uploaders i = some u) (hend : u.state.isLive = false)
  (hname : u.name ∉ m.knownTargets) (hroom : m.hasPendingCapacity 1)

include hu hend hname hroom

/-- An upload that has ended is enqueued again, with its name known before. -/
lemma enqueue
    (hbooks : m'.books = { m.books with knownTargets := insert u.name m.books.knownTargets })
    (hdesk : m'.desk = m.desk) (recovery : UploadRecoveryAction) :
    Accounts env claimed k d (m'.enqueue env i recovery) := by
  have hrow := rows_of_uploader hu
  have hrow' : m'.books.rows i = some u.row := by rw [hbooks]; exact hrow
  obtain ⟨hpend, hrun⟩ := h.sound.accounted i u.row hrow
  have hpend' : u.row.pendingAccounted = false := hpend.trans hend
  have hnot : u.row.state ≠ .running := by
    intro hst
    have hlive : u.row.state.isLive = false := hend
    simp [hst, UploadLifecycleState.isLive] at hlive
  obtain ⟨m₁, heq, hdesk₁, hbooks₁⟩ := enqueue_eq_runQueue hrow' recovery
  rw [heq]
  refine runQueue ⟨?_, (hdesk₁.trans hdesk) ▸ h.same⟩
  rw [hbooks₁, hbooks]
  simp only [hpend', Bool.false_eq_true, if_false]
  exact h.sound.rejoin (t := { u.row with state := .queued, pendingAccounted := true }) hrow
    hend hname hroom rfl rfl ⟨rfl, hrun.trans (decide_eq_false hnot)⟩ (by simp) rfl

/-- The uploader of an unknown outcome has kept its slot. -/
lemma recheckUnknown (hunr : i ∈ m.unresolvedUnknown)
    (hbooks : m'.books = { m.books with knownTargets := insert u.name m.books.knownTargets })
    (hdesk : m'.desk = m.desk) : Accounts env claimed k d (m'.recheckUnknown i) := by
  have hrow := rows_of_uploader hu
  have hrow' : m'.books.rows i = some u.row := by rw [hbooks]; exact hrow
  have hpend : u.row.pendingAccounted = false :=
    (h.sound.accounted i u.row hrow).1.trans hend
  obtain ⟨hdesk₁, hbooks₁⟩ := books_accountPending (m := m'.removeTerminalRow i) hrow'
  unfold Manager.recheckUnknown
  generalize (m'.removeTerminalRow i).accountPending i = m₁ at hdesk₁ hbooks₁ ⊢
  have hrow₁ : m₁.books.rows i = some { u.row with pendingAccounted := true } := by
    rw [hbooks₁]
    exact Books.rows_set_self
  have hrun : (m₁.modify i fun u => { u with state := .running, runningAccounted := true }).books =
      m₁.books.set i ⟨u.row.name, .running, true, true⟩ := by
    rw [books_modify (g := fun row => { row with state := .running, runningAccounted := true })
      fun _ => rfl, Books.modify_of_row hrow₁]
  refine transmits.queryCheckpoint ⟨?_, (hdesk₁.trans hdesk) ▸ h.same⟩ _ _
  have hsound := h.sound.rejoin (t := ⟨u.row.name, .running, true, true⟩) hrow hend hname hroom
    rfl rfl ⟨rfl, rfl⟩ (fun _ => hunr) rfl
  have hall : ({ m₁.modify i fun u => { u with state := .running, runningAccounted := true } with
      running := m₁.running + 1 } : Manager).books =
      { m₁.books.set i ⟨u.row.name, .running, true, true⟩ with
        running := m₁.books.running + 1 } :=
    congrArg (fun b : Books => { b with running := m₁.books.running + 1 }) hrun
  rw [hall, hbooks₁, books_removeTerminalRow, hbooks]
  simp only [Books.set, update_idem, hpend, Bool.false_eq_true, if_false]
  exact hsound

end

lemma recover {now : ℕ} {recovery : UploadRecoveryAction} :
    Accounts env claimed k d (m.recover env now i recovery) := by
  unfold Manager.recover
  split
  · exact h
  · next u hu =>
    dsimp only
    split_ifs with hact hque hroom hname hfail hunr
    all_goals first | exact h | skip
    all_goals
      have hend : u.state.isLive = false := by
        by_contra hlive
        exact hname (h.sound.known i u.row (rows_of_uploader hu) (Bool.not_eq_false _ ▸ hlive))
      have hcap : m.hasPendingCapacity 1 := by
        by_contra hfull
        exact hroom ⟨(h.sound.accounted i u.row (rows_of_uploader hu)).1.trans hend, hfull⟩
    · refine h.recheckUnknown hu hend hname hcap (of_decide_eq_true hunr) ?_ ?_
      · exact books_clearRecovery
      · rfl
    · refine h.enqueue hu hend hname hcap ?_ ?_ recovery
      · exact books_clearRecovery
      · rfl

end

end Accounts

end DufsRam.Client
