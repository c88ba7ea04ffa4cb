import Mathlib.Data.List.Perm.Subperm
import DufsRam.Client.Accounting

/-!
# The selections keep the accounts

A selection reserves its rows when it is made and has its turn when those before it are done. During
its turn the reservation becomes the rows of its uploads, entry by entry; whatever is left when the
turn ends is released. `Turn` is what holds in between.
-/

namespace DufsRam.Client

open Manager List QueuedUploadEntry Desk.Complete

namespace SelectionJob

variable (job : SelectionJob)

/-- The rows that the selection reserves. -/
def reserved : ℕ := if job.reservation.active then job.reservation.count else 0

/-- The entries of its batch that the selection has left. -/
def left : List QueuedUploadEntry :=
  match job.stage with
  | .enqueuing _ entries => entries
  | .waiting | .preflight _ | .choice _ _ _ => []

/-- The batch that the selection fills. -/
def batchId : ℕ :=
  match job.stage with
  | .enqueuing batchId _ => batchId
  | .waiting | .preflight _ | .choice _ _ _ => 0

/-- The accepted entries have names of their own, and rows are reserved for them. -/
structure Covers (accepted : List UploadSelectionEntry) : Prop where
  active : job.reservation.active = true
  nodup : (accepted.map UploadSelectionEntry.name).Nodup
  length_le : accepted.length ≤ job.reservation.count

/-- A selection that waits for its turn. -/
structure Waits : Prop where
  stage : job.stage = .waiting
  reservation : job.reservation = ⟨job.entries.length, true⟩

/-- The selection has reserved what it may need. -/
def Fits : Prop :=
  match job.stage with
  | .waiting => job.Waits
  | .preflight accepted => job.Covers accepted
  | .choice accepted uploadEntries conflicts =>
    job.Covers accepted ∧
      (uploadEntries.map name ++ conflicts.map fun conflict => conflict.entry.name).Subperm
        (accepted.map UploadSelectionEntry.name)
  | .enqueuing _ entries =>
    job.reservation.active = false ∧ (entries.map name).Nodup

variable {job}

lemma Waits.fits (h : job.Waits) : job.Fits := by
  unfold Fits
  rw [h.stage]
  exact h

lemma reserved_of_active (h : job.reservation.active = true) :
    job.reserved = job.reservation.count :=
  if_pos h

lemma reserved_of_inactive (h : job.reservation.active = false) : job.reserved = 0 := by
  simp [reserved, h]

end SelectionJob

/-- The rows that the selections reserve. -/
def reservedRows (jobs : List SelectionJob) : ℕ := (jobs.map SelectionJob.reserved).sum

/-- The first selection has its turn: it has these entries of its batch left and reserves so many
rows besides those of the selections that wait. -/
structure Turn (env : UploadEnvironment) (left : List QueuedUploadEntry) (batchId reserved : ℕ)
    (rest : List SelectionJob) (m : Manager) : Prop where
  sound : m.books.Sound env (left.map QueuedUploadEntry.name) left.length
  complete : m.desk.Complete
  transferFailed : m.desk.transferFailed = false
  reserved : m.desk.preflightReservedRows = reserved + reservedRows rest
  waiting : ∀ job ∈ rest, job.Waits
  openEntries : ∀ b, m.desk.openEntries b = if b = batchId then left.length else 0
  opened : left ≠ [] → batchId < m.desk.nextBatchId

/-- The state of the first selection, if there is one. -/
inductive Headed : List SelectionJob → List QueuedUploadEntry → ℕ → ℕ → List SelectionJob → Prop
  | nil : Headed [] [] 0 0 []
  | cons {job rest} (h : SelectionJob.Fits job) :
    Headed (job :: rest) job.left job.batchId job.reserved rest

/-- The accounts between two events. -/
def Balanced (env : UploadEnvironment) (m : Manager) : Prop :=
  ∃ left batchId reserved rest,
    Headed m.jobs left batchId reserved rest ∧ Turn env left batchId reserved rest m

variable {env : UploadEnvironment} {m m' : Manager} {left uploadEntries : List QueuedUploadEntry}
  {batchId reserved : ℕ} {job : SelectionJob} {rest : List SelectionJob}
  {payload : List PreflightValue} {entry : QueuedUploadEntry} {event : ManagerEvent}

namespace Turn

lemma accounts (h : Turn env left batchId reserved rest m) :
    Accounts env (left.map name) left.length m.desk m :=
  ⟨h.sound, rfl, rfl, rfl, rfl, fun _ => rfl, h.complete⟩

/-- What the uploaders do leaves the turn as it is. -/
lemma of_accounts (h : Turn env left batchId reserved rest m)
    (h' : Accounts env (left.map name) left.length m.desk m') :
    Turn env left batchId reserved rest m' where
  sound := h'.sound
  complete := h'.same.complete
  transferFailed := h'.same.transferFailed.trans h.transferFailed
  reserved := h'.same.preflightReservedRows.trans h.reserved
  waiting := h.waiting
  openEntries b := (h'.same.openEntries b).trans (h.openEntries b)
  opened hleft := (h.opened hleft).trans_eq h'.same.nextBatchId.symm

/-- Without entries it does not matter which batch they belong to. -/
lemma of_nil (h : Turn env [] batchId reserved rest m) (batchId' : ℕ) :
    Turn env [] batchId' reserved rest m :=
  { h with
    openEntries := by simpa using h.openEntries
    opened := fun hleft => absurd rfl hleft }

/-- The selections are put together anew. -/
lemma of_jobs (h : Turn env left batchId reserved rest m) (jobs : List SelectionJob) :
    Turn env left batchId reserved rest { m with jobs } :=
  ⟨h.sound, h.complete, h.transferFailed, h.reserved, h.waiting, h.openEntries, h.opened⟩

/-- Another selection reserves its rows. -/
lemma append {entries : List UploadSelectionEntry} (h : Turn env left batchId reserved rest m)
    (hroom : m.hasPendingCapacity entries.length) (jobs : List SelectionJob) :
    Turn env left batchId reserved (rest ++ [⟨entries, ⟨entries.length, true⟩, .waiting⟩])
      { m with
        preflightReservedRows := m.preflightReservedRows + entries.length
        jobs } := by
  have hrsv : m.preflightReservedRows = reserved + reservedRows rest := h.reserved
  refine ⟨?_, h.complete, h.transferFailed, ?_, ?_, h.openEntries, h.opened⟩
  · refine h.sound.of_same_rows rfl rfl rfl rfl (Finset.Subset.refl _) h.sound.resolved
      h.sound.known h.sound.toNamed.claimed rfl ?_
    change m.pendingRows + (m.preflightReservedRows + entries.length) ≤ _
    unfold hasPendingCapacity at hroom
    omega
  · change m.preflightReservedRows + (entries.length : ℤ) = _
    simp [reservedRows, SelectionJob.reserved, hrsv, add_assoc]
  · intro job hjob
    rcases mem_append.1 hjob with hjob | hjob
    · exact h.waiting job hjob
    · rw [mem_singleton.1 hjob]
      exact ⟨rfl, rfl⟩

/-! ### The ends of a turn -/

/-- The next selection waits for its turn. -/
lemma balanced (h : Turn env [] batchId 0 rest m) (hjobs : m.jobs = rest) : Balanced env m := by
  cases rest with
  | nil =>
    refine ⟨[], 0, 0, [], ?_, h.of_nil 0⟩
    rw [hjobs]
    exact .nil
  | cons job rest =>
    have hwaits := h.waiting job mem_cons_self
    have hleft : job.left = [] := by simp [SelectionJob.left, hwaits.stage]
    refine ⟨job.left, job.batchId, job.reserved, rest, ?_, ?_⟩
    · rw [hjobs]
      exact .cons hwaits.fits
    · rw [hleft]
      refine { h.of_nil job.batchId with reserved := ?_, waiting := ?_ }
      · rw [h.reserved]
        simp only [reservedRows, map_cons, sum_cons]
        omega
      · exact fun other hoth => h.waiting other (mem_cons_of_mem _ hoth)

lemma releasePreflightRows (h : Turn env [] batchId job.reserved rest m) :
    Turn env [] batchId 0 rest (m.releasePreflightRows job.reservation) := by
  have hrsv : m.preflightReservedRows = job.reserved + reservedRows rest := h.reserved
  unfold Manager.releasePreflightRows
  split
  case isTrue hactv =>
    rw [SelectionJob.reserved_of_active hactv.1] at hrsv
    refine ⟨?_, h.complete, h.transferFailed, ?_, h.waiting, h.openEntries, h.opened⟩
    · refine h.sound.of_same_rows rfl rfl rfl rfl (Finset.Subset.refl _) h.sound.resolved
        h.sound.known h.sound.toNamed.claimed rfl ?_
      have hcap := h.sound.capacity
      change m.pendingRows + (m.preflightReservedRows - job.reservation.count) ≤ _
      change m.pendingRows + m.preflightReservedRows ≤ _ at hcap
      omega
    · change m.preflightReservedRows - job.reservation.count = _
      omega
  case isFalse hinac =>
    have hrsv₀ : job.reserved = 0 := by
      unfold SelectionJob.reserved at hrsv ⊢
      split
      case isTrue hactv =>
        rw [if_pos hactv] at hrsv
        exact absurd ⟨hactv, by omega⟩ hinac
      case isFalse => rfl
    rwa [hrsv₀] at h

lemma endJob (h : Turn env [] batchId job.reserved rest m) : Balanced env (m.endJob job rest) := by
  refine (h.of_jobs rest).releasePreflightRows.balanced ?_
  unfold Manager.releasePreflightRows
  split <;> rfl

lemma awaitStage {stage : SelectionStage} (h : Turn env left batchId job.reserved rest m)
    (hfits : ({ job with stage } : SelectionJob).Fits)
    (hleft : ({ job with stage } : SelectionJob).left = left)
    (hbat : ({ job with stage } : SelectionJob).batchId = batchId) :
    Balanced env (m.awaitStage job rest stage) := by
  refine ⟨_, _, _, rest, .cons hfits, ?_⟩
  rw [hleft, hbat]
  exact h.of_jobs _

/-! ### The loop of a turn -/

/-- The names of the entries that are left are released, and so are their rows. -/
lemma closeBatch (h : Turn env left batchId reserved rest m) :
    Turn env [] batchId reserved rest (m.closeBatch batchId left) := by
  have hrem : ((m.batches batchId).map Batch.remainingEntries).getD 0 = left.length :=
    (h.openEntries batchId).trans (if_pos rfl)
  have hpend : m.books.pendingRows = _ := h.sound.pending
  unfold Manager.closeBatch
  rw [hrem]
  refine ⟨?_, ?_, h.transferFailed, h.reserved, h.waiting, ?_, fun hleft => absurd rfl hleft⟩
  · refine h.sound.of_same_rows rfl rfl rfl rfl (Finset.Subset.refl _) h.sound.resolved ?_ nofun
      ?_ ?_
    · intro i row hrow hlive
      refine Finset.mem_sdiff.2 ⟨h.sound.known i row hrow hlive, fun hname => ?_⟩
      exact (h.sound.toNamed.claimed _ (mem_toFinset.1 hname)).2 i row hrow hlive rfl
    · change max 0 (m.books.pendingRows - left.length) + left.length = m.books.pendingRows + 0
      omega
    · have hcap := h.sound.capacity
      change max 0 (m.books.pendingRows - left.length) + m.books.preflightReservedRows ≤ _
      omega
  · refine update h.complete fun batch' hbat' _ => ?_
    obtain ⟨batch, -, hcls⟩ := Option.bind_eq_some_iff.1 hbat'
    split at hcls <;> cases hcls
    rfl
  · intro b
    refine (Desk.openEntries_update m.desk batchId _ b).trans ?_
    split
    case isTrue =>
      cases m.batches batchId with
      | none => rfl
      | some batch =>
        dsimp only [Option.bind_some]
        split <;> rfl
    case isFalse hb => exact (h.openEntries b).trans (if_neg hb)

lemma books_createUploader :
    (m.createUploader env batchId entry).books =
      { m.books.set m.nextIndex ⟨entry.name, .new, true, false⟩ with
        nextIndex := m.nextIndex + 1 } := by
  have hrows : (m.createUploader env batchId entry).books.rows =
      Function.update m.books.rows m.nextIndex (some ⟨entry.name, .new, true, false⟩) := by
    funext j
    by_cases hj : j = m.nextIndex
    · subst hj
      simp [createUploader, books, Uploader.row]
    · simp [createUploader, books, hj]
  exact congrArg (fun rows => ({ m.books with rows, nextIndex := m.nextIndex + 1 } : Books)) hrows

/-- An entry gets its uploader, and is one of the remaining no longer. -/
lemma materialize (h : Turn env (entry :: left) batchId reserved rest m)
    (hnd : ((entry :: left).map name).Nodup) :
    Turn env left batchId reserved rest (m.materialize env batchId entry) := by
  have hcre : Accounts env (left.map name) left.length m.desk
      ((m.createUploader env batchId entry).enqueue env m.nextIndex .none) := by
    have hrow : (m.createUploader env batchId entry).books.rows m.nextIndex =
        some ⟨entry.name, .new, true, false⟩ := by
      rw [books_createUploader]
      exact Books.rows_set_self
    obtain ⟨m₁, heq, hdesk, hbooks⟩ := enqueue_eq_runQueue hrow .none
    rw [heq]
    refine Accounts.runQueue ⟨?_, ?_⟩
    · rw [hbooks, books_createUploader]
      simp only [Books.set, Function.update_idem, if_true, add_zero]
      exact h.sound.create (nodup_cons.1 hnd).1
    · rw [hdesk]
      refine Desk.same_update h.complete ?_ ?_
      · rw [Option.map_map]
        rfl
      · intro batch' hbat'
        obtain ⟨batch, hbat, rfl⟩ := Option.map_eq_some_iff.1 hbat'
        exact h.complete batchId batch hbat
  unfold Manager.materialize
  dsimp only
  generalize (m.createUploader env batchId entry).enqueue env m.nextIndex .none = m' at hcre
  have hopen : ∀ b, m'.desk.openEntries b = if b = batchId then left.length + 1 else 0 :=
    fun b => (hcre.same.openEntries b).trans (h.openEntries b)
  refine ⟨hcre.sound, ?_, hcre.same.transferFailed.trans h.transferFailed,
    hcre.same.preflightReservedRows.trans h.reserved, h.waiting, ?_, ?_⟩
  · refine update hcre.same.complete fun batch' hbat' hcpl => ?_
    obtain ⟨batch, hbat, rfl⟩ := Option.map_eq_some_iff.1 hbat'
    rw [hcre.same.complete batchId batch hbat hcpl]
  · intro b
    refine (Desk.openEntries_update m'.desk batchId _ b).trans ?_
    split
    case isTrue =>
      have hbat := (hopen batchId).trans (if_pos rfl)
      change ((m'.batches batchId).map _).getD 0 = _ at hbat
      cases hfnd : m'.batches batchId with
      | none => simp [hfnd] at hbat
      | some batch =>
        rw [hfnd] at hbat
        change batch.remainingEntries - 1 = left.length
        change batch.remainingEntries = left.length + 1 at hbat
        omega
    case isFalse hb => exact (hopen b).trans (if_neg hb)
  · exact fun _ => (h.opened (cons_ne_nil _ _)).trans_eq hcre.same.nextBatchId.symm

/-- The loop ends the turn or yields in the middle of it. -/
lemma enqueueLoop (h : Turn env left batchId 0 rest m) (hinac : job.reservation.active = false)
    (hnd : (left.map name).Nodup) (chunk : ℕ) :
    Balanced env (enqueueLoop env job rest batchId chunk left m) := by
  have hrsv : job.reserved = 0 := SelectionJob.reserved_of_inactive hinac
  have hend : ∀ {left m}, Turn env left batchId 0 rest m →
      Balanced env ((m.closeBatch batchId left).endJob job rest) := by
    intro left m h
    have hcls := h.closeBatch
    rw [← hrsv] at hcls
    exact hcls.endJob
  induction left generalizing m chunk with
  | nil =>
    unfold enqueueLoop
    exact hend h
  | cons entry left ih =>
    unfold enqueueLoop
    split
    case isTrue => exact hend h
    case isFalse =>
      have hnext := h.materialize hnd
      have hnd' : (left.map name).Nodup := (nodup_cons.1 hnd).2
      have hyield : Balanced env
          ((m.materialize env batchId entry).awaitStage job rest (.enqueuing batchId left)) := by
        rw [← hrsv] at hnext
        exact hnext.awaitStage ⟨hinac, hnd'⟩ rfl rfl
      split
      · exact hyield
      · exact hyield
      · exact ih hnext hnd' _

/-! ### The beginning of a turn -/

/-- A reservation becomes the rows of a batch. -/
lemma openBatch {count : ℕ} {entries : List QueuedUploadEntry} {m' : Manager}
    (h : Turn env [] batchId count rest m) (hfree : ∀ entry ∈ entries, entry.name ∉ m.knownTargets)
    (hle : entries.length ≤ count) (hm' : m' = { m with
      preflightReservedRows := m.preflightReservedRows - count
      pendingRows := m.pendingRows + entries.length }) :
    Turn env entries m.nextBatchId 0 rest (m'.openBatch entries) := by
  subst hm'
  have hrsv : m.preflightReservedRows = count + reservedRows rest := h.reserved
  refine ⟨?_, ?_, h.transferFailed, ?_, h.waiting, ?_, fun _ => Nat.lt_succ_self _⟩
  · refine h.sound.of_same_rows rfl rfl rfl rfl (Finset.Subset.refl _) h.sound.resolved ?_ ?_ ?_ ?_
    · exact fun i row hrow hlive => Finset.mem_union_left _ (h.sound.known i row hrow hlive)
    · intro name hname
      refine ⟨Finset.mem_union_right _ (mem_toFinset.2 hname), ?_⟩
      rintro i row hrow hlive rfl
      obtain ⟨entry, hent, heq⟩ := mem_map.1 hname
      exact hfree entry hent (heq ▸ h.sound.known i row hrow hlive)
    · exact Int.add_zero _
    · have hcap : m.pendingRows + m.preflightReservedRows ≤ _ := h.sound.capacity
      change m.pendingRows + entries.length + (m.preflightReservedRows - count) ≤ _
      omega
  · refine update h.complete ?_
    rintro _ ⟨⟩ ⟨⟩
  · change m.preflightReservedRows - count = _
    omega
  · intro b
    refine (Desk.openEntries_update m.desk m.nextBatchId _ b).trans ?_
    split
    · rfl
    · exact (h.openEntries b).trans (by simp)

lemma admissible_subperm (m : Manager) (accepted : List UploadSelectionEntry)
    (uploadEntries : List QueuedUploadEntry) :
    ((m.admissible accepted uploadEntries).map name).Subperm (uploadEntries.map name) := by
  have hperm := perm_insertionSort
    (fun a b => selectionOrder accepted a ≤ selectionOrder accepted b) uploadEntries
  exact (filter_sublist.map _).subperm.trans (hperm.map _).subperm

variable {accepted : List UploadSelectionEntry}

/-- What is to be uploaded is covered by the reservation, so that its transfer does not fail. -/
lemma admitEntries (h : Turn env [] batchId job.reserved rest m) (hcov : job.Covers accepted)
    (hsp : (uploadEntries.map name).Subperm (accepted.map UploadSelectionEntry.name)) :
    Balanced env (m.admitEntries env job rest accepted uploadEntries) := by
  have hadm := (admissible_subperm m accepted uploadEntries).trans hsp
  have hfree : ∀ entry ∈ m.admissible accepted uploadEntries, entry.name ∉ m.knownTargets :=
    fun entry hent => of_decide_eq_true (mem_filter.1 hent).2
  unfold Manager.admitEntries
  dsimp only
  generalize m.admissible accepted uploadEntries = entries at hadm hfree ⊢
  split
  case isTrue => exact h.endJob
  case isFalse hne =>
    have hpos : 1 ≤ entries.length := length_pos_of_ne_nil hne
    have hle : entries.length ≤ job.reservation.count := by
      have hlen := hadm.length_le
      rw [length_map, length_map] at hlen
      exact hlen.trans hcov.length_le
    rw [SelectionJob.reserved_of_active hcov.active] at h
    have hrsv : m.preflightReservedRows = job.reservation.count + reservedRows rest :=
      h.reserved
    have hcap : m.pendingRows + m.preflightReservedRows ≤ uploadPendingRowLimit :=
      h.sound.capacity
    have htransfer : m.transferPreflightRows job.reservation entries.length = .done { m with
        preflightReservedRows := m.preflightReservedRows - job.reservation.count
        pendingRows := m.pendingRows + entries.length } := by
      unfold transferPreflightRows
      rw [if_neg, if_neg]
      · omega
      · simp only [hcov.active, Bool.true_eq_false, false_or]
        omega
    rw [htransfer]
    obtain ⟨names, hperm, hsublist⟩ := hadm
    exact (h.openBatch hfree hle rfl).enqueueLoop rfl
      (hperm.nodup_iff.1 (hcov.nodup.sublist hsublist)) _

/-- The accepted entries have names of their own. -/
lemma acceptEntries_spec (known : Finset String) (accepted entries : List UploadSelectionEntry)
    (hnd : (accepted.map UploadSelectionEntry.name).Nodup) :
    ((acceptEntries known accepted entries).map UploadSelectionEntry.name).Nodup ∧
      (acceptEntries known accepted entries).length ≤ accepted.length + entries.length := by
  induction entries generalizing accepted with
  | nil => exact ⟨hnd, Nat.le_refl _⟩
  | cons entry rest ih =>
    unfold acceptEntries
    split
    case isTrue =>
      obtain ⟨hnd', hlen⟩ := ih accepted hnd
      exact ⟨hnd', hlen.trans (by simp)⟩
    case isFalse hnew =>
      have hnd' : ((accepted ++ [entry]).map UploadSelectionEntry.name).Nodup := by
        rw [map_append, map_singleton]
        exact hnd.append (nodup_singleton _) (disjoint_singleton.2 fun hmem => hnew (.inr hmem))
      obtain ⟨hnd'', hlen⟩ := ih _ hnd'
      refine ⟨hnd'', hlen.trans ?_⟩
      simp only [length_append, length_cons, length_nil]
      omega

/-- An entry of the preflight is free, in conflict or blocked. -/
lemma classified_subperm (targets : List (UploadSelectionEntry × PreflightValue)) :
    ((targets.filterMap freeEntry).map name ++
      (targets.filterMap conflictEntry).map fun conflict => conflict.entry.name).Subperm
      (targets.map (UploadSelectionEntry.name ∘ Prod.fst)) := by
  induction targets with
  | nil => exact List.Subperm.refl _
  | cons target rest ih =>
    obtain ⟨entry, path, found, revision, replaceable⟩ := target
    -- the name of the entry goes to the front of what the rest is divided into
    have hcons := (subperm_cons entry.name).2 ih
    cases found <;> cases replaceable
    · exact ih.trans (sublist_cons_self _ _).subperm
    · exact hcons
    · exact ih.trans (sublist_cons_self _ _).subperm
    · exact perm_middle.subperm.trans hcons

lemma parseUploadPreflight_length {targets : List PreflightValue} {paths : List String}
    (h : parseUploadPreflight payload paths = some targets) : targets.length = paths.length := by
  unfold parseUploadPreflight at h
  split at h <;> cases h
  next hval =>
  rw [← hval.1, length_map]

lemma beginSelection (h : Turn env [] batchId job.reserved rest m) (hwaits : job.Waits) :
    Balanced env (m.beginSelection env job rest) := by
  obtain ⟨hnd, hlen⟩ := acceptEntries_spec m.knownTargets [] job.entries nodup_nil
  unfold Manager.beginSelection
  split
  case isTrue => exact h.endJob
  case isFalse =>
    dsimp only
    split
    case isTrue => exact h.endJob
    case isFalse =>
      have hcov : job.Covers (acceptEntries m.knownTargets [] job.entries) :=
        ⟨by rw [hwaits.reservation], hnd, by
          rw [hwaits.reservation]
          simpa using hlen⟩
      exact (h.of_nil 0).awaitStage ⟨hcov.active, hcov.nodup, hcov.length_le⟩ rfl rfl

lemma preflightReply (h : Turn env [] batchId job.reserved rest m) (hcov : job.Covers accepted) :
    Balanced env (m.preflightReply env job rest accepted payload) := by
  unfold Manager.preflightReply
  split
  · exact h.endJob
  · next targets htgts =>
    split
    case isTrue => exact h.endJob
    case isFalse =>
      have hsp := classified_subperm (accepted.zip targets)
      have hnms : (accepted.zip targets).map (UploadSelectionEntry.name ∘ Prod.fst) =
          accepted.map UploadSelectionEntry.name := by
        have hlen : accepted.length ≤ targets.length := by
          rw [parseUploadPreflight_length htgts, length_map]
        rw [← map_map, map_fst_zip hlen]
      rw [hnms] at hsp
      dsimp only
      split
      case isTrue =>
        exact h.admitEntries hcov ((sublist_append_left _ _).subperm.trans hsp)
      case isFalse =>
        refine (h.of_nil 0).awaitStage ⟨?_, hsp⟩ rfl rfl
        exact ⟨hcov.active, hcov.nodup, hcov.length_le⟩

lemma pauseForAuthentication (h : Turn env left batchId reserved rest m) :
    Turn env left batchId reserved rest m.pauseForAuthentication :=
  h.of_accounts h.accounts.pauseForAuthentication

lemma preflightFailed (h : Turn env [] batchId job.reserved rest m) (auth : Bool) :
    Balanced env (m.preflightFailed job rest auth) := by
  unfold Manager.preflightFailed
  split
  · exact h.pauseForAuthentication.endJob
  · exact h.endJob

lemma chooseBatch {conflicts : List UploadConflict}
    (h : Turn env [] batchId job.reserved rest m) (hcov : job.Covers accepted)
    (hsp : (uploadEntries.map name ++ conflicts.map fun conflict => conflict.entry.name).Subperm
      (accepted.map UploadSelectionEntry.name))
    (choice : DialogChoice) :
    Balanced env (m.chooseBatch env job rest accepted uploadEntries conflicts choice) := by
  unfold Manager.chooseBatch
  split
  · exact h.endJob
  · split
    · refine h.admitEntries hcov ?_
      rw [map_append, map_map]
      exact hsp
    · exact h.admitEntries hcov ((sublist_append_left _ _).subperm.trans hsp)

end Turn

/-! ### Steps -/

namespace Balanced

lemma init : Balanced env createUploadManager := by
  refine ⟨[], 0, 0, [], .nil, ?_, nofun, rfl, rfl, nofun, ?_, fun hleft => absurd rfl hleft⟩
  · refine ⟨⟨nofun, nofun, nofun, nofun, nofun⟩, rfl, ?_, fun _ => rfl, nofun, rfl, ?_⟩
    · exact Nat.zero_le _
    · decide
  · intro b
    simp [Desk.openEntries, desk, createUploadManager]

/-- What the uploaders do keeps the balance. -/
lemma of_accounts (h : Balanced env m)
    (hkeep : ∀ claimed k, Accounts env claimed k m.desk m → Accounts env claimed k m.desk m') :
    Balanced env m' := by
  obtain ⟨left, batchId, reserved, rest, hheaded, hturn⟩ := h
  have hacc := hkeep _ _ hturn.accounts
  have hjobs : m'.jobs = m.jobs := hacc.same.jobs
  exact ⟨left, batchId, reserved, rest, hjobs ▸ hheaded, hturn.of_accounts hacc⟩

/-- A selection is made while there is room for its rows. -/
lemma addFiles (h : Balanced env m) (entries : List UploadSelectionEntry) :
    Balanced env (m.addFiles entries) := by
  unfold Manager.addFiles
  split
  case isTrue => exact h
  case isFalse hroom =>
    obtain ⟨left, batchId, reserved, rest, hheaded, hturn⟩ := h
    have hcap : m.hasPendingCapacity entries.length :=
      not_not.1 fun hfull => hroom (.inr hfull)
    have hadded := hturn.append hcap (m.jobs ++ [⟨entries, ⟨entries.length, true⟩, .waiting⟩])
    generalize hjobs : m.jobs = jobs at hheaded hadded ⊢
    cases hheaded with
    | nil => exact hadded.balanced rfl
    | cons hfits => exact ⟨_, _, _, _, .cons hfits, hadded⟩

lemma selectionStep (h : Balanced env m) (hjobs : m.jobs = job :: rest)
    (hstep : m.selectionStep env job rest job.stage event = some m') : Balanced env m' := by
  obtain ⟨left, batchId, reserved, others, hheaded, hturn⟩ := h
  rw [hjobs] at hheaded
  cases hheaded with
  | cons hfits =>
    obtain ⟨entries, reservation, stage⟩ := job
    unfold selectionStep at hstep
    dsimp only at hstep
    split at hstep <;> cases hstep
    · exact hturn.beginSelection hfits
    · exact hturn.preflightReply hfits
    · exact hturn.preflightFailed _
    · exact hturn.chooseBatch hfits.1 hfits.2 _
    · rw [SelectionJob.reserved_of_inactive hfits.1] at hturn
      exact hturn.enqueueLoop hfits.1 hfits.2 _

/-- The handlers of an uploader keep the accounts, and the selections have their turns. -/
theorem step (h : Balanced env m) {now : ℕ}
    (hstep : m.step env now event = some m') : Balanced env m' := by
  unfold Manager.step at hstep
  split at hstep
  · cases hstep
    exact h.addFiles _
  · next i =>
    cases hstep
    have hhdls : ∀ claimed k, Handles env i True (fun _ => True) (fun _ => True)
      (Accounts env claimed k m.desk) (Accounts env claimed k m.desk) := fun _ _ => Accounts.handles
    exact h.of_accounts fun claimed k hacc => (hhdls claimed k).beginCommitWait hacc
  · cases hstep
    refine h.of_accounts fun _ _ hacc => hacc.modify ?_
    constructor <;> simp
  · split at hstep <;> cases hstep
    exact h.of_accounts fun _ _ hacc => hacc.recover
  · cases hstep
    exact h.of_accounts fun _ _ hacc => hacc.cancel
  · split at hstep
    · obtain ⟨u, hu, hstep⟩ := Option.bind_eq_some_iff.1 hstep
      exact h.of_accounts fun _ _ hacc => Accounts.handles.uploaderStep hacc hu hstep
    · split at hstep
      · cases hstep
      · next hjobs => exact h.selectionStep hjobs hstep

end Balanced

end DufsRam.Client
