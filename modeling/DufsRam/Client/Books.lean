import Mathlib.Data.Finset.Card
import Mathlib.Data.Finset.Range
import DufsRam.Client.Steps

/-!
# The accounts of the upload manager

`Books` is what the accounts are about: for every uploader its name, its state and how it is
accounted for, and the counters and sets of the manager. Most of what an uploader does leaves the
books as they are. `Books.Sound` says that the counters count what they should, that no more slots
are taken than there are and that no two uploads that are under way have the same target.
-/

namespace DufsRam.Client

open Finset UploadLifecycleState

/-- What the accounts say of an uploader. -/
structure Row where
  name : String
  state : UploadLifecycleState
  pendingAccounted : Bool
  runningAccounted : Bool
  deriving DecidableEq

def Uploader.row (u : Uploader) : Row := ⟨u.name, u.state, u.pendingAccounted, u.runningAccounted⟩

/-- The upload is under way: it is queued or running. -/
def UploadLifecycleState.isLive : UploadLifecycleState → Bool
  | .queued | .running => true
  | .new | .completed | .failed | .unknown | .cancelled => false

structure Books where
  rows : ℕ → Option Row
  nextIndex : ℕ
  unresolvedUnknown : Finset ℕ
  knownTargets : Finset String
  running : ℤ
  pendingRows : ℤ
  preflightReservedRows : ℤ
  queueState : QueueState
  starts : List (Finset ℕ)

def Manager.books (m : Manager) : Books where
  rows i := (m.uploaders i).map Uploader.row
  nextIndex := m.nextIndex
  unresolvedUnknown := m.unresolvedUnknown
  knownTargets := m.knownTargets
  running := m.running
  pendingRows := m.pendingRows
  preflightReservedRows := m.preflightReservedRows
  queueState := m.queueState
  starts := m.starts

variable {b' : Books} {claimed' : List String} {j : ℕ} {r : ℤ}

namespace Books

/-- The uploaders whose row has the property. -/
def select (p : Row → Bool) (b : Books) : Finset ℕ :=
  (Finset.range b.nextIndex).filter fun i => (b.rows i).any p

def runningSet (b : Books) : Finset ℕ := b.select fun row => decide (row.state = .running)

def liveSet (b : Books) : Finset ℕ := b.select fun row => row.state.isLive

/-- The books with another row for an uploader. -/
def set (i : ℕ) (row : Row) (b : Books) : Books :=
  { b with rows := Function.update b.rows i (some row) }

/-- Every row is accounted for as its state asks, and the uploads under way have targets of their
own; so have the names that are claimed for uploads to come. -/
structure Named (claimed : List String) (b : Books) : Prop where
  bounded : ∀ i row, b.rows i = some row → i < b.nextIndex
  accounted : ∀ i row, b.rows i = some row → row.pendingAccounted = row.state.isLive ∧
    row.runningAccounted = decide (row.state = .running)
  known : ∀ i row, b.rows i = some row → row.state.isLive = true → row.name ∈ b.knownTargets
  unique : ∀ i j row row', b.rows i = some row → b.rows j = some row' → row.state.isLive = true →
    row'.state.isLive = true → row.name = row'.name → i = j
  claimed : ∀ name ∈ claimed, name ∈ b.knownTargets ∧
    ∀ i row, b.rows i = some row → row.state.isLive = true → row.name ≠ name

/-- The counters count what they should, and the uploads that run or have an unresolved outcome have
a slot each. -/
structure Counted (env : UploadEnvironment) (openEntries : ℕ) (b : Books) : Prop where
  running : b.running = b.runningSet.card
  slots : (b.runningSet ∪ b.unresolvedUnknown).card ≤ env.maxConcurrentUploads
  resolved : b.queueState = .running → b.unresolvedUnknown = ∅
  starts : ∀ unresolved ∈ b.starts, unresolved = ∅
  pending : b.pendingRows = b.liveSet.card + openEntries
  capacity : b.pendingRows + b.preflightReservedRows ≤ uploadPendingRowLimit

structure Sound (env : UploadEnvironment) (claimed : List String) (openEntries : ℕ) (b : Books) :
    Prop extends Named claimed b, Counted env openEntries b

variable {env : UploadEnvironment} {claimed : List String} {k i : ℕ} {b : Books} {row row' : Row}
  {p : Row → Bool}

lemma mem_select : i ∈ b.select p ↔ i < b.nextIndex ∧ (b.rows i).any p = true := by
  simp [select]

lemma mem_select_of_row (hi : i < b.nextIndex) (hrow : b.rows i = some row) :
    i ∈ b.select p ↔ p row = true := by
  simp [mem_select, hi, hrow]

lemma select_set (hi : i < b.nextIndex) : (b.set i row).select p =
    if p row then insert i (b.select p) else (b.select p).erase i := by
  ext j
  by_cases hj : j = i
  · subst hj
    split_ifs with h <;> simp [mem_select, set, hi, h]
  · split_ifs <;> simp [mem_select, set, hj]

/-- What another row changes in the number of the uploaders with a property. -/
lemma card_select_set (hi : i < b.nextIndex) (hrow : b.rows i = some row) (p : Row → Bool) :
    ((b.set i row').select p).card + (p row).toNat = (b.select p).card + (p row').toNat := by
  have hmem : i ∈ b.select p ↔ p row = true := mem_select_of_row hi hrow
  rw [select_set hi]
  cases hnew : p row' with
  | true =>
    rw [if_pos rfl]
    cases hold : p row with
    | true => rw [insert_eq_of_mem (hmem.2 hold)]
    | false =>
      rw [card_insert_of_notMem fun hm => by simp [hmem.1 hm] at hold]
      rfl
  | false =>
    rw [if_neg nofun]
    cases hold : p row with
    | true => exact card_erase_add_one (hmem.2 hold)
    | false => rw [erase_eq_of_notMem fun hm => by simp [hmem.1 hm] at hold]

lemma of_mem_runningSet_set (h : j ∈ (b.set i row').runningSet) :
    (j = i ∧ row'.state = .running) ∨ j ∈ b.runningSet := by
  by_cases hj : j = i
  · subst hj
    exact .inl ⟨rfl, by simpa [set] using (mem_select.1 h).2⟩
  · exact .inr (mem_select.2 (by simpa [mem_select, set, hj] using mem_select.1 h))

lemma rows_set_self : (b.set i row).rows i = some row := by simp [set]

lemma rows_set_of_ne (h : j ≠ i) : (b.set i row).rows j = b.rows j := by simp [set, h]

/-- A row of the new books is the new one or one of the others. -/
lemma rows_set_cases (h : (b.set i row').rows j = some row) :
    (j = i ∧ row = row') ∨ (j ≠ i ∧ b.rows j = some row) := by
  by_cases hj : j = i
  · subst hj
    rw [rows_set_self] at h
    exact .inl ⟨rfl, (Option.some.inj h).symm⟩
  · rw [rows_set_of_ne hj] at h
    exact .inr ⟨hj, h⟩

/-! ### How the books move -/

/-- The row of an uploader is replaced: what has to be known of the other rows. -/
lemma Named.set {claimed : List String} (h : b.Named claimed)
    (hrows : b'.rows = (b.set i row').rows) (hi : i < b'.nextIndex)
    (hle : b.nextIndex ≤ b'.nextIndex) (hacc : row'.pendingAccounted = row'.state.isLive ∧
      row'.runningAccounted = decide (row'.state = .running))
    (hself : row'.state.isLive = true → row'.name ∈ b'.knownTargets ∧ row'.name ∉ claimed')
    (hoth : ∀ j row, j ≠ i → b.rows j = some row → row.state.isLive = true →
      row.name ∈ b'.knownTargets ∧ (row'.state.isLive = true → row.name ≠ row'.name))
    (hclm : ∀ name ∈ claimed', name ∈ claimed ∧ name ∈ b'.knownTargets) : b'.Named claimed' := by
  have hcs : ∀ {j row}, b'.rows j = some row →
      (j = i ∧ row = row') ∨ (j ≠ i ∧ b.rows j = some row) := by
    intro j row hrow
    rw [hrows] at hrow
    exact rows_set_cases hrow
  constructor
  case bounded =>
    intro j row hrow
    rcases hcs hrow with ⟨rfl, -⟩ | ⟨-, hrow⟩
    · exact hi
    · exact (h.bounded j row hrow).trans_le hle
  case accounted =>
    intro j row hrow
    rcases hcs hrow with ⟨-, rfl⟩ | ⟨-, hrow⟩
    · exact hacc
    · exact h.accounted j row hrow
  case known =>
    intro j row hrow hlive
    rcases hcs hrow with ⟨-, rfl⟩ | ⟨hj, hrow⟩
    · exact (hself hlive).1
    · exact (hoth j row hj hrow hlive).1
  case unique =>
    intro j j' row row'' hrow hrow'' hlive hlive'' hname
    rcases hcs hrow with ⟨rfl, rfl⟩ | ⟨hj, hrow⟩
    · rcases hcs hrow'' with ⟨rfl, -⟩ | ⟨hj', hrow''⟩
      · rfl
      · exact absurd hname.symm ((hoth j' row'' hj' hrow'' hlive'').2 hlive)
    · rcases hcs hrow'' with ⟨rfl, rfl⟩ | ⟨-, hrow''⟩
      · exact absurd hname ((hoth j row hj hrow hlive).2 hlive'')
      · exact h.unique j j' row row'' hrow hrow'' hlive hlive'' hname
  case claimed =>
    intro name hname
    obtain ⟨hbef, hknown⟩ := hclm name hname
    refine ⟨hknown, fun j row hrow hlive => ?_⟩
    rcases hcs hrow with ⟨-, rfl⟩ | ⟨-, hrow⟩
    · rintro rfl
      exact (hself hlive).2 hname
    · exact (h.claimed name hbef).2 j row hrow hlive

namespace Sound

section

variable (h : b.Sound env claimed k) (hrow : b.rows i = some row)

include h hrow

lemma running_set (row' : Row) :
    ((b.set i row').runningSet.card : ℤ) + (decide (row.state = .running)).toNat =
      b.running + (decide (row'.state = .running)).toNat := by
  rw [h.running]
  exact_mod_cast card_select_set (h.bounded i row hrow) hrow _

lemma pending_set (row' : Row) : ((b.set i row').liveSet.card : ℤ) + k + row.state.isLive.toNat =
      b.pendingRows + row'.state.isLive.toNat := by
  have hcard : (b.set i row').liveSet.card + row.state.isLive.toNat =
      b.liveSet.card + row'.state.isLive.toNat :=
    card_select_set (h.bounded i row hrow) hrow _
  rw [h.pending]
  omega

lemma pending_pos (hlive : row.state.isLive = true) : 1 ≤ b.pendingRows := by
  have hmem : i ∈ b.liveSet := (mem_select_of_row (h.bounded i row hrow) hrow).2 hlive
  have hpos := card_pos.2 ⟨i, hmem⟩
  have hpend := h.pending
  omega

lemma mem_runningSet (hst : row.state = .running) : i ∈ b.runningSet :=
  (mem_select_of_row (h.bounded i row hrow) hrow).2 (decide_eq_true hst)

lemma running_pos (hst : row.state = .running) : 1 ≤ b.running := by
  have hpos := card_pos.2 ⟨i, h.mem_runningSet hrow hst⟩
  have hrun := h.running
  omega

/-- An upload under way ends; its outcome may be unresolved if it was running. -/
lemma leave (hlive : row.state.isLive = true) (hend : row'.state.isLive = false)
    (hflg : row'.pendingAccounted = false ∧ row'.runningAccounted = false)
    (hr : r = if row.state = .running then b.running - 1 else b.running) {u : Finset ℕ}
    (hu : ∀ j ∈ u, j ∈ b.unresolvedUnknown ∨ (j = i ∧ row.state = .running)) {q : QueueState}
    (hq : q = .running → u = ∅) : ({ b.set i row' with
      running := r
      pendingRows := b.pendingRows - 1
      knownTargets := b.knownTargets.erase row.name
      unresolvedUnknown := u
      queueState := q } : Books).Sound env claimed k := by
  have hnotRunning : decide (row'.state = .running) = false := by
    apply decide_eq_false
    intro hst
    simp [hst, isLive] at hend
  have hrun := h.running_set hrow row'
  have hpend := h.pending_set hrow row'
  rw [hnotRunning] at hrun
  rw [hlive, hend] at hpend
  refine ⟨h.toNamed.set rfl (h.bounded i row hrow) (Nat.le_refl _)
    ⟨hflg.1.trans hend.symm, hflg.2.trans hnotRunning.symm⟩ ?_ ?_ ?_, ?_, ?_, hq, h.starts, ?_, ?_⟩
  · intro hlive'
    simp [hend] at hlive'
  · intro j x hj hx hxlive
    refine ⟨mem_erase.2 ⟨fun hname => hj ?_, h.known j x hx hxlive⟩, fun hlive' => ?_⟩
    · exact h.unique j i x row hx hrow hxlive hlive hname
    · simp [hend] at hlive'
  · intro name hname
    obtain ⟨hknown, hfree⟩ := h.claimed name hname
    exact ⟨hname, mem_erase.2 ⟨(hfree i row hrow hlive).symm, hknown⟩⟩
  · change r = ((b.set i row').runningSet.card : ℤ)
    rw [hr]
    split <;> simp_all
    omega
  · refine (card_le_card fun j hj => ?_).trans h.slots
    rcases mem_union.1 hj with hj | hj
    · rcases of_mem_runningSet_set hj with ⟨-, hst⟩ | hj
      · simp [hst] at hnotRunning
      · exact mem_union_left _ hj
    · rcases hu j hj with hj | ⟨rfl, hst⟩
      · exact mem_union_right _ hj
      · exact mem_union_left _ (h.mem_runningSet hrow hst)
  · change b.pendingRows - 1 = ((b.set i row').liveSet.card : ℤ) + k
    simp at hpend
    omega
  · have hcap := h.capacity
    change b.pendingRows - 1 + b.preflightReservedRows ≤ _
    omega

/-- A queued upload is started while nothing is unresolved and a slot is free. -/
lemma start (hst : row.state = .queued) (hque : b.queueState = .running)
    (hslot : b.running < env.maxConcurrentUploads) :
    ({ b.set i { row with state := .running, runningAccounted := true } with
      running := b.running + 1
      starts := b.starts ++ [b.unresolvedUnknown] } : Books).Sound env claimed k := by
  have hlive : row.state.isLive = true := by rw [hst]; rfl
  have hrsl := h.resolved hque
  have hrun := h.running_set hrow { row with state := .running, runningAccounted := true }
  have hpend := h.pending_set hrow { row with state := .running, runningAccounted := true }
  simp only [hst, reduceCtorEq, decide_false, decide_true, isLive,
    Bool.toNat_false, Bool.toNat_true] at hrun hpend
  refine ⟨h.toNamed.set rfl (h.bounded i row hrow) (Nat.le_refl _) ⟨?_, rfl⟩ ?_ ?_ ?_, ?_, ?_,
    h.resolved, ?_, ?_, h.capacity⟩
  · exact (h.accounted i row hrow).1.trans hlive
  · intro _
    exact ⟨h.known i row hrow hlive, fun hname => (h.claimed _ hname).2 i row hrow hlive rfl⟩
  · intro j x hj hx hxlive
    exact ⟨h.known j x hx hxlive, fun _ hname => hj (h.unique j i x row hx hrow hxlive hlive hname)⟩
  · exact fun name hname => ⟨hname, (h.claimed name hname).1⟩
  · change b.running + 1 = ((b.set i _).runningSet.card : ℤ)
    omega
  · change ((b.set i _).runningSet ∪ b.unresolvedUnknown).card ≤ _
    rw [hrsl, union_empty]
    omega
  · intro unresolved hmem
    rcases List.mem_append.1 hmem with hmem | hmem
    · exact h.starts unresolved hmem
    · rw [List.mem_singleton.1 hmem, hrsl]
  · change b.pendingRows = ((b.set i _).liveSet.card : ℤ) + k
    omega

/-- An upload that has ended is taken up again, in the queue or to ask for its outcome. -/
lemma rejoin {t : Row} (hend : row.state.isLive = false) (hname : row.name ∉ b.knownTargets)
    (hroom : b.pendingRows + b.preflightReservedRows + 1 ≤ uploadPendingRowLimit)
    (hlive : t.state.isLive = true) (hname' : t.name = row.name) (hacc : t.pendingAccounted = true ∧
      t.runningAccounted = decide (t.state = .running))
    (hunr : t.state = .running → i ∈ b.unresolvedUnknown)
    (hr : r = if t.state = .running then b.running + 1 else b.running) : ({ b.set i t with
      running := r
      pendingRows := b.pendingRows + 1
      knownTargets := insert row.name b.knownTargets } : Books).Sound env claimed k := by
  have hnotRunning : decide (row.state = .running) = false := by
    apply decide_eq_false
    intro hst
    simp [hst, isLive] at hend
  have hrun := h.running_set hrow t
  have hpend := h.pending_set hrow t
  rw [hnotRunning] at hrun
  rw [hlive, hend] at hpend
  refine ⟨h.toNamed.set rfl (h.bounded i row hrow) (Nat.le_refl _) ⟨hacc.1.trans hlive.symm, hacc.2⟩
    ?_ ?_ ?_, ?_, ?_, h.resolved, h.starts, ?_, ?_⟩
  · intro _
    rw [hname']
    exact ⟨mem_insert_self _ _, fun hm => hname (h.claimed _ hm).1⟩
  · intro j x hj hx hxlive
    have hknown := h.known j x hx hxlive
    refine ⟨mem_insert_of_mem hknown, fun _ heq => hname ?_⟩
    rw [← hname', ← heq]
    exact hknown
  · exact fun name hm => ⟨hm, mem_insert_of_mem (h.claimed name hm).1⟩
  · change r = ((b.set i t).runningSet.card : ℤ)
    rw [hr]
    split <;> simp_all
  · refine (card_le_card fun j hj => ?_).trans h.slots
    rcases mem_union.1 hj with hj | hj
    · rcases of_mem_runningSet_set hj with ⟨rfl, hst⟩ | hj
      · exact mem_union_right _ (hunr hst)
      · exact mem_union_left _ hj
    · exact mem_union_right _ hj
  · change b.pendingRows + 1 = ((b.set i t).liveSet.card : ℤ) + k
    simp at hpend
    omega
  · change b.pendingRows + 1 + b.preflightReservedRows ≤ _
    omega

end

/-- An entry whose name is claimed gets its uploader. -/
lemma create {name : String} (h : b.Sound env (name :: claimed) (k + 1)) (hnd : name ∉ claimed) :
    ({ b.set b.nextIndex ⟨name, .queued, true, false⟩ with
      nextIndex := b.nextIndex + 1 } : Books).Sound env claimed k := by
  obtain ⟨hknown, hfree⟩ := h.claimed name List.mem_cons_self
  have hsel : ∀ p : Row → Bool, ({ b.set b.nextIndex ⟨name, .queued, true, false⟩ with
      nextIndex := b.nextIndex + 1 } : Books).select p =
      if p ⟨name, .queued, true, false⟩ then insert b.nextIndex (b.select p) else b.select p := by
    intro p
    ext j
    by_cases hj : j = b.nextIndex
    · subst hj
      cases hp : p ⟨name, .queued, true, false⟩ <;> simp [mem_select, Books.set, hp]
    · have hlt : j < b.nextIndex + 1 ↔ j < b.nextIndex := by omega
      cases hp : p ⟨name, .queued, true, false⟩ <;> simp [mem_select, Books.set, hj, hlt]
  have hnotMem : ∀ p : Row → Bool, b.nextIndex ∉ b.select p := by
    intro p hm
    exact absurd (mem_select.1 hm).1 (Nat.lt_irrefl _)
  have hpend := h.pending
  refine ⟨h.toNamed.set rfl (Nat.lt_succ_self _) (Nat.le_succ _) ⟨rfl, rfl⟩ ?_ ?_ ?_, ?_, ?_,
    h.resolved, h.starts, ?_, h.capacity⟩
  · exact fun _ => ⟨hknown, hnd⟩
  · exact fun j x _ hx hxlive => ⟨h.known j x hx hxlive, fun _ => hfree j x hx hxlive⟩
  · exact fun other hoth =>
      ⟨List.mem_cons_of_mem _ hoth, (h.claimed other (List.mem_cons_of_mem _ hoth)).1⟩
  · rw [runningSet, hsel]
    exact h.running
  · rw [runningSet, hsel]
    exact h.slots
  · rw [liveSet, hsel]
    have hcard := card_insert_of_notMem (hnotMem fun row => row.state.isLive)
    change b.pendingRows = ((insert b.nextIndex b.liveSet).card : ℤ) + k
    change (insert b.nextIndex b.liveSet).card = b.liveSet.card + 1 at hcard
    omega

/-- Only the rows of the books, and nothing of their counters, matter here. -/
lemma of_same_rows {k' : ℕ} (h : b.Sound env claimed k)
    (hrows : b'.rows = b.rows) (hnext : b'.nextIndex = b.nextIndex) (hrun : b'.running = b.running)
    (hsts : b'.starts = b.starts) (hunr : b'.unresolvedUnknown ⊆ b.unresolvedUnknown)
    (hrsl : b'.queueState = .running → b'.unresolvedUnknown = ∅)
    (hknown : ∀ i row, b.rows i = some row → row.state.isLive = true →
      row.name ∈ b'.knownTargets) (hclm : ∀ name ∈ claimed', name ∈ b'.knownTargets ∧
      ∀ i row, b.rows i = some row → row.state.isLive = true → row.name ≠ name)
    (hpend : b'.pendingRows + k = b.pendingRows + k')
    (hcap : b'.pendingRows + b'.preflightReservedRows ≤ uploadPendingRowLimit) :
    b'.Sound env claimed' k' := by
  have hsel : ∀ p : Row → Bool, b'.select p = b.select p := by
    intro p
    simp only [select, hrows, hnext]
  refine ⟨⟨?_, ?_, ?_, ?_, ?_⟩, ?_, ?_, hrsl, ?_, ?_, hcap⟩
  · rw [hrows, hnext]
    exact h.bounded
  · rw [hrows]
    exact h.accounted
  · rw [hrows]
    exact hknown
  · rw [hrows]
    exact h.unique
  · rw [hrows]
    exact hclm
  · rw [hrun, runningSet, hsel]
    exact h.running
  · rw [runningSet, hsel]
    exact (card_le_card (union_subset_union_right hunr)).trans h.slots
  · rw [hsts]
    exact h.starts
  · rw [liveSet, hsel]
    have hpend' := h.pending
    change b'.pendingRows = (b.liveSet.card : ℤ) + k'
    omega

end Sound

end Books

end DufsRam.Client
