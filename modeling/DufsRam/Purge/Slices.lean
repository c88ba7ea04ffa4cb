import Mathlib.Algebra.GroupWithZero.Nat
import DufsRam.InternalNames
import DufsRam.Lib.Machine
import DufsRam.StateStore.Purge
import DufsRam.Upload.World

/-!
# The slices of a purge

`purge_slice_blocking` of `rooted_fs/purge.rs` removes the trash of a job depth first. A slice ends
after some rounds of its loop, and the next one goes on where it has ended. What is to be removed is
first renamed to a name of the quarantine. A slice that fails with `InvalidData` sends the tree to
the quarantine; any other error drops the work, and the next claim captures the trash afresh, by the
revision of the job (`process_purge_work`, `open_purge_work`). Nobody else writes below the trash:
an entry is found as it was a moment before.
-/

namespace DufsRam.PurgeSlice

open Option List Transition

abbrev Stat := ExistingReplacementTarget

/-! ### The trash -/

/-- The entries of a directory in the order in which they are read. -/
inductive Forest where
  | nil
  | file (name : String) (rest : Forest)
  | directory (name : String) (stat : Stat) (below rest : Forest)
  deriving DecidableEq

/-- A directory of the stack: how it is on the disk, its `revision_identity` and the entries that
the cursor has not reached. Those before the cursor are removed. -/
structure PurgeDirectory where
  name : String
  stat : Stat
  revision : Stat
  entries : Forest
  deriving DecidableEq

/-- The stack is empty, its innermost directory is retained from the last slice, or it is open. -/
inductive Position where
  | unopened
  | resumed
  | reading
  deriving DecidableEq

/-- The stack, from the innermost directory outwards. Before it is opened the root, which need not
be a directory, stands for the whole trash. -/
structure TrashEntry where
  top : PurgeDirectory
  outer : List PurgeDirectory
  position : Position
  deriving DecidableEq

/-- What a rename or a removal changes of the directory around it. -/
structure Change where
  links : ℕ := 1
  size : ℕ := 0
  times : FileTimes := {}

namespace PurgeDirectory

variable (f : PurgeDirectory)

def current : Bool := decide (f.revision = f.stat)

/-- `update_purge_directory_revision`. -/
def updateRevision : PurgeDirectory := { f with revision := f.stat }

def change (c : Change) : PurgeDirectory :=
  { f with stat := { f.stat with links := c.links, size := c.size, times := c.times } }

/-- The directory as the next entry of another one. -/
def nest (parent : PurgeDirectory) : PurgeDirectory :=
  { parent with entries := .directory f.name f.stat f.entries parent.entries }

end PurgeDirectory

def maxPurgeStackDepth : ℕ := 2048

def isQuarantineEntryName (name : String) : Bool :=
  decide (classifyInternalName name = some .quarantine)

/-- What a job says of its trash: `is_dir`, `identity` and `trash_revision` of `TrashEntry`. -/
structure Captured where
  isDirectory : Bool
  identity : StoredFileIdentity
  trashRevision : Option Revision

def captured (job : StoredPurgeJob) : Captured :=
  ⟨job.isDirectory, job.sourceIdentity, job.trashRevision⟩

namespace Captured

variable (rev : Stat → Revision) (x : Captured) (stat : Stat)

def Matches : Prop :=
  decide (stat.fileType = .directory) = x.isDirectory ∧ stat.identity = x.identity

/-- The trash has the revision of the job; `rev` is `purge_revision`. -/
def Unchanged : Prop := x.trashRevision = some (rev stat)

instance : Decidable (x.Matches stat) := inferInstanceAs (Decidable (_ ∧ _))

instance : Decidable (x.Unchanged rev stat) := inferInstanceAs (Decidable (_ = _))

end Captured

/-- What a round of the loop comes to. -/
inductive Round where
  | invalidData
  /-- Nothing changes on the disk. -/
  | look (next : TrashEntry)
  /-- An entry of the innermost directory is isolated and then removed. -/
  | unlink (next : TrashEntry) (isolated : String → Forest → Forest)
  | unlinkRoot

namespace TrashEntry

variable (e : TrashEntry)

def unopened (root : PurgeDirectory) : TrashEntry := ⟨root, [], .unopened⟩

/-- The root with all that is left below it. -/
def root : PurgeDirectory := e.outer.foldl .nest e.top

/-- A round in the innermost directory. One that has no entries left is removed from its parent,
which is opened by the way from the root (`open_current_purge_directory`). A slice that ends with
it in `pending_unlink` ends before this round. -/
def read : Round :=
  match e.top.entries, e.outer with
  | .nil, [] => .unlinkRoot
  | .nil, parent :: outer =>
    if (parent :: outer).all PurgeDirectory.current then
      .unlink ⟨parent, outer, .reading⟩ fun name => .directory name e.top.stat .nil
    else .invalidData
  | .file name rest, outer =>
    if isQuarantineEntryName name then .invalidData
    else .unlink ⟨{ e.top with entries := rest }, outer, .reading⟩ .file
  | .directory name stat below rest, outer =>
    -- `reserve_purge_directory_slot`
    if isQuarantineEntryName name ∨ maxPurgeStackDepth ≤ outer.length + 1 then .invalidData
    else .look ⟨⟨name, stat, stat, below⟩,
      { e.top with revision := e.top.stat, entries := rest } :: outer, .reading⟩

/-- A round of `purge_slice_blocking`. -/
def next (rev : Stat → Revision) (x : Captured) : Round :=
  match e.position with
  | .unopened =>
    if x.Unchanged rev e.top.stat then
      if x.isDirectory then .look ⟨e.top.updateRevision, e.outer, .reading⟩ else .unlinkRoot
    else .invalidData
  | .resumed => if e.top.current then e.read else .invalidData
  | .reading => e.read

/-- The end of a slice that has not failed: `remember_purge_directory`. -/
def pause : TrashEntry :=
  if e.position = .reading then ⟨e.top.updateRevision, e.outer, .resumed⟩ else e

end TrashEntry

/-! ### The job -/

inductive Phase where
  /-- In `open_purge_work`. -/
  | opening
  | purging
  | quarantining
  | completing
  | deferring
  deriving DecidableEq

/-- One job, its trash and the work on it. -/
structure State where
  row : Option PurgeRow
  trash : Option TrashEntry
  phase : Option Phase
  quarantined : Option PurgeDirectory

/-- How a call of a round fails. -/
inductive Fault where
  /-- Before there is an effect. -/
  | before
  /-- The entry has its new name but is not removed. -/
  | isolated (id : Uuid) (change : Change)
  /-- The root is removed, but `fsync` fails. -/
  | sync

inductive Event where
  | claim (now : TimeMs)
  | openWork (fails : Bool)
  | round (change : Change)
  | pause
  | fail (fault : Fault)
  | quarantine
  | complete
  | defer (now nextAttempt : TimeMs)

section

variable (rev : Stat → Revision)

namespace State

variable (s : State)

/-- The end of a slice that has failed; its stack is dropped. -/
def failSlice (e : TrashEntry) (phase : Phase) : State :=
  { s with trash := some (.unopened e.root), phase := some phase }

/-- `open_purge_work`, with `capture_entry_for_purge_with_revision` and
`purge_identity_matches`. -/
def openWork (x : Captured) : Phase :=
  match s.trash with
  | none => .completing
  | some e =>
    if x.Matches e.top.stat ∧ x.Unchanged rev e.top.stat then .purging else .quarantining

def round (e : TrashEntry) (c : Change) : Round → State
  | .invalidData => s.failSlice e .quarantining
  | .look next => { s with trash := some next }
  | .unlink next _ => { s with trash := some { next with top := next.top.change c } }
  | .unlinkRoot => { s with trash := none, phase := some .completing }

def fail (e : TrashEntry) : Fault → Round → Option State
  | .before, _ => some (s.failSlice e .deferring)
  | .isolated id c, .unlink next isolated =>
    let top := next.top.change c
    some (s.failSlice
      { next with top := { top with entries := isolated (quarantineName id) top.entries } }
      .quarantining)
  | .isolated _ _, .unlinkRoot => some (s.failSlice e .quarantining)
  | .sync, .unlinkRoot => some { s with trash := none, phase := some .deferring }
  | _, _ => none

/-- What the worker does with a job that it has claimed. -/
def work (row : PurgeRow) : Phase → Event → Option State
  | .opening, .openWork fails =>
    some { s with
      phase := some (if fails then .deferring else s.openWork rev (captured row.job)) }
  | .purging, .round c => s.trash.map fun e => s.round e c (e.next rev (captured row.job))
  | .purging, .pause => some { s with trash := s.trash.map .pause }
  | .purging, .fail fault => s.trash.bind fun e => s.fail e fault (e.next rev (captured row.job))
  | .quarantining, .quarantine =>
    some { s with
      trash := none, quarantined := s.trash.map TrashEntry.root, phase := some .completing }
  | .completing, .complete => some { s with row := none, phase := none }
  | .deferring, .defer now nextAttempt =>
    some { s with row := some (row.retry now nextAttempt), phase := none }
  | _, _ => none

def step (event : Event) : Option State :=
  s.row.bind fun row => match s.phase, event with
    | none, .claim now =>
      if row.due now then some { s with row := some (row.claim now), phase := some .opening }
      else none
    | none, _ => none
    | some phase, event => if row.job.state = .claimed then s.work rev row phase event else none

/-- A step of the worker, if it is its turn. -/
def exec (event : Event) : State := (s.step rev event).getD s

end State

/-- A job that is ready for the given trash. -/
def machine (row : PurgeRow) (root : PurgeDirectory) : Machine State Event :=
  ⟨⟨some row, some (.unopened root), none, none⟩, State.step rev⟩

/-! ### What can be purged -/

/-- No entry has a name of the quarantine, and there are at most that many directories one below the
other. -/
def Forest.Purgeable : ℕ → Forest → Prop
  | _, .nil => True
  | slots, .file name rest => isQuarantineEntryName name = false ∧ rest.Purgeable slots
  | slots, .directory name _ below rest =>
    isQuarantineEntryName name = false ∧ 0 < slots ∧ below.Purgeable (slots - 1) ∧
      rest.Purgeable slots

def Forest.size : Forest → ℕ
  | .nil => 0
  | .file _ rest => rest.size + 1
  | .directory _ _ below rest => below.size + rest.size + 1

/-- The rounds in which the trash is removed. -/
def TrashEntry.cost (e : TrashEntry) : ℕ :=
  ((e.top :: e.outer).map fun f => 2 * f.entries.size + 1).sum +
    if e.position = .unopened then 1 else 0

/-- A slice that fails in this way keeps the trash for the next claim: nothing is left under a name
of the quarantine, and the trash itself has its revision, times included. -/
def State.Harmless (s : State) : Fault → Prop
  | .before => ∀ row ∈ s.row, ∀ e ∈ s.trash, (captured row.job).Unchanged rev e.root.stat
  | .isolated _ _ => False
  | .sync => True

/-- A claim without errors: its slices are rounds and, for `none`, pauses. -/
def lastClaim (now : TimeMs) (slices : List (Option Change)) : List Event :=
  .claim now :: .openWork false :: slices.map (fun slice => slice.elim .pause .round) ++ [.complete]

/-- The job is kept until its trash is gone, the trash is not in the quarantine nor about to go
there, and a claim without errors that has the time to do so removes it and completes the job. -/
structure State.Kept (s : State) : Prop where
  kept : s.row = none → s.trash = none
  not_quarantining : s.phase ≠ some .quarantining
  not_quarantined : s.quarantined = none
  completed : ∀ row now slices, s.row = some row → row.due now = true →
    (∀ e ∈ s.trash, e.cost ≤ (reduceOption slices).length) →
    let s' := (lastClaim now slices).foldl (State.exec rev) s
    s'.row = none ∧ s'.trash = none

/-! ### The scan -/

/-- A directory that can be purged, below the given number of others. -/
structure Fits (x : Captured) (depth : ℕ) (f : PurgeDirectory) : Prop where
  bound : depth < maxPurgeStackDepth
  entries : f.entries.Purgeable (maxPurgeStackDepth - 1 - depth)
  name : depth ≠ 0 → isQuarantineEntryName f.name = false
  trash : depth = 0 → x.Matches f.stat

def Stacked (x : Captured) : List PurgeDirectory → Prop
  | [] => True
  | f :: outer => Fits x outer.length f ∧ Stacked x outer

/-- What holds between two rounds. -/
structure TrashEntry.Sound (x : Captured) (e : TrashEntry) : Prop where
  stacked : Stacked x (e.top :: e.outer)
  outer : ∀ f ∈ e.outer, f.current
  top : e.position = .resumed → e.top.current
  unopened : e.position = .unopened → e.outer = [] ∧ x.Unchanged rev e.top.stat

/-- What a round leaves. -/
def Round.Ok (x : Captured) (cost : ℕ) : Round → Prop
  | .invalidData => False
  | .look next => next.Sound rev x ∧ next.cost < cost
  | .unlink next _ => ∀ c, let next := { next with top := next.top.change c }
    next.Sound rev x ∧ next.cost < cost
  | .unlinkRoot => True

/-- The trash is what the job was made ready for, as far as it is not removed. -/
def Intact (x : Captured) (trash : Option TrashEntry) : Prop :=
  ∀ e ∈ trash, e.Sound rev x ∧ e.position = .unopened

def PhaseOk (x : Captured) (trash : Option TrashEntry) : Phase → Prop
  | .opening | .deferring => Intact rev x trash
  | .purging => ∃ e, trash = some e ∧ e.Sound rev x
  | .completing => trash = none
  | .quarantining => False

inductive Stage : State → Prop
  | waiting {row trash} (h : Intact rev (captured row.job) trash) :
      Stage ⟨some row, trash, none, none⟩
  | working {row trash phase} (hclaimed : row.job.state = .claimed)
      (h : PhaseOk rev (captured row.job) trash phase) :
      Stage ⟨some row, trash, some phase, none⟩
  | finished : Stage ⟨none, none, none, none⟩

/-- The job is worked on, and its trash is removed in the given number of rounds. -/
def Remaining (rounds : ℕ) (s : State) : Prop :=
  ∃ row, row.job.state = .claimed ∧
    (s = ⟨some row, none, some .completing, none⟩ ∨
      ∃ e : TrashEntry, s = ⟨some row, some e, some .purging, none⟩ ∧
        e.Sound rev (captured row.job) ∧ e.cost ≤ rounds)

end

variable {rev : Stat → Revision} {x : Captured} {e : TrashEntry} {f parent : PurgeDirectory}
  {outer : List PurgeDirectory} {depth : ℕ} {s s' : State} {row : PurgeRow}
  {trash : Option TrashEntry} {event : Event}

lemma Fits.nest (hf : Fits x (depth + 1) f) (hparent : Fits x depth parent) :
    Fits x depth (f.nest parent) := by
  obtain ⟨hbound, hentries, hname, -⟩ := hf
  refine ⟨hparent.bound, ⟨hname (by omega), by omega, ?_, hparent.entries⟩, hparent.name,
    hparent.trash⟩
  rwa [Nat.sub_sub _ depth 1]

/-- The trash that is left when the scan is dropped can be purged again. -/
lemma Stacked.root (h : Stacked x (f :: outer)) : Fits x 0 (outer.foldl .nest f) := by
  -- each directory goes back into the one around it, with one slot less above it
  induction outer generalizing f with
  | nil => exact h.1
  | cons parent outer ih => exact ih ⟨h.1.nest h.2.1, h.2.2⟩

lemma Fits.updateRevision (h : Fits x depth f) : Fits x depth f.updateRevision :=
  ⟨h.bound, h.entries, h.name, h.trash⟩

lemma TrashEntry.Sound.read (h : e.Sound rev x) : e.read.Ok rev x e.cost := by
  obtain ⟨⟨name, stat, revision, entries⟩, outer, position⟩ := e
  obtain ⟨⟨hfits, hstacked⟩, houter, -⟩ := h
  cases entries with
  | nil =>
    cases outer with
    | nil => trivial
    | cons parent outer =>
      have hall : (parent :: outer).all PurgeDirectory.current := all_eq_true.2 houter
      simp only [TrashEntry.read, hall, if_true]
      obtain ⟨⟨hbound, hentries, hname, htrash⟩, hstacked⟩ := hstacked
      refine fun c => ⟨⟨⟨⟨hbound, hentries, hname, htrash⟩, hstacked⟩,
        fun f hf => houter f (mem_cons_of_mem _ hf), nofun, nofun⟩, ?_⟩
      simp [TrashEntry.cost, PurgeDirectory.change]
      omega
  | file name rest =>
    obtain ⟨hname, hrest⟩ := hfits.entries
    simp only [TrashEntry.read, hname, Bool.false_eq_true, if_false]
    refine fun c => ⟨⟨⟨⟨hfits.bound, hrest, hfits.name, hfits.trash⟩, hstacked⟩, houter, nofun,
      nofun⟩, ?_⟩
    simp [TrashEntry.cost, PurgeDirectory.change, Forest.size]
    omega
  | directory name stat below rest =>
    obtain ⟨hname, hslots, hbelow, hrest⟩ := hfits.entries
    have hdepth : outer.length + 1 < maxPurgeStackDepth := by
      simp only at hslots
      omega
    simp only [TrashEntry.read, hname, not_le.2 hdepth, Bool.false_eq_true, false_or, if_false]
    rw [Nat.sub_sub] at hbelow
    refine ⟨⟨⟨⟨hdepth, hbelow, fun _ => hname, nofun⟩,
      ⟨hfits.bound, hrest, hfits.name, hfits.trash⟩, hstacked⟩,
      forall_mem_cons.2 ⟨decide_eq_true rfl, houter⟩, nofun, nofun⟩, ?_⟩
    simp [TrashEntry.cost, Forest.size]
    omega

/-- No round fails of itself, and each brings the scan nearer to its end. -/
lemma TrashEntry.Sound.next (h : e.Sound rev x) : (e.next rev x).Ok rev x e.cost := by
  unfold TrashEntry.next
  split
  case h_1 hpos =>
    rw [if_pos (h.unopened hpos).2]
    split_ifs
    · refine ⟨⟨⟨h.stacked.1.updateRevision, h.stacked.2⟩, h.outer, nofun, nofun⟩, ?_⟩
      simp [TrashEntry.cost, hpos, PurgeDirectory.updateRevision]
    · trivial
  case h_2 hpos =>
    rw [if_pos (h.top hpos)]
    exact h.read
  case h_3 => exact h.read

lemma TrashEntry.Sound.pause (h : e.Sound rev x) :
    e.pause.Sound rev x ∧ e.pause.cost ≤ e.cost := by
  rw [TrashEntry.pause]
  split_ifs with hpos
  · refine ⟨⟨⟨h.stacked.1.updateRevision, h.stacked.2⟩, h.outer, fun _ => decide_eq_true rfl,
      nofun⟩, ?_⟩
    simp [TrashEntry.cost, PurgeDirectory.updateRevision]
  · exact ⟨h, le_rfl⟩

/-- A round removes the root or goes on, nearer to the end. -/
lemma TrashEntry.Sound.round (h : e.Sound rev x) (s : State) (c : Change) :
    s.round e c (e.next rev x) = { s with trash := none, phase := some .completing } ∨
      ∃ next, s.round e c (e.next rev x) = { s with trash := some next } ∧
        next.Sound rev x ∧ next.cost < e.cost := by
  have hok := h.next
  generalize e.next rev x = result at hok ⊢
  cases result with
  | invalidData => exact hok.elim
  | look next => exact .inr ⟨next, rfl, hok⟩
  | unlink next => exact .inr ⟨_, rfl, hok c⟩
  | unlinkRoot => exact .inl rfl

/-! ### Runs -/

lemma intact_none : Intact rev x none := fun _ h => (not_mem_none _ h).elim

lemma intact_unopened (hfits : Fits x 0 f) (hrevision : x.Unchanged rev f.stat) :
    Intact rev x (some (.unopened f)) := by
  rintro _ ⟨⟩
  exact ⟨⟨⟨hfits, trivial⟩, nofun, nofun, fun _ => ⟨rfl, hrevision⟩⟩, rfl⟩

/-- A trash with the revision of the job is opened, or found to be gone. -/
lemma Intact.openWork (h : Intact rev x s.trash) : s.trash = none ∧ s.openWork rev x = .completing ∨
      ∃ e, s.trash = some e ∧ s.openWork rev x = .purging ∧ e.Sound rev x := by
  rw [State.openWork]
  cases htrash : s.trash with
  | none => exact .inl ⟨rfl, rfl⟩
  | some e =>
    obtain ⟨hsound, hpos⟩ := h e htrash
    obtain ⟨houter, hrevision⟩ := hsound.unopened hpos
    have hfits := hsound.stacked.1
    rw [houter] at hfits
    exact .inr ⟨e, rfl, if_pos ⟨hfits.trash rfl, hrevision⟩, hsound⟩

lemma Stage.fail {fault : Fault} (hclaimed : row.job.state = .claimed)
    (h : e.Sound rev (captured row.job))
    (hharm : State.Harmless rev ⟨some row, some e, some .purging, none⟩ fault)
    (hfail : State.fail ⟨some row, some e, some .purging, none⟩ e fault
      (e.next rev (captured row.job)) = some s') : Stage rev s' := by
  cases fault with
  | before =>
    cases hfail
    exact .working hclaimed (intact_unopened h.stacked.root (hharm row rfl e rfl))
  | isolated => exact hharm.elim
  | sync =>
    cases hnext : e.next rev (captured row.job) <;> rw [hnext] at hfail <;> cases hfail
    exact .working hclaimed intact_none

/-- Every step keeps the stage, provided that a slice fails without harm. -/
lemma Stage.step (h : Stage rev s) (hstep : s.step rev event = some s')
    (hharm : ∀ fault, event = .fail fault → s.Harmless rev fault) : Stage rev s' := by
  cases h with
  | finished => cases hstep
  | waiting h =>
    cases event with
    | claim now =>
      simp only [State.step, bind_some] at hstep
      split_ifs at hstep
      cases hstep
      exact .working rfl h
    | _ => cases hstep
  | @working row trash phase hclaimed h =>
    simp only [State.step, bind_some, if_pos hclaimed] at hstep
    unfold State.work at hstep
    split at hstep
    case h_1 fails =>
      cases hstep
      refine .working hclaimed ?_
      cases fails with
      | true => exact h
      | false =>
        change PhaseOk _ _ _ (State.openWork _ _ _)
        obtain ⟨hgone, hphase⟩ | ⟨e, htrash, hphase, hsound⟩ :=
          Intact.openWork (s := ⟨some row, trash, some .opening, none⟩) h
        · exact hphase ▸ hgone
        · exact hphase ▸ ⟨e, htrash, hsound⟩
    case h_2 c =>
      obtain ⟨e, rfl, hsound⟩ := h
      cases hstep
      change Stage _ (State.round _ _ _ _)
      obtain hround | ⟨next, hround, hnext, -⟩ := hsound.round _ c
      · exact hround ▸ .working hclaimed rfl
      · exact hround ▸ .working hclaimed ⟨next, rfl, hnext⟩
    case h_3 =>
      obtain ⟨e, rfl, hsound⟩ := h
      cases hstep
      exact .working hclaimed ⟨_, rfl, hsound.pause.1⟩
    case h_4 fault =>
      obtain ⟨e, rfl, hsound⟩ := h
      exact .fail hclaimed hsound (hharm fault rfl) hstep
    case h_5 => exact h.elim
    case h_6 =>
      cases show trash = none from h
      cases hstep
      exact .finished
    case h_7 =>
      cases hstep
      exact .waiting h
    case h_8 => cases hstep

lemma Remaining.slice {rounds : ℕ} {slice : Option Change}
    (h : Remaining rev (rounds + slice.toList.length) s) :
    Remaining rev rounds (s.exec rev (slice.elim .pause .round)) := by
  obtain ⟨row, hclaimed, rfl | ⟨e, rfl, hsound, hcost⟩⟩ := h
  · refine ⟨row, hclaimed, .inl ?_⟩
    cases slice <;> simp [State.exec, State.step, State.work]
  · simp only [State.exec, State.step, bind_some, if_pos hclaimed]
    refine ⟨row, hclaimed, ?_⟩
    cases slice with
    | none => exact .inr ⟨e.pause, rfl, hsound.pause.1, hsound.pause.2.trans hcost⟩
    | some c =>
      obtain hround | ⟨next, hround, hnext, hless⟩ := hsound.round _ c
      · exact .inl hround
      · exact .inr ⟨next, hround, hnext, Nat.le_of_lt_succ (hless.trans_le hcost)⟩

lemma Remaining.slices {slices : List (Option Change)}
    (h : Remaining rev (reduceOption slices).length s) : Remaining rev 0
      ((slices.map fun slice => slice.elim .pause .round).foldl (State.exec rev) s) := by
  induction slices generalizing s with
  | nil => exact h
  | cons slice slices ih =>
    refine ih (Remaining.slice ?_)
    cases slice <;> exact h

/-- A claim without errors completes the job. -/
lemma Intact.completed {now : TimeMs} {slices : List (Option Change)}
    (h : Intact rev (captured row.job) trash) (hdue : row.due now = true)
    (hcost : ∀ e ∈ trash, e.cost ≤ (reduceOption slices).length) :
    (lastClaim now slices).foldl (State.exec rev) ⟨some row, trash, none, none⟩ =
      ⟨none, none, none, none⟩ := by
  set opening : State := ⟨some (row.claim now), trash, some .opening, none⟩
  have hclaim : State.exec rev ⟨some row, trash, none, none⟩ (.claim now) = opening := by
    simp [State.exec, State.step, hdue, opening]
  have hopen : Remaining rev (reduceOption slices).length
      { opening with phase := some (opening.openWork rev (captured row.job)) } := by
    refine ⟨row.claim now, rfl, ?_⟩
    obtain ⟨hgone, hphase⟩ | ⟨e, htrash, hphase, hsound⟩ := Intact.openWork (s := opening) h
    · exact .inl (by rw [hphase, show opening.trash = none from hgone])
    · exact .inr ⟨e, by rw [hphase, htrash], hsound, hcost e htrash⟩
  obtain ⟨row', hclaimed, hs | ⟨e, -, -, hzero⟩⟩ := hopen.slices
  · rw [lastClaim, cons_append, cons_append, foldl_cons, foldl_cons, foldl_append, hclaim]
    refine (congrArg (foldl _ · _) hs).trans ?_
    simp [State.exec, State.step, hclaimed, State.work]
  · -- a trash that is still there costs a round
    exact absurd hzero (by simp [TrashEntry.cost])

lemma Stage.kept (h : Stage rev s) : s.Kept rev := by
  cases h with
  | waiting h =>
    refine ⟨nofun, nofun, rfl, ?_⟩
    rintro row now slices ⟨⟩ hdue hcost
    rw [h.completed hdue hcost]
    exact ⟨rfl, rfl⟩
  | working hclaimed h =>
    refine ⟨nofun, ?_, rfl, ?_⟩
    · rintro ⟨⟩
      exact h
    · rintro row now slices ⟨⟩ hdue
      simp [PurgeRow.due, hclaimed] at hdue
  | finished => exact ⟨fun _ => rfl, nofun, rfl, nofun⟩

/-- If the trash can be purged and every slice that fails does so without harm, the job is kept and
its trash is never quarantined, and a claim without errors removes the trash. -/
theorem kept_of_harmless (rev : Stat → Revision) (row : PurgeRow) (root : PurgeDirectory)
    (hmatches : (captured row.job).Matches root.stat)
    (hrevision : (captured row.job).Unchanged rev root.stat)
    (hpurgeable : root.entries.Purgeable (maxPurgeStackDepth - 1)) (schedule : ℕ → Event)
    (hharm : ∀ n fault, schedule n = .fail fault →
      ((machine rev row root).run schedule n).Harmless rev fault) (n : ℕ) :
    ((machine rev row root).run schedule n).Kept rev := by
  refine Stage.kept ?_
  induction n with
  | zero =>
    have hfits : Fits (captured row.job) 0 root :=
      ⟨by decide, hpurgeable, nofun, fun _ => hmatches⟩
    exact .waiting (intact_unopened hfits hrevision)
  | succ n ih => exact Machine.exec_cases ih fun _ hstep => ih.step hstep fun fault => hharm n fault

/-! ### A run -/

/-- The revision of an entry is taken to be the second of its last modification. -/
def sampleRevision (x : Stat) : Revision := BitVec.ofInt _ x.times.modifiedSeconds

def sampleStat : Stat := ⟨⟨1, 2⟩, .directory, 2, 0, 0, 0, 0, {}⟩

/-- A directory with two files. -/
def sampleTrash : PurgeDirectory :=
  ⟨"trash", sampleStat, sampleStat, .file "b" (.file "c" .nil)⟩

def sampleRow : PurgeRow :=
  (PurgeRow.prepare 1 ⟨⟨0, 8⟩, ["a"], ["trash"], ⟨1, 2⟩, none, true, .prepared, 0⟩).markReady 3 0

def sampleRun (events : List Event) : ℕ → State :=
  (machine sampleRevision sampleRow sampleTrash).run fun n => events.getD n (.claim 0)

/-- The first slice fails before it has removed anything, and the job is put back. -/
def failedSlice : List Event := [.claim 5, .openWork false, .round {}, .fail .before, .defer 6 7]

theorem kept_of_failedSlice : (sampleRun failedSlice 5).Kept sampleRevision ∧
    (sampleRun failedSlice 5).row.map (fun row => row.job.state) = some .ready := by
  refine ⟨kept_of_harmless sampleRevision sampleRow sampleTrash (by decide) (by decide)
    ⟨by decide +kernel, by decide +kernel, trivial⟩ _ (fun n fault hn => ?_) 5, by decide +kernel⟩
  rcases n with _ | _ | _ | _ | _ | n <;> cases hn
  change ∀ row ∈ _, ∀ e ∈ _, _
  decide +kernel

/-- The first slice removes one of the two files, which changes the times of the directory, and
fails. -/
def partialSlice : List Event :=
  [.claim 5, .openWork false, .round {}, .round { times := { modifiedSeconds := 6 } },
    .fail .before, .defer 7 8, .claim 8, .openWork false, .quarantine, .complete]

/-- The next claim quarantines the directory with the other file, and the job is gone. -/
theorem partial_slice_quarantines : ¬ (sampleRun partialSlice 8).Kept sampleRevision ∧
    (sampleRun partialSlice 10).row = none ∧
    (sampleRun partialSlice 10).quarantined.map (fun root => root.entries) =
      some (.file "c" .nil) :=
  ⟨fun h => h.not_quarantining (by decide +kernel), by decide +kernel⟩

end DufsRam.PurgeSlice
