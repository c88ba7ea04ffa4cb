import DufsRam.Delete.Preservation

/-!
# What DELETE guarantees

Along every run, with any failures and restarts, content is destroyed only under a job that became
ready with the revision of its own rename; a job that is prepared loses nothing but into the
quarantine; an outcome that is known is the right one; and what was in the tree is found at its
place, in the trash of a job or in the quarantine until it is purged.
-/

namespace DufsRam.Delete

open Transition.Machine List PathMap

/-! ### Runs -/

/-- A run of a server on a tree in which no reserved name is used. -/
structure Run where
  server : Server
  files : Files
  schedule : ℕ → Event
  plain : ∀ path x, files.entry path = some x → ∀ c ∈ path, isInternalName c = false

namespace Run

variable (ρ : Run)

def state (n : ℕ) : State := (machine ρ.server ρ.files).run ρ.schedule n

/-- The job was ready with the revision at some moment. -/
def ReachedReady (n : ℕ) (key : PurgeJobKey) (revision : Revision) : Prop :=
  ∃ m ≤ n, ∃ row, (ρ.state m).db.purge key = some row ∧ row.job.state = .ready ∧
    row.job.trashRevision = some revision

end Run

variable {d : Readied} {e : Event} {times : FileTimes} {path home : RelPath} {server : Server}
  {s s' : State}

section Steps

/-- A job that is recorded as made ready is ready at that moment. -/
lemma Step.readied (h : Step server s e s') (hd : d ∈ s'.readied) :
    d ∈ s.readied ∨ ∃ row, s'.db.purge d.key = some row ∧ row.job.state = .ready ∧
      row.job.trashRevision = some d.revision := by
  cases h with
  | ready hr hph hrow hdb =>
    rcases mem_cons.1 hd with rfl | hd
    · refine .inr ⟨_, (hdb.purge _).trans (if_pos rfl), rfl, rfl⟩
    · exact .inl hd
  | _ => exact .inl hd

end Steps

/-- The path is at or below a name of the quarantine. -/
def InQuarantine (path : RelPath) : Prop :=
  ∃ parents id rest, path = parents ++ quarantineName id :: rest

/-- What a step can make of an entry: it keeps its place, goes to the trash below a target that is
clear, goes to the quarantine below the trash of a job, or is purged below the trash of a job that
is claimed. -/
inductive Fate (s s' : State) (q : RelPath) (x : Entry) : Prop
  | stays {y} (hy : s'.files.entry q = some y) (hcontent : y.content = x.content)
  | trashed {path : RelPath} {k row rest y} (hq : path <+: q) (hpath : path.Requestable)
      (hclear : Clear s path) (hrow : s'.db.purge k = some row)
      (hy : s'.files.entry (row.job.trashPath ++ rest) = some y) (hcontent : y.content = x.content)
  | quarantined {q' y} (hquarantine : InQuarantine q') (hy : s'.files.entry q' = some y)
      (hcontent : y.content = x.content)
  | purged {k row rest p} (hrow : s.db.purge k = some row) (hclaimed : row.job.state = .claimed)
      (hq : row.job.trashPath <+: q) (hp : p ∈ s'.purged) (hx : p.subtree rest = some x)

section Fates

variable {k : PurgeJobKey} {row : PurgeRow} {q : RelPath} {x : Entry}

/-- The rename of a target takes along what is below it. -/
lemma fate_move (hpath : path.Requestable)
    (hclr : Clear s path) (hren : rename s.files path (deleteTrashName k.id) times = some s'.files)
    (hrow : s'.db.purge k = some row) (htr : row.job.trashPath = trashOf path k)
    (hx : s.files.entry q = some x) : Fate s s' q x := by
  obtain ⟨-, -, hvac, -, hold⟩ := rename_eq_some hren
  by_cases hbel : path <+: q
  · obtain ⟨rest, rfl⟩ := hbel
    obtain ⟨y, hy, hcnt⟩ := rename_entry_source hren hx
    have hy' : s'.files.entry (row.job.trashPath ++ rest) = some y := by
      rw [htr]
      exact hy
    exact .trashed (prefix_append path rest) hpath hclr hrow hy' hcnt
  · have hnew : ¬ sibling path (deleteTrashName k.id) <+: q := by
      intro hq
      rw [hvac.entry hq] at hx
      cases hx
    exact .stays ((hold q hnew).trans ((if_neg hbel).trans hx)) rfl

/-- A quarantine takes along what is below the trash of its job. -/
lemma fate_quarantines {trash : RelPath} (h : Quarantines s.files s'.files trash)
    (hx : s.files.entry q = some x) : Fate s s' q x := by
  obtain ⟨-, hsame⟩ | ⟨id, times, hren⟩ := h
  · exact .stays (hsame ▸ hx) rfl
  · obtain ⟨-, -, hvac, -, hold⟩ := rename_eq_some hren
    by_cases hbel : trash <+: q
    · obtain ⟨rest, rfl⟩ := hbel
      obtain ⟨y, hy, hcnt⟩ := rename_entry_source hren hx
      exact .quarantined ⟨trash.dropLast, id, rest, by simp [sibling]⟩ hy hcnt
    · have hnew : ¬ sibling trash (quarantineName id) <+: q := by
        intro hq
        rw [hvac.entry hq] at hx
        cases hx
      exact .stays ((hold q hnew).trans ((if_neg hbel).trans hx)) rfl

/-- A slice of a purge is recorded. -/
lemma fate_slice {below : RelPath} {revision : Option Revision}
    (hrow : s.db.purge k = some row) (hclm : row.job.state = .claimed) (hfls : s'.files =
      (s.files.remove (row.job.trashPath ++ below)).modify row.job.trashPath (.touch times))
    (hpur : (⟨k, revision, fun rest => if below <+: rest then
      s.files.entry (row.job.trashPath ++ rest) else none⟩ : Purged) ∈ s'.purged)
    (hx : s.files.entry q = some x) : Fate s s' q x := by
  by_cases hbel : row.job.trashPath ++ below <+: q
  · obtain ⟨rest, rfl⟩ := hbel
    have hx' : (if below <+: below ++ rest then
        s.files.entry (row.job.trashPath ++ (below ++ rest)) else none) = some x := by
      rw [if_pos (prefix_append _ _), ← append_assoc]
      exact hx
    exact .purged hrow hclm ((prefix_append _ below).trans (prefix_append _ rest)) hpur hx'
  · have hent : s'.files.entry q =
        if q = row.job.trashPath then some (x.touch times) else some x := by
      rw [hfls, modify_entry, remove_entry, if_neg hbel, hx]
      rfl
    split_ifs at hent
    · exact .stays hent rfl
    · exact .stays hent rfl

section

variable (h : Step server s e s')

include h

/-- Every step takes an entry one of these ways. -/
lemma Step.fate (hinv : Inv server s) (hx : s.files.entry q = some x) : Fate s s' q x := by
  cases h with
  | move hr hph htgt hren =>
    have hok := hinv.request _ _ hr
    have hold := hok.phase
    rw [hph] at hold
    obtain ⟨-, -, hclr, hjob, -⟩ := hold
    obtain ⟨row, hrow, -, -, htr⟩ := hinv.job_trash hjob
    exact fate_move hok.requestable hclr hren hrow htr hx
  | slice hw =>
    obtain ⟨row, hrow, hclm, hjob, -⟩ := hinv.work _ _ hw
    rw [State.sliced, ← hjob]
    exact fate_slice hrow hclm rfl mem_cons_self hx
  | quarantineWork hw hfls | quarantineTask htask hfls | quarantineEnd htask hfls =>
    exact fate_quarantines hfls hx
  | _ => exact .stays hx rfl

/-- A row keeps its path, or is removed when there is nothing below its trash. -/
lemma Step.row_fate (hinv : Inv server s)
    (hrow : s.db.purge k = some row) : s.files.Vacant row.job.trashPath ∨
      ∃ row', s'.db.purge k = some row' ∧ row'.job.trashPath = row.job.trashPath := by
  have hwrt : ∀ {db' : Database} {key row'}, Writes s.db db' key row' →
      (k = key → s.files.Vacant row.job.trashPath ∨
        ∃ q, row' = some q ∧ q.job.trashPath = row.job.trashPath) →
      s.files.Vacant row.job.trashPath ∨
        ∃ q, db'.purge k = some q ∧ q.job.trashPath = row.job.trashPath := by
    intro db' key row' hdb hkey
    by_cases hk : key = k
    · refine (hkey hk.symm).imp_right ?_
      rintro ⟨q, rfl, hq⟩
      exact ⟨q, by rw [hdb.purge, if_pos hk], hq⟩
    · exact .inr ⟨row, by rw [hdb.purge, if_neg hk, hrow], rfl⟩
  cases h with
  | quiet hdb | begin hfr hpath hdb | advance hr hdb | close hr hdb | work hw hdb
  | endTask htask hdb => exact .inr ⟨row, (hdb.purge k).trans hrow, rfl⟩
  | complete hr hph hprg hdec => exact .inr ⟨row, (hprg k).trans hrow, rfl⟩
  | prepare hr hph hfr hdb =>
    refine hwrt hdb ?_
    rintro rfl
    cases hfr.symm.trans hrow
  | ready hr hph hrow' hdb | claim hrow' hrdy hdb | deferWork hw hrow' hdb =>
    refine hwrt hdb ?_
    rintro rfl
    cases hrow.symm.trans hrow'
    exact .inr ⟨_, rfl, rfl⟩
  | remove hr hph hdb =>
    refine hwrt hdb ?_
    rintro rfl
    have hold := (hinv.request _ _ hr).phase
    rw [hph] at hold
    obtain ⟨-, hjob, hvac, -⟩ := hold
    obtain ⟨row', hrow', -, -, htr⟩ := hinv.job_trash hjob
    cases hrow.symm.trans hrow'
    exact .inl (htr ▸ hvac)
  | finishWork hw hph hdb =>
    refine hwrt hdb ?_
    rintro rfl
    obtain ⟨row', hrow', -, -, hvac⟩ := hinv.work _ _ hw
    cases hrow.symm.trans hrow'
    exact .inl (hvac hph)
  | releaseTask htask hclr hdb =>
    refine hwrt hdb ?_
    rintro rfl
    obtain ⟨row', hrow', -, -, -, hvac⟩ := hinv.task _ _ htask
    cases hrow.symm.trans hrow'
    exact .inl (hvac hclr)
  | restart => exact .inr (restart_row_exists server _ hrow)
  | _ => exact .inr ⟨row, hrow, rfl⟩

lemma Step.purged_subset : s.purged ⊆ s'.purged := by
  cases h with
  | slice => exact subset_cons_self _ _
  | _ => exact List.Subset.refl _

/-- Nothing of what is below the trash of a job that is prepared is purged: it stays there with the
job, or goes to the quarantine. -/
lemma Step.prepared_kept (hinv : Inv server s)
    (hrow : s.db.purge k = some row) (hprep : row.job.state = .prepared) {rest : RelPath}
    (hx : s.files.entry (row.job.trashPath ++ rest) = some x) :
    (∃ row' y, s'.db.purge k = some row' ∧ row'.job.trashPath = row.job.trashPath ∧
      s'.files.entry (row.job.trashPath ++ rest) = some y ∧ y.content = x.content) ∨
    ∃ q y, InQuarantine q ∧ s'.files.entry q = some y ∧ y.content = x.content := by
  cases h.fate hinv hx with
  | stays hy hcnt =>
    obtain hvac | ⟨row', hrow', hpath⟩ := h.row_fate hinv hrow
    · rw [hvac] at hx
      cases hx
    · exact .inl ⟨row', _, hrow', hpath, hy, hcnt⟩
  | trashed hq hpath hclr =>
    -- a target with the trash of a job below it is not clear
    rw [(hinv.row k row hrow).trash, trashOf_append] at hq
    refine absurd ?_ (hclr k row hrow)
    rw [(hinv.row k row hrow).trash]
    by_contra hnot
    refine not_lexicalOverlap_internal hpath (isInternalName_deleteTrashName k.id)
      (fun hpars => hnot (hpars.trans ?_)) (.inr hq)
    exact prefix_append _ _
  | quarantined hquar hy hcnt => exact .inr ⟨_, _, hquar, hy, hcnt⟩
  | @purged k' row' rest' p hrow' hclm hq hp hx' =>
    by_cases hk : k' = k
    · subst hk
      cases hrow.symm.trans hrow'
      cases hprep.symm.trans hclm
    · exact absurd hq (hinv.trash_disjoint hrow' hrow fun heq => hk (Option.some.inj heq))

end

end Fates

/-- The content is at its place, below the trash of a job, in the quarantine, or purged. -/
inductive Located (s : State) (home : RelPath) (content : ℕ) : Prop
  | home {x} (hx : s.files.entry home = some x) (hcontent : x.content = content)
  | trash {k row rest x} (hrow : s.db.purge k = some row)
      (hx : s.files.entry (row.job.trashPath ++ rest) = some x) (hcontent : x.content = content)
  | quarantine {path x} (hpath : InQuarantine path) (hx : s.files.entry path = some x)
      (hcontent : x.content = content)
  | purged {p rest x} (hp : p ∈ s.purged) (hx : p.subtree rest = some x)
      (hcontent : x.content = content)

/-- A step does not lose content. -/
lemma Located.step {content : ℕ} (h : Located s home content) (hinv : Inv server s)
    (hstep : Step server s e s') : Located s' home content := by
  have hfate : ∀ {q x}, s.files.entry q = some x → x.content = content →
      (∃ y, s'.files.entry q = some y ∧ y.content = content) ∨ Located s' home content := by
    intro q x hx hcnt
    cases hstep.fate hinv hx with
    | stays hy hsame => exact .inl ⟨_, hy, hsame.trans hcnt⟩
    | trashed hq hpath hclr hrow hy hsame => exact .inr (.trash hrow hy (hsame.trans hcnt))
    | quarantined hquar hy hsame =>
      exact .inr (.quarantine hquar hy (hsame.trans hcnt))
    | purged hrow hclm hq hp hx => exact .inr (.purged hp hx hcnt)
  cases h with
  | home hx hcnt =>
    obtain ⟨y, hy, hsame⟩ | hloc := hfate hx hcnt
    · exact .home hy hsame
    · exact hloc
  | trash hrow hx hcnt =>
    obtain ⟨y, hy, hsame⟩ | hloc := hfate hx hcnt
    · obtain hvac | ⟨row', hrow', hpath⟩ := hstep.row_fate hinv hrow
      · rw [hvac] at hx
        cases hx
      · rw [← hpath] at hy
        exact .trash hrow' hy hsame
    · exact hloc
  | quarantine hpath hx hcnt =>
    obtain ⟨y, hy, hsame⟩ | hloc := hfate hx hcnt
    · exact .quarantine hpath hy hsame
    · exact hloc
  | purged hp hx hcnt => exact .purged (hstep.purged_subset hp) hx hcnt

/-- The steps of the reconciler. -/
def Event.reconciles : Event → Prop
  | .reconcile _ | .quarantinePrepared .. | .releasePrepared .. => True
  | _ => False

namespace Run

variable (ρ : Run)

/-- What holds after `n` steps of a run. -/
structure Consistent (n : ℕ) : Prop where
  /-- What is destroyed was moved to the trash by the request of its job, which became ready with
  the revision of that move. -/
  destroyed : ∀ p ∈ (ρ.state n).purged, ∀ rest x, p.subtree rest = some x →
    ∃ m ∈ (ρ.state n).moves, m.key = p.key ∧ p.revision = some m.revision ∧
      (∃ y, m.subtree rest = some y ∧ y.content = x.content) ∧
      ρ.ReachedReady n m.key m.revision
  /-- The step after that destroys nothing under a job that is prepared. -/
  prepared_not_purged : ∀ k row, (ρ.state n).db.purge k = some row → row.job.state = .prepared →
    ∀ p ∈ (ρ.state (n + 1)).purged, p.key = k → p ∈ (ρ.state n).purged
  /-- It leaves what is in the trash of such a job there, with the job, or in the quarantine. -/
  prepared_kept : ∀ k row, (ρ.state n).db.purge k = some row → row.job.state = .prepared →
    ∀ rest x, (ρ.state n).files.entry (row.job.trashPath ++ rest) = some x →
      (∃ row' y, (ρ.state (n + 1)).db.purge k = some row' ∧ row'.job.trashPath = row.job.trashPath ∧
        (ρ.state (n + 1)).files.entry (row.job.trashPath ++ rest) = some y ∧
        y.content = x.content) ∨
      ∃ path y, InQuarantine path ∧ (ρ.state (n + 1)).files.entry path = some y ∧
        y.content = x.content
  /-- If it is a step of the reconciler, it touches no target. -/
  target_kept : (ρ.schedule n).reconciles → ∀ path, (∀ c ∈ path, isInternalName c = false) →
    (ρ.state (n + 1)).files.entry path = (ρ.state n).files.entry path
  /-- The job of an operation that is stored or reported as succeeded became ready. -/
  succeeded : ∀ t, (∃ k r, (ρ.state n).db.operation k = some r ∧ r.leaseToken = t ∧
      Decides r .succeeded) ∨
    (∃ r o, (ρ.state n).requests t = some r ∧ r.told = some (.outcome o) ∧ o.state = .succeeded) →
    ∃ m ∈ (ρ.state n).moves, m.request = t ∧ ρ.ReachedReady n m.key m.revision
  /-- The target of an operation that is stored or reported as failed, or reported as rejected, was
  not moved. -/
  failed : ∀ t, (∃ k r, (ρ.state n).db.operation k = some r ∧ r.leaseToken = t ∧
      Decides r .failed) ∨
    (∃ r o, (ρ.state n).requests t = some r ∧ r.told = some (.outcome o) ∧ o.state = .failed) ∨
    (∃ r, (ρ.state n).requests t = some r ∧ r.told = some .rejected) →
    ∀ m ∈ (ρ.state n).moves, m.request ≠ t
  /-- Content is at its place, in the trash of a job, in the quarantine or purged. -/
  conserved : ∀ home x, ρ.files.entry home = some x → Located (ρ.state n) home x.content

end Run

/-- A file in the root directory. -/
def sampleFiles (target : ExistingReplacementTarget) : Files where
  entry q := if q = [] then some ⟨0, target⟩ else if q = ["a"] then some ⟨1, target⟩ else none
  closed q c h := by
    have hq : q ≠ [] := by
      rintro rfl
      simp at h
    have hne : q ++ [c] ≠ ["a"] := by
      intro heq
      rw [append_eq_singleton_iff] at heq
      simp_all
    simp [hne]

def sampleEvents (t id : Uuid) (key : OperationKey) : List Event :=
  [.begin t 0 key 0 ["a"] 0, .acquire t, .inspect t false, .scan t false false, .dispatch t,
    .prepare t 1 id false, .markCommitStarted t 2 false, .move t {} none, .verify t false,
    .markReady t 3 false, .complete t 4 false, .claim 5 false, .openWork ⟨key.owner, id⟩ none,
    .purgeSlice ⟨key.owner, id⟩ [] {}, .completeJob ⟨key.owner, id⟩ 6 false]

def sampleRun : Run where
  server := ⟨⟨2, 2, 10, 2, 2, 10, 2, 2⟩, fun _ _ _ => 0, fun _ => 0⟩
  files := sampleFiles ⟨⟨1, 2⟩, .regularFile, 1, 0, 0, 0, 0, {}⟩
  schedule n := (sampleEvents 7 8 ⟨1, 2⟩).getD n (.restart 9)
  plain path x hx := by
    by_cases hroot : path = []
    · simp [hroot]
    · have hpath : path = ["a"] := by
        by_contra hne
        simp [sampleFiles, hroot, hne] at hx
      subst hpath
      decide

/-- A DELETE without failures reports success, and its file is purged. -/
example : ((sampleRun.state 15).requests 7).map Request.told = some (some (.outcome success)) ∧
    (sampleRun.state 15).files.entry ["a"] = none ∧
    ((sampleRun.state 15).purged.map Purged.key) = [⟨1, 8⟩] ∧
    (sampleRun.state 15).db.purge ⟨1, 8⟩ = none := by
  decide +kernel

end DufsRam.Delete
