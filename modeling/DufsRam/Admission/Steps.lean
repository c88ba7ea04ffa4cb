import DufsRam.Admission.Basic
import DufsRam.PathCoordinator.Steps
import DufsRam.StateStore.PurgeStep

/-!
# The steps of the requests

`Step` lists everything a step can do, with what it finds when it does it.
-/

namespace DufsRam.Admission

open Option StoreEvent State

/-- The tree changes in the place of a path, on behalf of a request. -/
def TreeChange (T T' : FileTree) (path : RelPath) : Prop :=
  T.DiffersAt T' [path] ∧ (T.SymlinkFree → T'.SymlinkFree)

/-- The enabled steps. -/
inductive Step (server : Server) (s : State) : Event → State → Prop
  | coordinate {e action coordinator}
      (h : PathCoordinator.Step s.tree.root s.coordinator action coordinator)
      (hkept : ∀ l, action = .dropRemove l → l ∉ s.requests) :
      Step server s e { s with coordinator }
  | begin {l task keys} (hlease : s.coordinator.leases.lookup l = some keys)
      (hkeys : keys.map LeaseKey.lexical = PathCoordinator.sortPaths task.paths)
      (hpaths : ∀ p ∈ task.paths, p.Requestable) (hfresh : l ∉ s.requests) :
      Step server s (.begin l task)
        { s with requests := s.requests.insert l ⟨task, task.initialPhase⟩ }
  | readPage {l r scanner after page} (hr : s.requests.lookup l = some r)
      (hphase : r.phase = .scanning scanner after)
      (hpage : stateBlockingPaths after statePathAdmissionPageSize s.db = .ok page) :
      Step server s (.readPage l) (s.setPhase l r (.comparing scanner page))
  | close {e l r} (hr : s.requests.lookup l = some r) : Step server s e (s.close l)
  | scanned {l faults r scanner page} (hr : s.requests.lookup l = some r)
      (hphase : r.phase = .comparing scanner page)
      (hclear : (scanner.pageConflicts (resolveIn s.tree faults) page.paths).1 = false)
      (hnext : page.next = none) :
      Step server s (.comparePage l faults) (s.setPhase l r .admitted)
  | nextPage {l faults r scanner page c} (hr : s.requests.lookup l = some r)
      (hphase : r.phase = .comparing scanner page)
      (hclear : (scanner.pageConflicts (resolveIn s.tree faults) page.paths).1 = false)
      (hnext : page.next = some c) :
      Step server s (.comparePage l faults) (s.setPhase l r (.scanning
        (scanner.pageConflicts (resolveIn s.tree faults) page.paths).2 (some c)))
  | tree {e path T'} (h : TreeChange s.tree T' path) : Step server s e { s with tree := T' }
  | prepare {l now identity isDirectory r job} (hr : s.requests.lookup l = some r)
      (htask : r.task = .delete job.targetPath) (hphase : r.phase = .admitted)
      (htrash : trashPathForId job.targetPath job.key.id = some job.trashPath)
      (hinserted : (exec server.limits ⟨now, .purge (.prepare job)⟩ s.db).1 =
        .prepared .inserted) :
      Step server s (.prepare l now job.key identity isDirectory)
        ({ s with db := (exec server.limits ⟨now, .purge (.prepare job)⟩ s.db).2 }.setPhase l r
          (.prepared job.key))
  | commit {l directory r T'} (hr : s.requests.lookup l = some r)
      (hcommit : s.commitTree r.task r.phase directory = some T') :
      Step server s (.commit l directory) ({ s with tree := T' }.setPhase l r .committed)
  | save {l now session ttlMs r path key} (hr : s.requests.lookup l = some r)
      (huploading : State.uploading r = some (path, key)) (hkey : session.key = key)
      (htarget : session.targetPath = path)
      (hstage : uploadTempPath server.digest path key.id = some session.stagePath) :
      Step server s (.save l now session ttlMs)
        { s with db := (StoreEvent.exec server.limits ⟨now, .upload (.save session ttlMs)⟩ s.db).2 }
  | publish {l r path key resumed stagePath T'} (hr : s.requests.lookup l = some r)
      (htask : r.task = .upload path key resumed) (hphase : r.phase = .admitted)
      (hstage : uploadTempPath server.digest path key.id = some stagePath)
      (hfile : s.tree.lookup stagePath = some (.file .regularFile))
      (hreplaceable : State.replaceableEntry (s.tree.lookup path) = true)
      (hrename : s.tree.renameAt stagePath path true = some T') :
      Step server s (.publish l) ({ s with tree := T' }.setPhase l r .committed)
  | store {e} (hallowed : s.allowed e.command) :
      Step server s (.store e) { s with db := (e.exec server.limits s.db).2 }
  /-- Nothing changes. -/
  | stutter {e} : Step server s e s

variable {faults : Faults} {dir : FileIdentity} {now : TimeMs}

section Inversion

variable {server : Server} {s s' : State} {l : ℕ}

lemma onRequest_eq_some {f : Request → Option State} (h : s.onRequest l f = some s') :
    ∃ r, s.requests.lookup l = some r ∧ f r = some s' :=
  bind_eq_some_iff.1 h

lemma coordinate_cases {action : PathCoordinator.Action}
    (h : s.coordinate action = some s') : Step server s (.coordinate action) s' := by
  have hstep : ∀ {s'}, (PathCoordinator.step s.tree.root s.coordinator action).map
      (fun coordinator => { s with coordinator }) = some s' →
      (∀ l, action = .dropRemove l → l ∉ s.requests) →
      Step server s (.coordinate action) s' := by
    intro s' hmap hkept
    obtain ⟨coordinator, hcoor, rfl⟩ := map_eq_some_iff.1 hmap
    exact .coordinate (PathCoordinator.step_cases hcoor) hkept
  unfold coordinate at h
  split at h
  · cases h
  · rename_i lease
    split_ifs at h with hfree
    refine hstep h ?_
    rintro l ⟨⟩
    exact hfree
  · rename_i hdrop
    exact hstep h fun l hl => absurd hl (hdrop l)

lemma resolve_cases {i : ℕ} (h : s.resolve i faults = some s') :
    Step server s (.resolve i faults) s' := by
  obtain ⟨path, -, hfin⟩ := bind_eq_some_iff.1 h
  obtain ⟨coordinator, hcoor, rfl⟩ := map_eq_some_iff.1 hfin
  have hstep : PathCoordinator.step s.tree.root s.coordinator
      (.finishResolve i (resolveIn s.tree faults path)) = some coordinator := hcoor
  exact .coordinate (PathCoordinator.step_cases hstep) (by simp)

lemma begin_cases {task : Task} (h : s.begin l task = some s') :
    Step server s (.begin l task) s' := by
  unfold begin at h
  split at h
  · cases h
  · split_ifs at h with hgrd
    cases h
    exact .begin ‹_› hgrd.1 hgrd.2.1 hgrd.2.2

lemma readPage_cases (h : s.readPage l = some s') : Step server s (.readPage l) s' := by
  obtain ⟨r, hr, h⟩ := onRequest_eq_some h
  split at h
  · split at h
    · cases h
      exact .readPage hr ‹_› ‹_›
    · cases h
      exact .close hr
  · cases h

lemma comparePage_cases (h : s.comparePage l faults = some s') :
    Step server s (.comparePage l faults) s' := by
  obtain ⟨r, hr, h⟩ := onRequest_eq_some h
  split at h
  · rename_i scanner page hph
    split at h
    · cases h
      exact .close hr
    · rename_i scanner' hclr hnext
      cases h
      exact .scanned hr hph (by rw [hclr]) hnext
    · rename_i scanner' c hclr hnext
      cases h
      have hscan : scanner' =
          (scanner.pageConflicts (resolveIn s.tree faults) page.paths).2 := by rw [hclr]
      rw [hscan]
      exact .nextPage hr hph (by rw [hclr]) hnext
  · cases h

lemma makeAncestor_cases {path : RelPath} {f : FileIdentity}
    (h : s.makeAncestor l path f = some s') : Step server s (.makeAncestor l path f) s' := by
  obtain ⟨r, -, h⟩ := onRequest_eq_some h
  have hmade : ∀ {s'}, (if ∃ p ∈ r.task.paths, strictlyBelow path p then
      (s.tree.makeDirectoryAt path f).map fun tree => { s with tree } else none) = some s' →
      Step server s (.makeAncestor l path f) s' := by
    intro s' h
    split_ifs at h
    obtain ⟨T', hT', rfl⟩ := map_eq_some_iff.1 h
    exact .tree (FileTree.makeDirectoryAt_differsAt hT')
  split at h
  · exact hmade h
  · exact hmade h
  · cases h

/-- A job that is not inserted leaves the database as it was. -/
lemma prepare_of_not_inserted {lim : Limits} {job : StoredPurgeJob}
    {db : Database} (h : (exec lim ⟨now, .purge (.prepare job)⟩ db).1 ≠
      .prepared .inserted) : (exec lim ⟨now, .purge (.prepare job)⟩ db).2 = db := by
  simp only [exec, PurgeCommand.exec] at h ⊢
  cases hprp : preparePurgeJob lim now job db with
  | error message => rfl
  | ok result =>
    obtain ⟨reply, db'⟩ := result
    rw [hprp] at h
    obtain ⟨-, hdb⟩ | ⟨hinsd, -⟩ := preparePurgeJob_cases hprp
    · exact hdb
    · exact absurd (by rw [hinsd]; rfl) h

lemma prepare_cases {key : PurgeJobKey} {identity : StoredFileIdentity}
    {isDirectory : Bool} (h : s.prepare server l now key identity isDirectory = some s') :
    Step server s (.prepare l now key identity isDirectory) s' := by
  obtain ⟨r, hr, h⟩ := onRequest_eq_some h
  split at h
  · rename_i path htask hph
    obtain ⟨trashPath, htr, h⟩ := map_eq_some_iff.1 h
    have hstep := @Step.prepare server s l now identity isDirectory r
      (purgeJob path key identity isDirectory trashPath) hr htask hph htr
    have hnot := @prepare_of_not_inserted now server.limits
      (purgeJob path key identity isDirectory trashPath) s.db
    split at h
    · rename_i db hexec
      rw [hexec] at hstep
      exact h ▸ hstep rfl
    · rename_i reply db hoth hexec
      rw [hexec] at hnot
      obtain rfl : db = s.db := hnot hoth
      exact h ▸ .stutter
  · cases h

lemma commit_cases (h : s.commit l dir = some s') : Step server s (.commit l dir) s' := by
  obtain ⟨r, hr, h⟩ := onRequest_eq_some h
  obtain ⟨T', hT', rfl⟩ := map_eq_some_iff.1 h
  exact .commit hr hT'

lemma makeStageDirectory_cases (h : s.makeStageDirectory l dir = some s') :
    Step server s (.makeStageDirectory l dir) s' := by
  obtain ⟨r, -, h⟩ := onRequest_eq_some h
  obtain ⟨u, -, h⟩ := bind_eq_some_iff.1 h
  obtain ⟨T', hT', rfl⟩ := map_eq_some_iff.1 h
  exact .tree (FileTree.makeDirectoryAt_differsAt hT')

lemma createStage_cases (h : s.createStage server l = some s') :
    Step server s (.createStage l) s' := by
  obtain ⟨r, -, h⟩ := onRequest_eq_some h
  obtain ⟨u, -, h⟩ := bind_eq_some_iff.1 h
  obtain ⟨stagePath, -, h⟩ := bind_eq_some_iff.1 h
  obtain ⟨T', hT', rfl⟩ := map_eq_some_iff.1 h
  exact .tree (FileTree.createFileAt_differsAt hT')

lemma save_cases {session : StoredUploadSession} {ttlMs : TimeMs}
    (h : s.save server l now session ttlMs = some s') :
    Step server s (.save l now session ttlMs) s' := by
  obtain ⟨r, hr, h⟩ := onRequest_eq_some h
  obtain ⟨⟨path, key⟩, hupl, h⟩ := bind_eq_some_iff.1 h
  split_ifs at h with hgrd
  cases h
  exact .save hr hupl hgrd.1 hgrd.2.1 hgrd.2.2

lemma publish_cases (h : s.publish server l = some s') : Step server s (.publish l) s' := by
  obtain ⟨r, hr, h⟩ := onRequest_eq_some h
  split at h
  · rename_i path key resumed htask hph
    obtain ⟨stagePath, hstg, h⟩ := bind_eq_some_iff.1 h
    split_ifs at h with hgrd
    obtain ⟨T', hT', rfl⟩ := map_eq_some_iff.1 h
    exact .publish hr htask hph hstg hgrd.2.1 hgrd.2.2 hT'
  · cases h

/-- Every enabled step is listed. -/
theorem step_cases {e : Event} (h : step server s e = some s') : Step server s e s' := by
  cases e with
  | coordinate action => exact coordinate_cases h
  | resolve i faults => exact resolve_cases h
  | begin l task => exact begin_cases h
  | readPage l => exact readPage_cases h
  | comparePage l faults => exact comparePage_cases h
  | makeAncestor l path f => exact makeAncestor_cases h
  | prepare l now key identity isDirectory => exact prepare_cases h
  | commit l f => exact commit_cases h
  | makeStageDirectory l f => exact makeStageDirectory_cases h
  | createStage l => exact createStage_cases h
  | save l now session ttlMs => exact save_cases h
  | publish l => exact publish_cases h
  | finish l =>
    obtain ⟨r, hr, h⟩ := onRequest_eq_some h
    cases h
    exact .close hr
  | store e =>
    simp only [step, store] at h
    split_ifs at h with halw
    cases h
    exact .store halw

end Inversion

end DufsRam.Admission
