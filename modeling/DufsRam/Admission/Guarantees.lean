import DufsRam.Admission.Invariants

/-!
# What admission guarantees

When a request changes the tree, no row of the state database relies on a path that it changes, or
on one above or below it; the job of a DELETE is its own exception. On a tree without links what is
found at the stages and the trash of other rows stays as it was.
-/

namespace DufsRam.Admission

open FileTree List State Request

/-! ### Reserved names -/

lemma deleteTrashName_ne_uploadStageDirectory (id : Uuid) :
    deleteTrashName id ≠ uploadStageDirectory := by
  intro h
  have hlen := congrArg (fun name : String => name.toList.length) h
  simp only [deleteTrashName, String.toList_append, length_append, String.toList_ofList,
    formatUuid, length_map, length_range] at hlen
  revert hlen
  decide

/-! ### Runs -/

/-- A run of the server, which starts with rows whose stages and trash are where they belong. -/
structure Run where
  server : Server
  db : Database
  tree : FileTree
  schedule : ℕ → Event
  shaped : Shaped server.digest db

namespace Run

variable (ρ : Run)

def state (n : ℕ) : State := (machine ρ.server ρ.db ρ.tree).run ρ.schedule n

lemma inv (n : ℕ) : Inv ρ.server (ρ.state n) := run_inv ρ.shaped ρ.tree ρ.schedule n

/-- The request commits its change of the tree, which ends in the given tree. -/
structure CommitsAt (n l : ℕ) (r : Request) (T : FileTree) : Prop where
  request : (ρ.state n).requests.lookup l = some r
  event : ∃ directory, ρ.schedule n = .commit l directory ∧
    (ρ.state n).commitTree r.task r.phase directory = some T

end Run

/-- The places that the commit of a request changes. -/
def Request.mutated (r : Request) : List RelPath :=
  match r.task, r.phase with
  | .delete path, .prepared key => [path, path.dropLast ++ [deleteTrashName key.id]]
  | task, _ => task.paths

/-- The purge job of the request itself. -/
def Request.ownJob (r : Request) : Option PurgeJobKey :=
  match r.phase with
  | .prepared key => some key
  | _ => none

/-- No path of an upload that owns a stage, no target of a prepared job and no trash overlaps the
path; the jobs of the request itself are not looked at. -/
structure Clear (db : Database) (own : Option PurgeJobKey) (p : RelPath) : Prop where
  upload : ∀ k r, db.upload k = some r → r.session.state.ownsStage = true →
    ¬ lexicalOverlap p r.session.targetPath ∧ ¬ lexicalOverlap p r.session.stagePath
  purge : ∀ k r, db.purge k = some r → own ≠ some k →
    (r.job.state = .prepared → ¬ lexicalOverlap p r.job.targetPath) ∧
      ¬ lexicalOverlap p r.job.trashPath

/-- The path is clear if no blocking path but those of the own job overlaps it. -/
lemma clear_of_statePaths {db : Database} {own : Option PurgeJobKey} {p : RelPath}
    (h : ∀ c b, (c, b) ∈ db.statePaths → lexicalOverlap p b.path →
      c.kind = 1 ∧ own = some ⟨c.owner, c.id⟩) : Clear db own p where
  upload k r hrow howns := by
    obtain ⟨-, rfl⟩ := upload_eq_some_iff.1 hrow
    constructor
    · intro hov
      have hmem := mem_statePaths.2 (.inl ⟨rfl, r, hrow,
        mem_uploadRow_statePaths.2 ⟨howns, .inl ⟨rfl, rfl⟩⟩⟩)
      cases (h _ _ hmem hov).1
    · intro hov
      have hmem := mem_statePaths.2 (.inl ⟨rfl, r, hrow,
        mem_uploadRow_statePaths.2 ⟨howns, .inr ⟨rfl, rfl⟩⟩⟩)
      cases (h _ _ hmem hov).1
  purge k r hrow hown := by
    obtain ⟨-, rfl⟩ := purge_eq_some_iff.1 hrow
    refine ⟨fun hprep hov => ?_, fun hov => ?_⟩
    · have hmem := mem_statePaths.2 (.inr ⟨rfl, r, hrow,
        mem_purgeRow_statePaths.2 (.inl ⟨hprep, rfl, rfl⟩)⟩)
      exact hown (h _ _ hmem hov).2
    · have hmem := mem_statePaths.2 (.inr ⟨rfl, r, hrow,
        mem_purgeRow_statePaths.2 (.inr ⟨rfl, rfl⟩)⟩)
      exact hown (h _ _ hmem hov).2

/-- The trash of a DELETE is as clear as its target: everything beside it with a reserved name is a
stage or belongs to another job. -/
lemma Clear.trash {server : Server} {s : State} (h : Inv server s) {path : RelPath}
    {key : PurgeJobKey} (hpath : path.Requestable) (hown : OwnJob s.db (.delete path) key)
    (hclr : Clear s.db (some key) path) :
    Clear s.db (some key) (path.dropLast ++ [deleteTrashName key.id]) where
  upload k r hrow howns := by
    obtain ⟨hrqb, hstg⟩ := h.shaped.upload k r hrow
    have hname := isInternalName_deleteTrashName key.id
    refine ⟨fun hov => ?_, fun hov => ?_⟩
    · exact (hclr.upload k r hrow howns).1 (lexicalOverlap_of_trash hrqb hname hov)
    · obtain ⟨name, hname'⟩ := uploadTempPath_eq_some hstg
      rw [hname'] at hov
      have heq : deleteTrashName key.id = uploadStageDirectory := by
        rcases hov with hov | hov
        · exact (eq_of_prefix_internal (not_internal_dropLast hrqb)
            (not_internal_dropLast hpath) isInternalName_uploadStageDirectory hname
            hov).2.symm
        · exact (eq_of_prefix_internal (not_internal_dropLast hpath)
            (not_internal_dropLast hrqb) hname isInternalName_uploadStageDirectory
            hov).2
      exact deleteTrashName_ne_uploadStageDirectory key.id heq
  purge k r hrow hne := by
    obtain ⟨hrqb, htr⟩ := h.shaped.purge k r hrow
    have hname := isInternalName_deleteTrashName key.id
    refine ⟨fun hprep hov => ?_, fun hov => ?_⟩
    · exact (hclr.purge k r hrow hne).1 hprep (lexicalOverlap_of_trash hrqb hname hov)
    · rw [trashPathForId_eq_some htr] at hov
      have heq : r.job.targetPath.dropLast = path.dropLast ∧
          deleteTrashName k.id = deleteTrashName key.id := by
        rcases hov with hov | hov
        · exact eq_of_prefix_internal (not_internal_dropLast hrqb)
            (not_internal_dropLast hpath) (isInternalName_deleteTrashName k.id) hname hov
        · obtain ⟨hpars, hnms⟩ := eq_of_prefix_internal (not_internal_dropLast hpath)
            (not_internal_dropLast hrqb) hname (isInternalName_deleteTrashName k.id) hov
          exact ⟨hpars.symm, hnms.symm⟩
      -- the trash paths are the same, so the rows are
      obtain ⟨path', row, htask, hrow', -, htgt⟩ := hown
      cases htask
      obtain ⟨-, htr'⟩ := h.shaped.purge key row hrow'
      have hsame : r.job.trashPath = row.job.trashPath := by
        rw [trashPathForId_eq_some htr, trashPathForId_eq_some htr', htgt, heq.1, heq.2]
      have hrows : r = row := Relational.Table.eq_of_unique (purge_eq_some_iff.1 hrow).1
        (purge_eq_some_iff.1 hrow').1 (u := row.job.trashPath) (congrArg some hsame) rfl
      apply hne
      rw [← (purge_eq_some_iff.1 hrow).2, ← (purge_eq_some_iff.1 hrow').2, hrows]

/-! ### Commits -/

variable {server : Server} {s s' : State} {T : FileTree} {r : Request}

/-- A commit changes the tree in the places of its paths. -/
lemma commitTree_differsAt {dir : FileIdentity} (h : s.commitTree r.task r.phase dir = some T) :
    s.tree.DiffersAt T r.mutated ∧ (s.tree.SymlinkFree → T.SymlinkFree) := by
  unfold commitTree at h
  unfold mutated
  split at h
  · rename_i path key htask hph
    obtain ⟨trashPath, htr, hren⟩ := Option.bind_eq_some_iff.1 h
    rw [trashPathForId_eq_some htr] at hren
    rw [htask, hph]
    exact renameAt_differsAt hren
  · rename_i source destination overwrite htask hph
    split_ifs at h
    rw [htask, hph]
    exact renameAt_differsAt h
  · rename_i path htask hph
    rw [htask, hph]
    exact makeDirectoryAt_differsAt h
  · cases h

/-- At a commit the paths of the request are clear. -/
lemma Inv.clear_of_commit (h : Inv server s) {l : ℕ} {dir : FileIdentity}
    (hr : s.requests.lookup l = some r) (hcmt : s.commitTree r.task r.phase dir = some T)
    {p : RelPath} (hp : p ∈ r.mutated) : Clear s.db r.ownJob p := by
  obtain ⟨-, hrqb, hph⟩ := h.request l r hr
  obtain ⟨task, phase⟩ := r
  -- without a job of its own the request is clear of all blocking paths
  have hadm : ∀ {paths}, task.scanRelation = some .symmetricConflict → task.paths = paths →
      PhaseInv s.db task .admitted → p ∈ paths → Clear s.db none p := by
    rintro paths hrel rfl hclr hp
    refine clear_of_statePaths fun c b hmem hov => absurd ?_ (hclr c b hmem)
    unfold Task.Threatens
    rw [hrel]
    exact ⟨p, hp, hov⟩
  unfold commitTree at hcmt
  split at hcmt
  · rename_i path key htask hprep
    cases htask
    cases hprep
    obtain ⟨hown, hclr⟩ := hph
    have htgt : Clear s.db (some key) path := by
      refine clear_of_statePaths fun c b hmem hov => ?_
      obtain ⟨hkind, hkey⟩ := hclr c b hmem ⟨path, by simp [Task.paths], hov⟩
      exact ⟨hkind, by rw [hkey]⟩
    rcases mem_pair.1 hp with rfl | rfl
    · exact htgt
    · exact htgt.trash h (hrqb path (by simp [Task.paths])) hown
  · rename_i source destination overwrite htask hph'
    cases htask
    cases hph'
    exact hadm rfl rfl hph hp
  · rename_i path htask hph'
    cases htask
    cases hph'
    exact hadm rfl rfl hph hp
  · cases hcmt

/-- No request makes a link. -/
lemma Step.symlinkFree {e : Event} (h : Step server s e s') (hfree : s.tree.SymlinkFree) :
    s'.tree.SymlinkFree := by
  cases h with
  | tree hchg => exact hchg.2 hfree
  | commit _ hcmt => exact (commitTree_differsAt hcmt).2 hfree
  | publish _ _ _ _ _ _ hren => exact (renameAt_differsAt hren).2 hfree
  | _ => exact hfree

namespace Run

variable (ρ : Run)

lemma symlinkFree (hfree : ρ.tree.SymlinkFree) (n : ℕ) : (ρ.state n).tree.SymlinkFree :=
  Transition.Machine.run_invariant (P := fun s : State => s.tree.SymlinkFree) hfree
    (fun _ _ _ h hstep => (step_cases hstep).symlinkFree h) n

/-- The tree after a commit. -/
lemma CommitsAt.tree_succ {n l : ℕ} (h : ρ.CommitsAt n l r T) : (ρ.state (n + 1)).tree = T := by
  obtain ⟨hr, directory, hev, hcmt⟩ := h
  have hstep : (machine ρ.server ρ.db ρ.tree).step (ρ.state n) (ρ.schedule n) =
      some ({ ρ.state n with tree := T }.setPhase l r .committed) := by
    rw [hev]
    change (ρ.state n).commit l directory = _
    rw [commit, onRequest, hr, Option.bind_some, hcmt]
    rfl
  have hsucc := Transition.Machine.run_succ_of_step hstep
  change ((machine ρ.server ρ.db ρ.tree).run ρ.schedule (n + 1)).tree = T
  rw [hsucc]
  rfl

/-- When a DELETE, a relocation or the creation of a directory commits, every path it changes is
clear of the rows of others. If the tree had no links, what is found at their stages and at their
trash is the same after the commit. -/
theorem commit_clear_of_rows {n l : ℕ} {r : Request} {T : FileTree} (h : ρ.CommitsAt n l r T) :
    (∀ p ∈ r.mutated, Clear (ρ.state n).db r.ownJob p) ∧ (ρ.tree.SymlinkFree →
        (∀ k row, (ρ.state n).db.upload k = some row → row.session.state.ownsStage = true →
          (ρ.state (n + 1)).tree.lookup row.session.stagePath =
            (ρ.state n).tree.lookup row.session.stagePath) ∧
        ∀ k row, (ρ.state n).db.purge k = some row → r.ownJob ≠ some k →
          (ρ.state (n + 1)).tree.lookup row.job.trashPath =
            (ρ.state n).tree.lookup row.job.trashPath) := by
  obtain ⟨directory, -, hcommit⟩ := h.event
  have hclear : ∀ p ∈ r.mutated, Clear (ρ.state n).db r.ownJob p := fun p hp =>
    (ρ.inv n).clear_of_commit h.request hcommit hp
  obtain ⟨hdiffers, hkept⟩ := commitTree_differsAt hcommit
  refine ⟨hclear, fun hfree => ?_⟩
  have hfree' := ρ.symlinkFree hfree n
  rw [h.tree_succ]
  constructor
  · intro k row hrow howns
    exact hdiffers.lookup_eq hfree' (hkept hfree') fun p hp hbelow =>
      ((hclear p hp).upload k row hrow howns).2 (.inr hbelow)
  · intro k row hrow hown
    exact hdiffers.lookup_eq hfree' (hkept hfree') fun p hp hbelow =>
      ((hclear p hp).purge k row hrow hown).2 (.inr hbelow)

end Run

/-! ### A sample run -/

/-- A root without entries. -/
def emptyTree : FileTree where
  root := ⟨1, 1⟩
  entry := fun _ _ => none
  parent := id
  known := [⟨1, 1⟩]
  parent_entry := by simp
  root_entry := by simp
  unique_name := by simp
  root_known := by simp
  entry_known := by simp

/-- The root with a file. -/
def sampleTree : FileTree := emptyTree.put ⟨1, 1⟩ "a" (some (.file .regularFile))
  fun _ h => by cases h

/-- The steps by which the waiter `i` takes a lease on one path. -/
def leaseSteps (i : ℕ) (path : RelPath) : List Event :=
  [.coordinate (.register [path]), .coordinate (.insert i), .coordinate (.observe i),
    .coordinate (.loadEpoch i), .coordinate (.markResolving i), .coordinate (.startResolve i),
    .resolve i fun _ => none, .coordinate (.conclude i), .coordinate (.tryAcquire i)]

def sampleServer : Server := ⟨⟨8, 4, 60000, 60000, 8, 4, 8, 4⟩, fun _ => 0⟩

/-- A session of forty mebibytes. -/
def sampleSession (path : RelPath) (key : UploadSessionKey) (durableOffset : ℕ)
    (state : StoredUploadState) : StoredUploadSession where
  key := key
  targetPath := path
  stagePath := (uploadTempPath sampleServer.digest path key.id).getD []
  uploadLength := 41943040
  durableOffset := durableOffset
  state := state
  stageIdentity := some ⟨1, 10⟩
  targetRevision := none

/-- An upload stores its session, and a DELETE of another file gets as far as its commit. -/
def sampleEvents : List Event :=
  leaseSteps 1 ["b"] ++
  [.begin 1 (.upload ["b"] ⟨7, 1⟩ false), .readPage 1, .comparePage 1 fun _ => none,
    .makeStageDirectory 1 ⟨1, 2⟩, .createStage 1,
    .save 1 0 (sampleSession ["b"] ⟨7, 1⟩ 20971520 .running) 60000] ++
  leaseSteps 2 ["a"] ++
  [.begin 2 (.delete ["a"]), .readPage 2, .comparePage 2 fun _ => none,
    .prepare 2 0 ⟨7, 2⟩ ⟨1, 3⟩ false, .commit 2 ⟨0, 0⟩]

lemma sampleServer_shaped : Shaped sampleServer.digest .empty :=
  shaped_empty _

def sampleRun : Run where
  server := sampleServer
  db := .empty
  tree := sampleTree
  schedule := fun n => sampleEvents.getD n (.finish 0)
  shaped := sampleServer_shaped

lemma sampleTree_symlinkFree : sampleTree.SymlinkFree := by
  intro d n target h
  change (if d = ⟨1, 1⟩ ∧ n = "a" then some (Entry.file .regularFile) else none) = _ at h
  split_ifs at h
  cases h

lemma sampleRun_commitsAt : ∃ T, sampleRun.CommitsAt 28 2 ⟨.delete ["a"], .prepared ⟨7, 2⟩⟩ T := by
  have hcmt : ((sampleRun.state 28).commitTree (.delete ["a"]) (.prepared ⟨7, 2⟩)
      ⟨0, 0⟩).isSome = true := by decide +kernel
  obtain ⟨T, hT⟩ := Option.isSome_iff_exists.1 hcmt
  exact ⟨T, by decide +kernel, ⟨0, 0⟩, rfl, hT⟩

theorem commit_clear_of_rows_sample :
    ∃ T row, sampleRun.CommitsAt 28 2 ⟨.delete ["a"], .prepared ⟨7, 2⟩⟩ T ∧
      (sampleRun.state 28).db.upload ⟨7, 1⟩ = some row ∧ row.session.state.ownsStage = true ∧
      ¬ lexicalOverlap ["a"] row.session.stagePath ∧
      (sampleRun.state (28 + 1)).tree.lookup row.session.stagePath =
        (sampleRun.state 28).tree.lookup row.session.stagePath := by
  obtain ⟨T, hcommits⟩ := sampleRun_commitsAt
  obtain ⟨hclear, hkept⟩ := sampleRun.commit_clear_of_rows hcommits
  have hrow : (sampleRun.state 28).db.upload ⟨7, 1⟩ =
      some ⟨sampleSession ["b"] ⟨7, 1⟩ 20971520 .running, 0, 60000⟩ := by decide +kernel
  exact ⟨T, _, hcommits, hrow, rfl, ((hclear ["a"] (mem_cons_self ..)).upload _ _ hrow rfl).2,
    (hkept sampleTree_symlinkFree).1 _ _ hrow rfl⟩

/-- The job that a DELETE has stored for itself names the path it is about to move. -/
theorem own_job_names_committed_path : sampleRun.tree.SymlinkFree ∧
    ∃ T row, sampleRun.CommitsAt 28 2 ⟨.delete ["a"], .prepared ⟨7, 2⟩⟩ T ∧
      (sampleRun.state 28).db.purge ⟨7, 2⟩ = some row ∧ row.job.state = .prepared ∧
      row.job.targetPath ∈ mutated ⟨.delete ["a"], .prepared ⟨7, 2⟩⟩ := by
  obtain ⟨T, hcommits⟩ := sampleRun_commitsAt
  refine ⟨sampleTree_symlinkFree, T, .prepare 0 (purgeJob ["a"] ⟨7, 2⟩ ⟨1, 3⟩ false
    ((trashPathForId ["a"] 2).getD [])), hcommits, by decide +kernel, rfl, mem_cons_self ..⟩

/-- Requests that are under way at the same time stay apart: the path of one is not at, above or
below a path of the other, its stages or its trash. -/
theorem Run.requests_apart (ρ : Run) {n l l' : ℕ} {r r' : Request} (hne : l ≠ l')
    (hr : (ρ.state n).requests.lookup l = some r) (hr' : (ρ.state n).requests.lookup l' = some r') :
    ∀ p ∈ r.task.paths, ∀ p' ∈ r'.task.paths, ¬ lexicalOverlap p p' ∧
      ∀ id s, uploadTempPath ρ.server.digest p' id = some s ∨ trashPathForId p' id = some s →
        ¬ lexicalOverlap p s := by
  have hinv := ρ.inv n
  intro p hp p' hp'
  have hov := hinv.not_overlap hne hr hr' hp hp'
  have hapart {name rest} (hname : isInternalName name = true) :
      ¬ lexicalOverlap p (p'.dropLast ++ name :: rest) :=
    not_lexicalOverlap_internal ((hinv.request l r hr).requestable p hp) hname
      (not_prefix_dropLast_of_not_overlap hov)
  refine ⟨hov, ?_⟩
  rintro id s (hs | hs)
  · obtain ⟨name, rfl⟩ := uploadTempPath_eq_some hs
    exact hapart isInternalName_uploadStageDirectory
  · rw [trashPathForId_eq_some hs]
    exact hapart (isInternalName_deleteTrashName id)

theorem requests_apart_sample : ¬ lexicalOverlap ["b"] [deleteTrashName 2] := by
  have hr : (sampleRun.state 28).requests.lookup 1 =
      some ⟨.upload ["b"] ⟨7, 1⟩ false, .admitted⟩ := by decide +kernel
  have hr' : (sampleRun.state 28).requests.lookup 2 =
      some ⟨.delete ["a"], .prepared ⟨7, 2⟩⟩ := by decide +kernel
  exact (sampleRun.requests_apart (by decide) hr hr' ["b"] (by decide) ["a"] (by decide)).2 2 _
    (.inr rfl)

end DufsRam.Admission
