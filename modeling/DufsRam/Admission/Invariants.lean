import DufsRam.Admission.Steps
import DufsRam.PathCoordinator.Guarantees
import DufsRam.StateStore.BlockingPaths

/-!
# What a scan has established

A scan is no snapshot: rows come and go between its pages. While a request holds its lease no other
request can bring a row whose paths stand in its way, so that every such row was there when the
request began, and is found on a page or comes after the cursor.
-/

namespace DufsRam.Admission

open StoreEvent PathCoordinator StatePathScanner List

/-! ### Paths in the way of a request -/

/-- The relation a request scans for, if it makes a scan. -/
def Task.scanRelation : Task → Option StatePathScanRelation
  | .delete _ | .relocate .. | .mkdir _ => some .symmetricConflict
  | .upload _ _ false => some .strictDescendant
  | .upload _ _ true => none

/-- The blocking path is in the way of the task. For an upload only stages and trash count: the
target of a row lies below a path only if its stage or trash does. -/
def Task.Threatens (task : Task) (c : StatePathCursor) (path : RelPath) : Prop :=
  match task.scanRelation with
  | none => False
  | some .symmetricConflict => ∃ p ∈ task.paths, lexicalOverlap p path
  | some .strictDescendant => c.slot = 1 ∧ ∃ p ∈ task.paths, strictlyBelow p path

lemma Task.initialPhase_eq (task : Task) :
    task.initialPhase = match task.scanRelation with
      | none => .admitted
      | some relation => .scanning ⟨task.paths, none, relation⟩ none := by
  cases task with
  | upload path key resumed => cases resumed <;> rfl
  | _ => rfl

variable {task : Task} {c : StatePathCursor} {path p : RelPath} {db : Database} {phase : Phase}
  {page : StatePathPage} {scanner : StatePathScanner} {b : StateBlockingPath} {l : ℕ} {r : Request}
  {e : StoreEvent} {after : Option StatePathCursor} {resolve : RelPath → Option ResolvedPathKey}
  {server : Server} {s s' : State} {limits : Limits} {action : PathCoordinator.Action}

lemma Task.Threatens.overlap (h : task.Threatens c path) :
    ∃ p ∈ task.paths, lexicalOverlap p path := by
  unfold Task.Threatens at h
  split at h
  · cases h
  · exact h
  · obtain ⟨-, p, hp, hbel⟩ := h
    exact ⟨p, hp, .inr hbel.2⟩

/-- A reserved name next to a path is in the way only if something above the path is. -/
lemma Task.not_threatens_internal {t rest : RelPath} {name : String}
    (hrqb : ∀ p ∈ task.paths, p.Requestable) (hname : isInternalName name = true)
    (hclr : ∀ p ∈ task.paths, ¬ p <+: t.dropLast) :
    ¬ task.Threatens c (t.dropLast ++ name :: rest) := by
  intro hthr
  obtain ⟨p, hp, hov⟩ := hthr.overlap
  exact not_lexicalOverlap_internal (hrqb p hp) hname (hclr p hp) hov

/-! ### The phases of a request -/

/-- The scanner was made for the task. -/
structure ScannerFor (task : Task) (scanner : StatePathScanner) : Prop where
  wf : scanner.Wf
  sources : scanner.sources = task.paths
  relation : task.scanRelation = some scanner.relation

/-- The job under which a DELETE moves its target. -/
def OwnJob (db : Database) (task : Task) (key : PurgeJobKey) : Prop :=
  ∃ path row, task = .delete path ∧ db.purge key = some row ∧ row.job.state = .prepared ∧
    row.job.targetPath = path

/-- What a request knows of the blocking paths in its way. -/
def PhaseInv (db : Database) (task : Task) : Phase → Prop
  | .scanning scanner after => ScannerFor task scanner ∧
    ∀ c b, (c, b) ∈ db.statePaths → task.Threatens c b.path → Keyset.After after c
  | .comparing scanner page => ScannerFor task scanner ∧
    ∀ c b, (c, b) ∈ db.statePaths → task.Threatens c b.path →
      b ∈ page.paths ∨ ∃ next, page.next = some next ∧ next < c
  | .admitted => ∀ c b, (c, b) ∈ db.statePaths → ¬ task.Threatens c b.path
  | .prepared key => OwnJob db task key ∧
    ∀ c b, (c, b) ∈ db.statePaths → task.Threatens c b.path →
      c.kind = 1 ∧ (⟨c.owner, c.id⟩ : PurgeJobKey) = key
  | .committed => True

/-- A change of the database that brings nothing in the way of the request. -/
lemma PhaseInv.mono {db' : Database} (h : PhaseInv db task phase)
    (hnew : ∀ c b, (c, b) ∈ db'.statePaths → task.Threatens c b.path → (c, b) ∈ db.statePaths)
    (hown : ∀ key, phase = .prepared key → OwnJob db task key → OwnJob db' task key) :
    PhaseInv db' task phase := by
  cases phase with
  | scanning | comparing => exact ⟨h.1, fun c b hmem hthr => h.2 c b (hnew c b hmem hthr) hthr⟩
  | admitted => exact fun c b hmem hthr => h c b (hnew c b hmem hthr) hthr
  | prepared key =>
    exact ⟨hown key rfl h.1, fun c b hmem hthr => h.2 c b (hnew c b hmem hthr) hthr⟩
  | committed => trivial

lemma phaseInv_initial (db : Database) (task : Task) : PhaseInv db task task.initialPhase := by
  rw [Task.initialPhase_eq]
  cases hrel : task.scanRelation with
  | none =>
    intro c b _ hthr
    simp [Task.Threatens, hrel] at hthr
  | some relation => exact ⟨⟨nofun, rfl, hrel⟩, fun c b _ _ => Keyset.after_none c⟩

/-! ### Reading and comparing a page -/

lemma PhaseInv.readPage (h : PhaseInv db task (.scanning scanner after))
    (hpage : stateBlockingPaths after statePathAdmissionPageSize db = .ok page) :
    PhaseInv db task (.comparing scanner page) := by
  obtain ⟨⟨⟩, -, hpage⟩ := Result.bind_eq_ok_iff.1 hpage
  cases hpage
  refine ⟨h.1, fun c b hmem hthr => ?_⟩
  have hlim : 0 < statePathAdmissionPageSize := by decide
  rcases Keyset.mem_page_or_after_next hlim (nodup_statePaths db) hmem
    (h.2 c b hmem hthr) with hpage | hafter
  · exact .inl (mem_map.2 ⟨(c, b), hpage, rfl⟩)
  · exact .inr hafter

lemma allowsExactReplacement_of_slot {c : StatePathCursor}
    (h : (c, b) ∈ db.statePaths) (hslot : c.slot = 1) : b.allowsExactReplacement = false := by
  rcases mem_statePaths.1 h with ⟨-, r, -, hmem⟩ | ⟨-, r, -, hmem⟩
  · obtain ⟨-, ⟨rfl, -⟩ | ⟨-, rfl⟩⟩ := mem_uploadRow_statePaths.1 hmem
    · cases hslot
    · rfl
  · obtain ⟨-, -, rfl⟩ | ⟨-, rfl⟩ := mem_purgeRow_statePaths.1 hmem <;> rfl

/-- A page without conflicts holds nothing in the way of the request. -/
lemma not_threatens_of_page (hscan : ScannerFor task scanner)
    (hclr : (scanner.pageConflicts resolve page.paths).1 = false) (hmem : (c, b) ∈ db.statePaths)
    (hpage : b ∈ page.paths) : ¬ task.Threatens c b.path := by
  intro hthr
  unfold Task.Threatens at hthr
  rw [hscan.relation] at hthr
  cases hrel : scanner.relation with
  | symmetricConflict =>
    rw [hrel] at hthr
    obtain ⟨p, hp, hov⟩ := hthr
    rw [← hscan.sources] at hp
    exact not_lexicalOverlap_of_page hscan.wf hrel hclr hp hpage hov
  | strictDescendant =>
    rw [hrel] at hthr
    obtain ⟨hslot, p, hp, hbel⟩ := hthr
    have hsgl : task.paths = [p] := by
      have hupl := hscan.relation
      rw [hrel] at hupl
      cases task with
      | upload path key resumed =>
        rw [Task.paths, mem_singleton] at hp
        rw [Task.paths, hp]
      | _ => cases hupl
    exact not_strictlyBelow_of_page hscan.wf hrel hclr
      (hscan.sources.trans hsgl) hpage (allowsExactReplacement_of_slot hmem hslot) hbel

/-! ### The invariant -/

/-- Stages and trash are next to the paths of requests they belong to. -/
structure Shaped (digest : String → BitVec 256) (db : Database) : Prop where
  upload : ∀ k r, db.upload k = some r → r.session.targetPath.Requestable ∧
    uploadTempPath digest r.session.targetPath k.id = some r.session.stagePath
  purge : ∀ k r, db.purge k = some r → r.job.targetPath.Requestable ∧
    trashPathForId r.job.targetPath k.id = some r.job.trashPath

lemma shaped_empty (digest : String → BitVec 256) : Shaped digest .empty :=
  ⟨fun _ _ h => (by cases h), fun _ _ h => (by cases h)⟩

/-- A request under way holds its lease and knows what its phase says. -/
structure RequestInv (s : State) (l : ℕ) (r : Request) : Prop where
  lease : ∃ keys, s.coordinator.leases.lookup l = some keys ∧
    keys.map LeaseKey.lexical = PathCoordinator.sortPaths r.task.paths
  requestable : ∀ p ∈ r.task.paths, p.Requestable
  phase : PhaseInv s.db r.task r.phase

structure Inv (server : Server) (s : State) : Prop where
  coordinator : PathCoordinator.Inv s.coordinator
  shaped : Shaped server.digest s.db
  request : ∀ l r, s.requests.lookup l = some r → RequestInv s l r

lemma mem_sortPaths {paths : List RelPath} : p ∈ sortPaths paths ↔ p ∈ paths := by
  rw [sortPaths, mem_dedup, mem_insertionSort]

/-- The paths of two requests do not overlap. -/
lemma Inv.not_overlap (h : Inv server s) {l' : ℕ} {r' : Request} (hne : l ≠ l')
    (hr : s.requests.lookup l = some r) (hr' : s.requests.lookup l' = some r') {p' : RelPath}
    (hp : p ∈ r.task.paths) (hp' : p' ∈ r'.task.paths) : ¬ lexicalOverlap p p' := by
  intro hov
  obtain ⟨keys, hkeys, hlex⟩ := (h.request l r hr).lease
  obtain ⟨keys', hkeys', hlex'⟩ := (h.request l' r' hr').lease
  rw [← mem_sortPaths, ← hlex] at hp
  rw [← mem_sortPaths, ← hlex'] at hp'
  obtain ⟨k, hk, rfl⟩ := mem_map.1 hp
  obtain ⟨k', hk', rfl⟩ := mem_map.1 hp'
  exact h.coordinator.leases.exclusive l l' keys keys' hne hkeys hkeys' ⟨k, hk, k', hk', .inl hov⟩

/-! ### Changes of the database -/

/-- The rows that one event of the store leaves, and what it adds to their paths. -/
lemma Shaped.exec {digest : String → BitVec 256} (h : Shaped digest db)
    (hsave : ∀ session ttlMs, e.command = .upload (.save session ttlMs) →
      session.targetPath.Requestable ∧
        uploadTempPath digest session.targetPath session.key.id = some session.stagePath)
    (hprp : ∀ job, e.command = .purge (.prepare job) → job.targetPath.Requestable ∧
      trashPathForId job.targetPath job.key.id = some job.trashPath) :
    Shaped digest (e.exec limits db).2 where
  upload k r' hrow' := by
    rcases (exec_uploadStep limits e db k).paths hrow' with
      ⟨session, ttlMs, hcmd, rfl, hses⟩ | ⟨r, hrow, htgt, hstg, -⟩
    · rw [hses]
      exact hsave session ttlMs hcmd
    · rw [← htgt, ← hstg]
      exact h.upload k r hrow
  purge k r' hrow' := by
    rcases (exec_purgeStep limits e db k).paths hrow' with
      ⟨job, hcmd, rfl, rfl⟩ | ⟨r, hrow, htgt, htr, -⟩
    · exact hprp job hcmd
    · rw [← htgt, ← htr]
      exact h.purge k r hrow

/-- A job that a DELETE has prepared stays until the DELETE itself or somebody after it goes on. -/
lemma OwnJob.exec {key : PurgeJobKey} (h : OwnJob db task key)
    (hrdy : ∀ rev, e.command ≠ .purge (.markReady key rev))
    (hrmv : e.command ≠ .purge (.remove key)) (hrst : e.command ≠ .restart) :
    OwnJob (e.exec limits db).2 task key := by
  obtain ⟨path, row, htask, hrow, hst, htgt⟩ := h
  refine ⟨path, row, htask, ?_, hst, htgt⟩
  have hstep := exec_purgeStep limits e db key
  rw [hrow] at hstep
  generalize hrow' : (e.exec limits db).2.purge key = row' at hstep
  cases hstep with
  | kept => rfl
  | readied hcmd => exact absurd hcmd (hrdy _)
  | claimed _ hdue =>
    rw [PurgeRow.due_iff, hst] at hdue
    cases hdue.1
  | retried _ _ hclm | completed _ hclm =>
    cases hst.symm.trans hclm
  | removed hcmd => exact absurd hcmd hrmv
  | recovered hcmd => exact absurd hcmd hrst

/-! ### Steps keep the invariant -/

/-- A lease stays until it is dropped. -/
lemma lookup_lease_of_step {root : FileIdentity} {S S' : PathCoordinator.System}
    (hinv : PathCoordinator.LeasesInv S) (h : PathCoordinator.Step root S action S')
    {keys : List LeaseKey} (hl : S.leases.lookup l = some keys) (hkept : action ≠ .dropRemove l) :
    S'.leases.lookup l = some keys := by
  cases h with
  | acquired =>
    have hne : l ≠ S.nextId := (hinv.lease_lt l keys hl).ne
    rw [PathCoordinator.System.setRequest_leases, AList.lookup_insert_ne hne]
    exact hl
  | @dropRemove lease keys' _ _ =>
    have hne : l ≠ lease := fun hne => hkept (by rw [hne])
    rw [AList.lookup_erase_ne hne]
    exact hl
  | _ => exact hl

section

variable (h : Inv server s)

include h

lemma Inv.coordinate {coordinator : PathCoordinator.System}
    (hstep : PathCoordinator.Step s.tree.root s.coordinator action coordinator)
    (hkept : ∀ l, action = .dropRemove l → l ∉ s.requests) :
    Inv server { s with coordinator } where
  coordinator := h.coordinator.step hstep
  shaped := h.shaped
  request l r hr := by
    obtain ⟨⟨keys, hkeys, hlex⟩, hrqb, hph⟩ := h.request l r hr
    refine ⟨⟨keys, ?_, hlex⟩, hrqb, hph⟩
    refine lookup_lease_of_step h.coordinator.leases hstep hkeys fun hact => ?_
    refine hkept l hact (AList.lookup_isSome.1 ?_)
    rw [hr, Option.isSome_some]

/-- The requests after one of them has moved on. -/
lemma Inv.insert (hr : RequestInv s l r) :
    Inv server { s with requests := s.requests.insert l r } where
  coordinator := h.coordinator
  shaped := h.shaped
  request l' r' hr' := by
    obtain ⟨rfl, rfl⟩ | ⟨-, hr'⟩ := lookup_of_lookup_insert hr'
    · exact ⟨hr.lease, hr.requestable, hr.phase⟩
    · obtain ⟨hls, hrqb, hph⟩ := h.request l' r' hr'
      exact ⟨hls, hrqb, hph⟩

lemma Inv.setPhase (hr : s.requests.lookup l = some r)
    (hph : PhaseInv s.db r.task phase) : Inv server (s.setPhase l r phase) := by
  obtain ⟨hls, hrqb, -⟩ := h.request l r hr
  exact h.insert ⟨hls, hrqb, hph⟩

lemma Inv.close (l : ℕ) : Inv server (s.close l) where
  coordinator := h.coordinator
  shaped := h.shaped
  request l' r' hr' := by
    obtain ⟨hls, hrqb, hph⟩ :=
      h.request l' r' (lookup_of_lookup_erase hr').2
    exact ⟨hls, hrqb, hph⟩

lemma Inv.setTree (T : FileTree) : Inv server { s with tree := T } where
  coordinator := h.coordinator
  shaped := h.shaped
  request l r hr := by
    obtain ⟨hls, hrqb, hph⟩ := h.request l r hr
    exact ⟨hls, hrqb, hph⟩

lemma Inv.setDb (hshaped : Shaped server.digest db)
    (hph : ∀ l r, s.requests.lookup l = some r → PhaseInv db r.task r.phase) :
    Inv server { s with db } where
  coordinator := h.coordinator
  shaped := hshaped
  request l r hr := by
    obtain ⟨hls, hrqb, -⟩ := h.request l r hr
    exact ⟨hls, hrqb, hph l r hr⟩

end

lemma State.uploading_eq_some {key : UploadSessionKey}
    (h : State.uploading r = some (path, key)) : ∃ resumed, r.task = .upload path key resumed := by
  unfold State.uploading at h
  split at h
  · rename_i htask _
    cases h
    exact ⟨_, htask⟩
  · rename_i htask _
    cases h
    exact ⟨_, htask⟩
  · cases h

/-- A save brings nothing in the way of any request. -/
lemma Inv.save (h : Inv server s) {key : UploadSessionKey} {now ttlMs : TimeMs}
    {session : StoredUploadSession} (hr : s.requests.lookup l = some r)
    (hupl : State.uploading r = some (path, key)) (hkey : session.key = key)
    (htgt : session.targetPath = path)
    (hstg : uploadTempPath server.digest path key.id = some session.stagePath) :
    Inv server { s with
      db := (exec server.limits ⟨now, .upload (.save session ttlMs)⟩ s.db).2 } := by
  subst hkey htgt
  obtain ⟨resumed, htask⟩ := State.uploading_eq_some hupl
  have hmem : session.targetPath ∈ r.task.paths := by simp [htask, Task.paths]
  have hrqb := (h.request l r hr).requestable _ hmem
  refine h.setDb (h.shaped.exec ?_ (by simp)) fun l₁ r₁ hr₁ => ?_
  · rintro _ _ ⟨⟩
    exact ⟨hrqb, hstg⟩
  have hinv := h.request l₁ r₁ hr₁
  refine hinv.phase.mono (fun c b hb hthr => ?_) fun key _ hown =>
    hown.exec (by simp) (by simp) (by simp)
  rcases exec_statePaths hb with hnew | hold
  · exfalso
    cases hnew with
    | target hcmd hcur hpath =>
      cases hcmd
      rw [hpath] at hthr
      by_cases hl : l₁ = l
      · -- its own target is in slot 0
        subst hl
        cases hr.symm.trans hr₁
        unfold Task.Threatens at hthr
        cases resumed <;> simp [htask, Task.scanRelation, hcur] at hthr
      · obtain ⟨p, hp, hov⟩ := hthr.overlap
        exact h.not_overlap hl hr₁ hr hp hmem hov
    | stage hcmd hcur hpath =>
      cases hcmd
      obtain ⟨name, hname⟩ := uploadTempPath_eq_some hstg
      rw [hpath, hname] at hthr
      refine Task.not_threatens_internal hinv.requestable isInternalName_uploadStageDirectory
        (fun p hp => ?_) hthr
      by_cases hl : l₁ = l
      · subst hl
        cases hr.symm.trans hr₁
        rw [htask, Task.paths, mem_singleton] at hp
        rw [hp]
        exact PathMap.not_prefix_of_dropLast hrqb.1
      · exact not_prefix_dropLast_of_not_overlap (h.not_overlap hl hr₁ hr hp hmem)
    | deleted hcmd | trash hcmd => cases hcmd
  · exact hold

section Prepare

variable {now : TimeMs} {job : StoredPurgeJob}

/-- The paths that the job of a DELETE brings. -/
lemma statePaths_of_prepare (htr : trashPathForId job.targetPath job.key.id = some job.trashPath)
    (hb : (c, b) ∈ (exec limits ⟨now, .purge (.prepare job)⟩ db).2.statePaths) :
    (c.kind = 1 ∧ (⟨c.owner, c.id⟩ : PurgeJobKey) = job.key ∧ (b.path = job.targetPath ∨
        b.path = job.targetPath.dropLast ++ deleteTrashName job.key.id :: [])) ∨
      (c, b) ∈ db.statePaths := by
  rcases exec_statePaths hb with hnew | hold
  · left
    cases hnew with
    | target hcmd | stage hcmd => cases hcmd
    | deleted hcmd hcur hpath =>
      cases hcmd
      rw [hcur]
      exact ⟨rfl, rfl, .inl hpath⟩
    | trash hcmd hcur hpath =>
      cases hcmd
      rw [hcur]
      exact ⟨rfl, rfl, .inr (hpath.trans (trashPathForId_eq_some htr))⟩
  · exact .inr hold

/-- A DELETE whose job is inserted finds it in the database. -/
lemma ownJob_of_inserted
    (hinsd : (exec limits ⟨now, .purge (.prepare job)⟩ db).1 = .prepared .inserted) :
    OwnJob (exec limits ⟨now, .purge (.prepare job)⟩ db).2 (.delete job.targetPath) job.key := by
  simp only [exec, PurgeCommand.exec] at hinsd ⊢
  cases hprp : preparePurgeJob limits now job db with
  | error message =>
    rw [hprp] at hinsd
    cases hinsd
  | ok result =>
    obtain ⟨reply, db'⟩ := result
    rw [hprp] at hinsd
    cases hinsd
    obtain ⟨hrep, -⟩ | ⟨-, -, -, -, -, hrows⟩ := preparePurgeJob_cases hprp
    · exact absurd rfl hrep
    · exact ⟨_, _, rfl, (hrows job.key).trans (if_pos rfl), rfl, rfl⟩

/-- The job of a DELETE brings nothing in the way of any other request. -/
lemma Inv.prepare (h : Inv server s) (hr : s.requests.lookup l = some r)
    (htask : r.task = .delete job.targetPath) (hph : r.phase = .admitted)
    (htr : trashPathForId job.targetPath job.key.id = some job.trashPath)
    (hinsd : (exec server.limits ⟨now, .purge (.prepare job)⟩ s.db).1 = .prepared .inserted) :
    Inv server ({ s with
      db := (exec server.limits ⟨now, .purge (.prepare job)⟩ s.db).2 }.setPhase l r
        (.prepared job.key)) := by
  have hmem : job.targetPath ∈ r.task.paths := by simp [htask, Task.paths]
  refine ⟨h.coordinator, h.shaped.exec (by simp) ?_, fun l₁ r₁ hr₁ => ?_⟩
  · rintro _ ⟨⟩
    exact ⟨(h.request l r hr).requestable _ hmem, htr⟩
  obtain ⟨rfl, rfl⟩ | ⟨hl, hr₁⟩ := lookup_of_lookup_insert hr₁
  · -- the request itself goes on to its next phase
    obtain ⟨hls, hrqb, hclr⟩ := h.request l₁ r hr
    rw [hph] at hclr
    refine ⟨hls, hrqb, htask ▸ ownJob_of_inserted hinsd, fun c b hb hthr => ?_⟩
    rcases statePaths_of_prepare htr hb with ⟨hkind, hkey, -⟩ | hold
    · exact ⟨hkind, hkey⟩
    · exact absurd hthr (hclr c b hold)
  · obtain ⟨hls, hrqb, hold⟩ := h.request l₁ r₁ hr₁
    refine ⟨hls, hrqb, hold.mono (fun c b hb hthr => ?_) fun key _ hown =>
      hown.exec (by simp) (by simp) (by simp)⟩
    rcases statePaths_of_prepare htr hb with ⟨-, -, hpath | hpath⟩ | hold
    · obtain ⟨p, hp, hov⟩ := hthr.overlap
      rw [hpath] at hov
      exact absurd hov (h.not_overlap hl hr₁ hr hp hmem)
    · rw [hpath] at hthr
      exact absurd hthr (Task.not_threatens_internal hrqb
        (isInternalName_deleteTrashName job.key.id) fun p hp =>
          not_prefix_dropLast_of_not_overlap (h.not_overlap hl hr₁ hr hp hmem))
    · exact hold

end Prepare

/-- The other commands of the store bring no paths at all. -/
lemma Inv.store (h : Inv server s) (halw : s.allowed e.command) :
    Inv server { s with db := (e.exec server.limits s.db).2 } := by
  have hsave : ∀ session ttlMs, e.command ≠ .upload (.save session ttlMs) := by
    intro session ttlMs hcmd
    rw [hcmd] at halw
    exact halw
  have hprp : ∀ job, e.command ≠ .purge (.prepare job) := by
    intro job hcmd
    rw [hcmd] at halw
    exact halw
  refine h.setDb (h.shaped.exec (fun session ttlMs hcmd => absurd hcmd (hsave _ _))
    fun job hcmd => absurd hcmd (hprp _)) fun l r hr => ?_
  refine (h.request l r hr).phase.mono (fun c b hb _ => ?_) fun key hph hown => ?_
  · rcases exec_statePaths hb with hnew | hold
    · cases hnew with
      | target hcmd | stage hcmd => exact absurd hcmd (hsave _ _)
      | deleted hcmd | trash hcmd => exact absurd hcmd (hprp _)
    · exact hold
  · have hprep : s.PreparedKey key := ⟨⟨l, r⟩, AList.mem_lookup_iff.1 hr, hph⟩
    refine hown.exec (fun rev hcmd => ?_) (fun hcmd => ?_) fun hcmd => ?_
    · rw [hcmd] at halw
      exact halw hprep
    · rw [hcmd] at halw
      exact halw hprep
    · rw [hcmd] at halw
      exact halw rfl

/-- The scan goes on with the next page, or is over. -/
lemma PhaseInv.comparePage
    (h : PhaseInv db task (.comparing scanner page))
    (hclr : (scanner.pageConflicts resolve page.paths).1 = false) :
    PhaseInv db task (match page.next with
      | none => .admitted
      | some next => .scanning (scanner.pageConflicts resolve page.paths).2 (some next)) := by
  obtain ⟨hscan, hpage⟩ := h
  cases hnext : page.next with
  | none =>
    intro c b hmem hthr
    rcases hpage c b hmem hthr with hfnd | ⟨next, hsome, -⟩
    · exact not_threatens_of_page hscan hclr hmem hfnd hthr
    · cases hnext.symm.trans hsome
  | some next =>
    refine ⟨⟨(pageConflicts_eq_false hscan.wf hclr).1, ?_, ?_⟩, ?_⟩
    · rw [pageConflicts_sources.1]
      exact hscan.sources
    · rw [pageConflicts_sources.2]
      exact hscan.relation
    · intro c b hmem hthr
      rcases hpage c b hmem hthr with hfnd | ⟨next', hsome, hlt⟩
      · exact absurd hthr (not_threatens_of_page hscan hclr hmem hfnd)
      · cases hnext.symm.trans hsome
        exact Keyset.after_some.2 hlt

theorem Inv.step (h : Inv server s) {e : Event} (hstep : Step server s e s') : Inv server s' := by
  cases hstep with
  | coordinate hstep hkept => exact h.coordinate hstep hkept
  | begin hls hkeys hpths =>
    exact h.insert ⟨⟨_, hls, hkeys⟩, hpths, phaseInv_initial _ _⟩
  | readPage hr hph hpage =>
    have hscan := (h.request _ _ hr).phase
    rw [hph] at hscan
    exact h.setPhase hr (hscan.readPage hpage)
  | close => exact h.close _
  | scanned hr hph hclr hnext | nextPage hr hph hclr hnext =>
    have hcmp := (h.request _ _ hr).phase
    rw [hph] at hcmp
    have hnew := hcmp.comparePage hclr
    rw [hnext] at hnew
    exact h.setPhase hr hnew
  | tree => exact h.setTree _
  | prepare hr htask hph htr hinsd => exact h.prepare hr htask hph htr hinsd
  | @commit l directory r T' hr _ | @publish l r _ _ _ _ T' hr _ _ _ _ _ _ =>
    have hcom : PhaseInv s.db r.task .committed := trivial
    exact (h.setTree T').setPhase hr hcom
  | save hr hupl hkey htgt hstg => exact h.save hr hupl hkey htgt hstg
  | store halw => exact h.store halw
  | stutter => exact h

/-- The invariant along every run that starts with well formed rows. -/
theorem run_inv {server : Server} (hshaped : Shaped server.digest db) (tree : FileTree)
    (schedule : ℕ → Event) (n : ℕ) : Inv server ((machine server db tree).run schedule n) :=
  Transition.Machine.run_invariant ⟨inv_new, hshaped, nofun⟩
    (fun _ _ _ h hstep => h.step (step_cases hstep)) n

end DufsRam.Admission
