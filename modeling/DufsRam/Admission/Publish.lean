import DufsRam.Admission.Guarantees

/-!
# Publishing an upload

A publish replaces the entry at its target, which may be a link to a directory through which the
paths of other rows lead. A fresh upload has made sure that there are none that are written below
its target. A resumed one has not: its session may be older than the rows below its target.
-/

namespace DufsRam.Admission

open List Option

/-- No upload that owns a stage and no purge job has a path below the given one. -/
structure NothingBelow (db : Database) (path : RelPath) : Prop where
  upload : ∀ k r, db.upload k = some r → r.session.state.ownsStage = true →
    ¬ strictlyBelow path r.session.targetPath ∧ ¬ strictlyBelow path r.session.stagePath
  purge : ∀ k r, db.purge k = some r →
    ¬ strictlyBelow path r.job.targetPath ∧ ¬ strictlyBelow path r.job.trashPath

/-- The path is the recorded stage of an upload that owns it, or the recorded trash of a job. -/
def Recorded (db : Database) (p : RelPath) : Prop :=
  (∃ k r, db.upload k = some r ∧ r.session.state.ownsStage = true ∧ p = r.session.stagePath) ∨
    ∃ k r, db.purge k = some r ∧ p = r.job.trashPath

variable {path : RelPath} {key : UploadSessionKey} {l n : ℕ}

lemma NothingBelow.recorded {db : Database} {p : RelPath} (h : NothingBelow db path)
    (hp : Recorded db p) : ¬ strictlyBelow path p := by
  obtain ⟨k, r, hr, howns, rfl⟩ | ⟨k, r, hr, rfl⟩ := hp
  · exact (h.upload k r hr howns).2
  · exact (h.purge k r hr).2

/-- What lies below a path has its neighbours there, too. -/
lemma strictlyBelow_sibling {target : RelPath} {name : String} {rest : RelPath}
    (h : strictlyBelow path target) : strictlyBelow path (target.dropLast ++ name :: rest) := by
  obtain ⟨hne, below, rfl⟩ := h
  have hbel : below ≠ [] := by
    rintro rfl
    exact hne (by simp)
  rw [dropLast_append_of_ne_nil hbel, append_assoc]
  refine ⟨fun heq => ?_, prefix_append _ _⟩
  have hlen := congrArg length heq
  simp only [length_append, length_cons] at hlen
  omega

/-- Below the target of a fresh upload that was admitted there is nothing. -/
lemma Inv.nothingBelow {server : Server} {s : State} (h : Inv server s)
    (hph : PhaseInv s.db (.upload path key false) .admitted) : NothingBelow s.db path where
  upload k r hrow howns := by
    have hkey := (upload_eq_some_iff.1 hrow).2
    subst hkey
    have hstg : ¬ strictlyBelow path r.session.stagePath := by
      intro hbel
      have hmem := mem_statePaths.2 (.inl ⟨rfl, r, hrow,
        mem_uploadRow_statePaths.2 ⟨howns, .inr ⟨rfl, rfl⟩⟩⟩)
      exact hph _ _ hmem ⟨rfl, path, mem_singleton_self path, hbel⟩
    refine ⟨fun hbel => hstg ?_, hstg⟩
    obtain ⟨name, hname⟩ := uploadTempPath_eq_some (h.shaped.upload _ r hrow).2
    rw [hname]
    exact strictlyBelow_sibling hbel
  purge k r hrow := by
    have hkey := (purge_eq_some_iff.1 hrow).2
    subst hkey
    have htr : ¬ strictlyBelow path r.job.trashPath := by
      intro hbel
      have hmem := mem_statePaths.2 (.inr ⟨rfl, r, hrow,
        mem_purgeRow_statePaths.2 (.inr ⟨rfl, rfl⟩)⟩)
      exact hph _ _ hmem ⟨rfl, path, mem_singleton_self path, hbel⟩
    refine ⟨fun hbel => htr ?_, htr⟩
    rw [trashPathForId_eq_some (h.shaped.purge _ r hrow).2]
    exact strictlyBelow_sibling hbel

namespace Run

variable (ρ : Run)

/-- An upload publishes its stage. -/
structure PublishesAt (n l : ℕ) (path : RelPath) (key : UploadSessionKey) (resumed : Bool) :
    Prop where
  event : ρ.schedule n = .publish l
  request : (ρ.state n).requests.lookup l = some ⟨.upload path key resumed, .admitted⟩
  enabled : ((ρ.state n).publish ρ.server l).isSome = true

/-- What a publish finds, and the tree it leaves. -/
lemma PublishesAt.renamed {resumed : Bool} (h : ρ.PublishesAt n l path key resumed) : ∃ stagePath,
      uploadTempPath ρ.server.digest path key.id = some stagePath ∧
      (ρ.state n).tree.lookup stagePath = some (.file .regularFile) ∧
      State.replaceableEntry ((ρ.state n).tree.lookup path) = true ∧
      (ρ.state n).tree.renameAt stagePath path true = some (ρ.state (n + 1)).tree := by
  obtain ⟨s', hs'⟩ := isSome_iff_exists.1 h.enabled
  have hstep : (machine ρ.server ρ.db ρ.tree).step (ρ.state n) (ρ.schedule n) = some s' := by
    rw [h.event]
    exact hs'
  have hsucc : ρ.state (n + 1) = s' := Transition.Machine.run_succ_of_step hstep
  rw [State.publish, State.onRequest, h.request, bind_some] at hs'
  obtain ⟨stagePath, hstg, hs'⟩ := bind_eq_some_iff.1 hs'
  split_ifs at hs' with hgrd
  obtain ⟨T, hT, rfl⟩ := map_eq_some_iff.1 hs'
  refine ⟨stagePath, hstg, hgrd.2.1, hgrd.2.2, ?_⟩
  rw [hT, hsucc]
  rfl

/-- If no resumed upload replaces a link, no publish replaces a directory, or a link below which a
path of a row is written. If in addition the recorded paths that lead through the target of a
publish are written below it, what is found at a recorded path is still found after the publish,
except at the stage that is published and at the target. -/
theorem publish_strands_nothing (hresumed : ∀ n l path key, ρ.PublishesAt n l path key true →
      ∀ target, (ρ.state n).tree.lookup path ≠ some (.symlink target))
    (hways : ∀ n l path key resumed, ρ.PublishesAt n l path key resumed →
      ∀ p, Recorded (ρ.state n).db p → (ρ.state n).tree.Traverses p path → strictlyBelow path p)
    {n l : ℕ} {path : RelPath} {key : UploadSessionKey} {resumed : Bool}
    (h : ρ.PublishesAt n l path key resumed) :
    (∀ directory, (ρ.state n).tree.lookup path ≠ some (.directory directory)) ∧
      (∀ target, (ρ.state n).tree.lookup path = some (.symlink target) →
        NothingBelow (ρ.state n).db path) ∧
      ∃ stagePath, uploadTempPath ρ.server.digest path key.id = some stagePath ∧
        ∀ p entry, Recorded (ρ.state n).db p → (ρ.state n).tree.lookup p = some entry →
          (ρ.state n).tree.place p ≠ (ρ.state n).tree.place stagePath →
          (ρ.state n).tree.place p ≠ (ρ.state n).tree.place path →
          (ρ.state (n + 1)).tree.lookup p = some entry := by
  obtain ⟨stagePath, hstage, hfile, hreplaceable, hrename⟩ := h.renamed
  have hdirectory : ∀ directory, (ρ.state n).tree.lookup path ≠ some (.directory directory) := by
    intro directory hdirectory
    simp [State.replaceableEntry, hdirectory] at hreplaceable
  have hnothing : ∀ target, (ρ.state n).tree.lookup path = some (.symlink target) →
      NothingBelow (ρ.state n).db path := by
    intro target htarget
    cases resumed with
    | true => exact absurd htarget (hresumed n l path key h target)
    | false => exact (ρ.inv n).nothingBelow ((ρ.inv n).request l _ h.request).phase
  refine ⟨hdirectory, hnothing, stagePath, hstage, fun p entry hrecorded hp hne hne' => ?_⟩
  refine FileTree.renameAt_lookup hrename hfile (fun hway => ?_) hp hne hne'
  obtain ⟨-, -, -, ⟨e, he⟩ | ⟨target, htarget⟩⟩ := hway.place
  · exact hdirectory e he
  · have hbelow := hways n l path key resumed h p hrecorded hway
    exact (hnothing target htarget).recorded hrecorded hbelow

end Run

/-! ### Sample runs -/

/-- The root with a directory and a link to it. -/
def linkTree : FileTree :=
  (emptyTree.makeDirectory ⟨1, 1⟩ "d" ⟨1, 2⟩ (by decide)).put ⟨1, 1⟩ "p"
    (some (.symlink ⟨false, [.normal "d"]⟩)) (by simp)

/-- The steps by which a fresh upload on the given lease gets as far as its first row. -/
def uploadSteps (l : ℕ) (path : RelPath) (key : UploadSessionKey) (directory : FileIdentity) :
    List Event :=
  [.begin l (.upload path key false), .readPage l, .comparePage l fun _ => none,
    .makeStageDirectory l directory, .createStage l,
    .save l 0 (sampleSession path key 20971520 .running) 60000]

/-- The steps by which a request gives up and drops its lease. -/
def dropSteps (l : ℕ) : List Event :=
  [.finish l, .coordinate (.dropRemove l), .coordinate .dropAdvance, .coordinate .dropNotify]

def linkRun (events : List Event) : Run where
  server := sampleServer
  db := .empty
  tree := linkTree
  schedule := fun n => events.getD n (.finish 0)
  shaped := sampleServer_shaped

/-- A fresh upload publishes over the link. -/
def freshEvents : List Event :=
  leaseSteps 1 ["p"] ++ uploadSteps 1 ["p"] ⟨7, 1⟩ ⟨1, 3⟩ ++
  [.save 1 0 (sampleSession ["p"] ⟨7, 1⟩ 41943040 .commitStarted) 60000, .publish 1]

/-- An upload to the link is interrupted, another one stages a file behind the link, and the first
one is resumed and published. -/
def resumedEvents : List Event :=
  leaseSteps 1 ["p"] ++ uploadSteps 1 ["p"] ⟨7, 1⟩ ⟨1, 3⟩ ++ dropSteps 1 ++
  leaseSteps 2 ["p", "x"] ++ uploadSteps 2 ["p", "x"] ⟨7, 2⟩ ⟨1, 4⟩ ++ dropSteps 2 ++
  leaseSteps 3 ["p"] ++
  [.begin 3 (.upload ["p"] ⟨7, 1⟩ true),
    .save 3 0 (sampleSession ["p"] ⟨7, 1⟩ 41943040 .commitStarted) 60000, .publish 3]

def Event.isPublish : Event → Bool
  | .publish _ => true
  | _ => false

lemma freshEvents_publish (h : (linkRun freshEvents).schedule n = .publish l) : n = 16 := by
  have hpubl : Event.isPublish ((linkRun freshEvents).schedule n) = true := by
    rw [h]
    rfl
  by_cases hn : n < 17
  · have hall : ∀ n < 17, Event.isPublish ((linkRun freshEvents).schedule n) = true → n = 16 := by
      decide +kernel
    exact hall n hn hpubl
  · have hrest : (linkRun freshEvents).schedule n = .finish 0 := by
      change freshEvents.getD n (.finish 0) = _
      rw [getD_eq_getElem?_getD, getElem?_eq_none (Nat.not_lt.1 hn), getD_none]
    cases hrest.symm.trans h

/-- No recorded path leads through the link. -/
lemma freshEvents_recorded {p : RelPath} (hp : Recorded ((linkRun freshEvents).state 16).db p) :
    ¬ ((linkRun freshEvents).state 16).tree.Traverses p ["p"] := by
  have hrows : (∀ r ∈ ((linkRun freshEvents).state 16).db.uploadSessions.rows,
        (⟨1, 1⟩, "p") ∉ ((linkRun freshEvents).state 16).tree.lookups Tree.maxSymlinks ⟨1, 1⟩
          (r.session.stagePath.dropLast.map .normal)) ∧
      ((linkRun freshEvents).state 16).db.purgeJobs.rows = [] := by decide +kernel
  intro hway
  obtain ⟨l, hl, hplace, -⟩ := hway.place
  cases hplace.symm.trans (show _ = some (⟨1, 1⟩, "p") by decide +kernel)
  obtain ⟨k, r, hr, -, rfl⟩ | ⟨k, r, hr, -⟩ := hp
  · exact hrows.1 r (upload_eq_some_iff.1 hr).1 hl
  · have hmem := (purge_eq_some_iff.1 hr).1
    rw [hrows.2] at hmem
    cases hmem

/-- The fresh upload replaces the link, and its condition is met. -/
theorem publish_strands_nothing_sample : (linkRun freshEvents).PublishesAt 16 1 ["p"] ⟨7, 1⟩ false ∧
      ((linkRun freshEvents).state 16).tree.lookup ["p"] =
        some (.symlink ⟨false, [.normal "d"]⟩) ∧
      NothingBelow ((linkRun freshEvents).state 16).db ["p"] := by
  have hrequest : ((linkRun freshEvents).state 16).requests.lookup 1 =
      some ⟨.upload ["p"] ⟨7, 1⟩ false, .admitted⟩ := by decide +kernel
  have hlink : (((linkRun freshEvents).state 16).publish sampleServer 1).isSome = true ∧
      ((linkRun freshEvents).state 16).tree.lookup ["p"] =
        some (.symlink ⟨false, [.normal "d"]⟩) := by decide +kernel
  have hpublishes : (linkRun freshEvents).PublishesAt 16 1 ["p"] ⟨7, 1⟩ false :=
    ⟨rfl, hrequest, hlink.1⟩
  -- the only publish is that of the fresh upload
  have honly : ∀ n l path key resumed, (linkRun freshEvents).PublishesAt n l path key resumed →
      n = 16 ∧ path = ["p"] ∧ resumed = false := by
    intro n l path key resumed h
    have hn := freshEvents_publish h.event
    subst hn
    cases h.event
    have hsame := h.request
    cases hrequest.symm.trans hsame
    exact ⟨rfl, rfl, rfl⟩
  have hall := (linkRun freshEvents).publish_strands_nothing
    (fun n l path key h => by cases (honly n l path key true h).2.2)
    (fun n l path key resumed h p hp hway => by
      obtain ⟨rfl, rfl, -⟩ := honly n l path key resumed h
      exact absurd hway (freshEvents_recorded hp)) hpublishes
  exact ⟨hpublishes, hlink.2, hall.2.1 _ hlink.2⟩

/-- A resumed upload replaces a link although another session has its stage behind it. The stage is
lost to its row. -/
theorem resumed_publish_strands_stage : (linkRun resumedEvents).PublishesAt 49 3 ["p"] ⟨7, 1⟩ true ∧
    ((linkRun resumedEvents).state 49).tree.lookup ["p"] =
      some (.symlink ⟨false, [.normal "d"]⟩) ∧
    ((linkRun resumedEvents).state 49).tree.lookup ["d"] = some (.directory ⟨1, 2⟩) ∧
    ∃ row, ((linkRun resumedEvents).state 49).db.upload ⟨7, 2⟩ = some row ∧
      row.session.state = .running ∧ strictlyBelow ["p"] row.session.targetPath ∧
      strictlyBelow ["p"] row.session.stagePath ∧
      ((linkRun resumedEvents).state 49).tree.lookup row.session.stagePath =
        some (.file .regularFile) ∧
      ((linkRun resumedEvents).state 50).tree.lookup row.session.stagePath = none := by
  have hpublishes : ((linkRun resumedEvents).state 49).requests.lookup 3 =
        some ⟨.upload ["p"] ⟨7, 1⟩ true, .admitted⟩ ∧
      (((linkRun resumedEvents).state 49).publish sampleServer 3).isSome = true := by
    decide +kernel
  have hrow : ((linkRun resumedEvents).state 49).tree.lookup ["p"] =
        some (.symlink ⟨false, [.normal "d"]⟩) ∧
      ((linkRun resumedEvents).state 49).tree.lookup ["d"] = some (.directory ⟨1, 2⟩) ∧
      ((linkRun resumedEvents).state 49).db.upload ⟨7, 2⟩ =
        some ⟨sampleSession ["p", "x"] ⟨7, 2⟩ 20971520 .running, 0, 60000⟩ := by
    decide +kernel
  have hstage : strictlyBelow ["p"] (sampleSession ["p", "x"] ⟨7, 2⟩ 20971520 .running).stagePath ∧
      ((linkRun resumedEvents).state 49).tree.lookup
        (sampleSession ["p", "x"] ⟨7, 2⟩ 20971520 .running).stagePath = some (.file .regularFile) ∧
      ((linkRun resumedEvents).state 50).tree.lookup
        (sampleSession ["p", "x"] ⟨7, 2⟩ 20971520 .running).stagePath = none := by
    decide +kernel
  exact ⟨⟨rfl, hpublishes.1, hpublishes.2⟩, hrow.1, hrow.2.1, _, hrow.2.2, rfl, by decide, hstage⟩

end DufsRam.Admission
