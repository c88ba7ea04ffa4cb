import DufsRam.Upload.System

/-!
# Metadata of a new file

A stage whose row is bound to no revision is to become a new file, so it must not carry metadata
that was copied from a file it should have replaced. The code keeps this only while no request asks
for a replacement of what was retained for a creation, and none turns a stage with copied metadata
back into a creation.
-/

namespace DufsRam

open Crash Session UploadSystem StoredUploadState

variable {site : Site} {r : UploadRequest} {s s' : Session} {id : StoredFileIdentity} {n : Inode}
  {p : StoredUploadSession}

/-! ### Copied metadata -/

/-- The inode that the row names has the metadata it was created with. -/
def Session.Untouched (s : Session) (row : StoredUploadSession) : Prop :=
  ∀ id n, row.stageIdentity = some id → s.inodes id = some n → n.replayed = false

/-- Rows that own a stage and are bound to no revision name an untouched inode, and so did the rows
under which one was published. -/
structure Session.CreateOnly (site : Site) (s : Session) : Prop where
  row : ∀ row, s.row = some row → row.state.ownsStage = true → row.targetRevision = none →
    s.Untouched row
  birth : ∀ id n, s.inodes id = some n → n.birth = site.stageAttributes
  published : ∀ q ∈ s.published, ∀ row, q.row = some row → row.targetRevision = none →
    q.inode.attributes = site.stageAttributes

/-- A replacement is asked for only of a stage that was retained for one, and a creation only of a
stage with the metadata it was created with. -/
structure Session.Consistent (s : Session) (r : UploadRequest) : Prop where
  replacement : r.requestedRevision ≠ none → ∀ row, s.row = some row →
    row.state = .awaitingConfirmation → row.targetRevision ≠ none
  creation : r.requestedRevision = none → ∀ row, s.row = some row → row.state = .running →
    s.Untouched row

lemma Session.Untouched.setInode {row : StoredUploadSession} (h : s.Untouched row)
    (hn : row.stageIdentity = some id → n.replayed = false) : (s.setInode id n).Untouched row := by
  intro i m hi hm
  by_cases heq : i = id
  · subst heq
    have hnm : n = m := by simpa [Session.setInode] using hm
    exact hnm ▸ hn hi
  · exact h i m hi (by simpa [Session.setInode, heq] using hm)

lemma Session.CreateOnly.setInode (h : s.CreateOnly site) (hbirth : n.birth = site.stageAttributes)
    (hn : ∀ row, s.row = some row → row.state.ownsStage = true → row.targetRevision = none →
      row.stageIdentity = some id → n.replayed = false) : (s.setInode id n).CreateOnly site where
  row row hrow howns hrev := (h.row row hrow howns hrev).setInode (hn row hrow howns hrev)
  birth i m hm := by
    by_cases heq : i = id
    · subst heq
      have hnm : n = m := by simpa [Session.setInode] using hm
      exact hnm ▸ hbirth
    · exact h.birth i m (by simpa [Session.setInode, heq] using hm)
  published := h.published

lemma Session.Consistent.setInode (h : s.Consistent r)
    (hn : r.requestedRevision = none → ∀ row, s.row = some row → row.state = .running →
      row.stageIdentity = some id → n.replayed = false) : (s.setInode id n).Consistent r where
  replacement := h.replacement
  creation hr row hrow hrun := (h.creation hr row hrow hrun).setInode (hn hr row hrow hrun)

/-! ### Steps -/

/-- A running row that a request with this revision may store names an untouched inode if the
request asks for a creation. -/
lemma Session.Consistent.save_running (h : s.Consistent r) (hinv : s.Inv site)
    (hcont : Continues s.row p) (hr : r.requestedRevision = none) (hst : p.state = .running)
    (hid : p.stageIdentity = some id) (hn : s.inodes id = some n)
    (hcre : s.row = none → n.replayed = false) : s.Untouched p := by
  intro i m hi hm
  cases hid.symm.trans hi
  cases hn.symm.trans hm
  cases hrow : s.row with
  | none => exact hcre hrow
  | some e =>
    have hrun := running_of_continues hcont hrow hst
    have hsame := stageIdentity_of_continues hinv hcont hrow (by rw [hrun]; rfl)
    exact h.creation hr e hrow hrun id n (hsame.symm.trans hid) hn

/-- A row bound to no revision that a request may store names an untouched inode. -/
lemma Session.Saves.untouched (h : s.CreateOnly site) (hcons : s.Consistent r)
    (hinv : s.Inv site) (hcont : Continues s.row p) (hsaves : s.Saves r p)
    (howns : p.state.ownsStage = true) (hrev : p.targetRevision = none) : s.Untouched p := by
  -- what is known of the row before carries over, since it names the same inode
  have hkept {e : StoredUploadSession} (hrow : s.row = some e) (he : e.state.ownsStage = true)
      (herev : e.targetRevision = none) : s.Untouched p := by
    intro i m hi hm
    rw [stageIdentity_of_continues hinv hcont hrow he] at hi
    exact h.row e hrow he herev i m hi hm
  cases hsaves with
  | checkpoint id n hst hid hn _ _ hcre hrevision =>
    by_cases hr : r.requestedRevision = none
    · exact hcons.save_running hinv hcont hr hst hid hn hcre
    · cases hrow : s.row with
      | none =>
        intro i m hi hm
        cases hid.symm.trans hi
        cases hn.symm.trans hm
        exact hcre hrow
      | some e =>
        have hrun := running_of_continues hcont hrow hst
        refine hkept hrow (by rw [hrun]; rfl) ?_
        rcases hrevision e hrow with hreq | hown
        · exact absurd (hreq.symm.trans hrev) hr
        · exact hown.symm.trans hrev
  | start id n hst hid hn _ _ _ _ hrevision hsts =>
    obtain ⟨e, hrow, herev⟩ := hsts (hrevision.symm.trans hrev)
    refine hkept hrow ?_ herev
    obtain ⟨-, -, htrn, -⟩ := mergeUploadSession_eq_some (hcont e hrow)
    unfold transitionAllowed at htrn
    rw [hst] at htrn
    cases he : e.state <;> simp [he, mayBecome, ownsStage] at htrn ⊢
  | retain id n e hst _ _ _ _ _ hrow hsta =>
    refine hkept hrow (by rw [hsta]; rfl) ?_
    rw [targetRevision_of_retained hcont hrow hsta hst, hrev]
  | commit _ _ hst | lose _ hst | reject hst => simp [hst, ownsStage] at howns

/-- The request stays consistent with the rows it stores itself. -/
lemma Session.Saves.consistent (h : s.Consistent r) (hinv : s.Inv site) (hcont : Continues s.row p)
    (hsaves : s.Saves r p) : ({ s with row := some p } : Session).Consistent r where
  replacement hr row hrow hst := by
    cases hrow
    cases hsaves with
    | retain id n e _ _ _ _ _ _ _ _ hrev => exact hrev ▸ hr
    | checkpoint _ _ hs | start _ _ hs | commit _ _ hs | lose _ hs | reject hs => simp [hs] at hst
  creation hr row hrow hst := by
    cases hrow
    cases hsaves with
    | checkpoint id n _ hid hn _ _ hcre =>
      exact h.save_running hinv hcont hr hst hid hn hcre
    | start _ _ hs | retain _ _ _ hs | commit _ _ hs | lose _ hs | reject hs => simp [hs] at hst

/-- An inode whose metadata stays keeps both. -/
lemma setInode_createOnly {m : Inode} (hinv : s.CreateOnly site) (hc : s.Consistent r)
    (hn : s.inodes id = some n) (hbirth : m.birth = n.birth) (hrepl : m.replayed = n.replayed) :
    (s.setInode id m).CreateOnly site ∧ (s.setInode id m).Consistent r := by
  constructor
  · refine hinv.setInode (hbirth.trans (hinv.birth id n hn)) fun row hrow howns hrev hid => ?_
    exact hrepl.trans (hinv.row row hrow howns hrev id n hid hn)
  · exact hc.setInode fun hr row hrow hrun hid =>
      hrepl.trans (hc.creation hr row hrow hrun id n hid hn)

lemma Session.CreateOnly.step (hinv : s.Inv site) (h : s.CreateOnly site) (hc : s.Consistent r)
    (hstep : Step site r s s') : s'.CreateOnly site ∧ s'.Consistent r := by
  cases hstep with
  | create id hstg hid =>
    have hnew : (s.setInode id (.create site.stageAttributes)).CreateOnly site :=
      h.setInode rfl fun _ _ _ _ _ => rfl
    have hcnew : (s.setInode id (.create site.stageAttributes)).Consistent r :=
      hc.setInode fun _ _ _ _ _ => rfl
    exact ⟨⟨hnew.row, hnew.birth, hnew.published⟩, hcnew.replacement, hcnew.creation⟩
  | write id n bytes hn | cut id n k hn | sync id n hn => exact setInode_createOnly h hc hn rfl rfl
  | replay id n a hn hrevision hreplays =>
    refine ⟨h.setInode (h.birth id n hn) fun row hrow howns hrev hid => ?_,
      hc.setInode fun hr => absurd hr hrevision⟩
    -- the row that names the inode is bound to a revision
    rcases hreplays row hrow hid with hst | ⟨-, hbd⟩
    · exact absurd hrev (hc.replacement hrevision row hrow hst)
    · exact absurd (hbd.symm.trans hrev) hrevision
  | save p hnms hcont hsaves =>
    refine ⟨⟨fun row hrow howns hrev => ?_, h.birth, h.published⟩, hsaves.consistent hc hinv hcont⟩
    cases hrow
    have hunt : s.Untouched p := hsaves.untouched h hc hinv hcont howns hrev
    exact hunt
  | remove => exact ⟨⟨nofun, h.birth, h.published⟩, fun _ => nofun, fun _ => nofun⟩
  | unlink | setback => exact ⟨⟨h.row, h.birth, h.published⟩, hc.replacement, hc.creation⟩
  | publish row id n hrow hsta hidn _ hn =>
    refine ⟨⟨h.row, h.birth, fun q hq row' hrow' hrev => ?_⟩, hc.replacement, hc.creation⟩
    rcases List.mem_append.1 hq with hq | hq
    · exact h.published q hq row' hrow' hrev
    · cases List.mem_singleton.1 hq
      cases hrow.symm.trans hrow'
      have hunt := h.row row hrow (by rw [hsta]; rfl) hrev id n hidn hn
      rw [n.untouched hunt, h.birth id n hn]

lemma Session.CreateOnly.restarted (h : s.CreateOnly site)
    (tails : StoredFileIdentity → List UInt8) : (s.restarted tails).CreateOnly site where
  row row hrow howns hrev := by
    obtain ⟨row', hrow', rfl⟩ := Option.map_eq_some_iff.1 hrow
    intro id n hid hn
    obtain ⟨m, hm, rfl⟩ := Option.map_eq_some_iff.1 hn
    rw [state_recover] at howns
    rw [recover_eq] at hrev hid
    refine h.row row' hrow' ?_ hrev id m hid hm
    split at howns
    · cases howns
    · exact howns
  birth id n hn := by
    obtain ⟨m, hm, rfl⟩ := Option.map_eq_some_iff.1 hn
    exact h.birth id m hm
  published := h.published

/-! ### Runs -/

namespace UploadRun

variable {ρ : UploadRun site}

/-- Every request of the run is consistent with the session it finds. -/
def Consistent (ρ : UploadRun site) : Prop :=
  ∀ n r script, ρ.schedule n = .request r script → (ρ.session n).Consistent r

lemma createOnly (h : ρ.Consistent) (n : ℕ) : (ρ.session n).CreateOnly site := by
  refine (invariant (P := CreateOnly site) ⟨fun row hrow => ?_, nofun, nofun⟩
    (fun n hinv hs hmv => ?_) n).2
  · cases session_zero.symm.trans hrow
  · have hn := h n
    generalize ρ.schedule n = e at hmv hn
    cases hmv with
    | request r script hrch =>
      have hc := hn r script rfl
      have hbegin : ({ ρ.session n with setbacks := [] } : Session).CreateOnly site ∧
          ({ ρ.session n with setbacks := [] } : Session).Consistent r :=
        ⟨⟨hs.row, hs.birth, hs.published⟩, hc.replacement, hc.creation⟩
      exact (hrch.induct (P := fun t => t.CreateOnly site ∧ t.Consistent r)
        (fun hinv hP hstep => hP.1.step hinv hP.2 hstep) (hinv.setbacks []) hbegin).2.1
    | none _ heq => rwa [heq]
    | restart now tails heq => exact heq ▸ hs.restarted tails
    | expire now db gone heq => exact heq ▸ ⟨nofun, hs.birth, hs.published⟩

end UploadRun

/-- In every run whose requests are all consistent with what they find, a running or retained row
bound to no revision names an inode whose metadata was never changed, and a publication under such
a row has the metadata of a new stage. -/
theorem create_only_metadata (ρ : UploadRun site) (h : ρ.Consistent) (n : ℕ) :
    (∀ row, (ρ.state n).world.row site = some row →
      row.state = .running ∨ row.state = .awaitingConfirmation → row.targetRevision = none →
        ∃ id inode, row.stageIdentity = some id ∧ (ρ.state n).world.inodes id = some inode ∧
          inode.replayed = false) ∧
    (∀ q ∈ (ρ.state n).world.published, ∀ row, q.row = some row → row.targetRevision = none →
      q.inode.attributes = site.stageAttributes) := by
  have hcreate := UploadRun.createOnly h n
  refine ⟨fun row hrow hstate hrev => ?_, hcreate.published⟩
  have howns : row.state.ownsStage = true := by
    rcases hstate with hstate | hstate <;> rw [hstate] <;> rfl
  have hok := (UploadRun.inv n).row row hrow
  obtain ⟨id, hid⟩ := Option.ne_none_iff_exists'.1 (hok.owned howns)
  obtain ⟨inode, hinode, -⟩ := hok.recorded id hid
  exact ⟨id, inode, hid, hinode, hcreate.row row hrow howns hrev id inode hid hinode⟩

/-- A retained upload whose target is gone again creates a file with the metadata of a new stage. -/
def createdAfterAll : List UploadEvent :=
  retainedUpload ++
    [.retarget none, .request ⟨.resume 2, 2, .noReplace, none, []⟩ (smoothly 60)]

theorem create_only_metadata_smooth :
    let ρ := smallRun none createdAfterAll
    (ρ.state 5).world.published.length = 1 ∧
      ∀ q ∈ (ρ.state 5).world.published, ∀ row, q.row = some row → row.targetRevision = none →
        q.inode.attributes = ⟨0, 0, 0o600, []⟩ := by
  refine ⟨by decide +kernel, (create_only_metadata _ (fun n r script he => ?_) 5).2⟩
  -- the rows of the requests that resume the upload name a stage that is as it was created
  have huntouched : ∀ n < 5, ∀ row ∈ ((smallRun none createdAfterAll).session n).row,
      ∀ id ∈ row.stageIdentity, ∀ inode ∈ ((smallRun none createdAfterAll).session n).inodes id,
        inode.replayed = false := by
    decide +kernel
  have hcreation : n < 5 ∧ r.requestedRevision = none := by
    match n with
    | 0 | 2 | 4 => cases he; exact ⟨by decide, rfl⟩
    | 1 | 3 | n + 5 => cases he
  exact ⟨fun hne => absurd hcreation.2 hne, fun _ row hrow _ id inode hid hinode =>
    huntouched n hcreation.1 row hrow id hid inode hinode⟩

/-! ### Metadata that stays -/

/-- The confirmation of an upload that was to create a file replays the metadata of the target and
then finds no space. The target is gone again, and a confirmation creates the file. -/
def carriedOver : List UploadEvent :=
  retainedUpload ++
    [.request smallConfirmation (smoothly 32 ++ [{ no := true }] ++ smoothly 9),
      .retarget none,
      .request ⟨.resume 2, 2, .noReplace, none, []⟩ (smoothly 60)]

/-- A retained row bound to no revision names a stage with the metadata of the vanished target, and
the file that is created has this metadata. -/
theorem created_with_metadata_of_vanished_target :
    let ρ := smallRun none carriedOver
    (∃ row ∈ (ρ.state 4).world.row smallSite, row.state = .awaitingConfirmation ∧
      row.targetRevision = none ∧ ∃ id ∈ row.stageIdentity,
        ∃ inode ∈ (ρ.state 4).world.inodes id, inode.replayed = true) ∧
    (ρ.state 5).world.target = none ∧
    (ρ.state 6).world.published.map (fun q => (q.row.map (·.targetRevision), q.inode.attributes)) =
      [(some none, ⟨1000, 1000, 0o644, []⟩)] := by
  decide +kernel

end DufsRam
