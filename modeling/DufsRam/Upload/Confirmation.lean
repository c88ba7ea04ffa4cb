import DufsRam.Upload.System

/-!
# Confirmation of a retained upload

A stage that is retained for a confirmation is complete, and the client need not send it again. It
outlives every request that does not publish it, unless the request meets one of three setbacks:
the start of the commit is not stored, the space is lost after the start, or the stage could not be
synced or renamed.
-/

namespace DufsRam

open Crash Session UploadSystem UploadRun

variable {site : Site} {r : UploadRequest} {s s' : Session} {row : StoredUploadSession} {m : Inode}
  {id : StoredFileIdentity}

/-- The session still has the complete stage that the row names, under a row from which it can be
published or its outcome found. -/
structure Session.Retains (row : StoredUploadSession) (s : Session) : Prop where
  current : ∃ row', s.row = some row' ∧ row'.stageIdentity = row.stageIdentity ∧
    row'.uploadLength = row.uploadLength ∧
    (row'.state = .awaitingConfirmation ∨ row'.state = .commitStarted ∨ row'.state = .unknown)
  stage : ∃ id n, row.stageIdentity = some id ∧ s.stage = some id ∧ s.inodes id = some n ∧
    n.Full row.uploadLength

lemma Session.Retains.not_running (h : s.Retains row) {e : StoredUploadSession}
    (hrow : s.row = some e) : e.state ≠ .running := by
  obtain ⟨row', hrow', -, -, hst⟩ := h.current
  cases hrow.symm.trans hrow'
  intro hrun
  simp [hrun] at hst

/-- Only a setback lets a request give up a retained stage. -/
lemma Session.Retains.setbacks (h : s.Retains row) (hgv : s.GivesUp) : s.setbacks ≠ [] := by
  obtain ⟨row', hrow', -⟩ := h.current
  exact hgv row' hrow' (h.not_running hrow')

lemma Session.Retains.setInode {n : Inode} (h : s.Retains row) (hn : s.inodes id = some n)
    (hm : n.Full row.uploadLength → m.Full row.uploadLength) : (s.setInode id m).Retains row where
  current := h.current
  stage := by
    obtain ⟨i, k, hi, hstg, hk, hfull⟩ := h.stage
    by_cases heq : i = id
    · subst heq
      cases hn.symm.trans hk
      exact ⟨i, m, hi, hstg, by simp [Session.setInode], hm hfull⟩
    · exact ⟨i, k, hi, hstg, by simpa [Session.setInode, heq] using hk, hfull⟩

/-- An inode that only a running row may name is not the retained one. -/
lemma Session.Retains.setInode_of_running (h : s.Retains row)
    (hrow : ∀ e, s.row = some e → e.stageIdentity = some id → e.state = .running) :
    (s.setInode id m).Retains row where
  current := h.current
  stage := by
    obtain ⟨i, k, hi, hstg, hk, hfull⟩ := h.stage
    have hne : i ≠ id := by
      rintro rfl
      obtain ⟨row', hrow', hid, -⟩ := h.current
      exact h.not_running hrow' (hrow row' hrow' (hid.trans hi))
    exact ⟨i, k, hi, hstg, by simpa [Session.setInode, hne] using hk, hfull⟩

/-- The rows that can be stored over a retained one keep its stage. -/
lemma Session.Retains.save {p : StoredUploadSession} (hinv : s.Inv site) (h : s.Retains row)
    (hcont : Continues s.row p) (hsaves : s.Saves r p) :
    ({ s with row := some p } : Session).Retains row := by
  obtain ⟨e, hrow, hid, hlen, -⟩ := h.current
  obtain ⟨id, n, hrowid, hstg, hn, hfull⟩ := h.stage
  obtain ⟨-, hbnd, -, -⟩ := mergeUploadSession_eq_some (hcont e hrow)
  have hpid : p.stageIdentity = row.stageIdentity := by
    rcases hbnd.2.2.2.2.2 with hnone | heq
    · simp [hid, hrowid] at hnone
    · rw [← heq, hid]
  have hkeeps (hst : p.state = .awaitingConfirmation ∨ p.state = .commitStarted ∨
      p.state = .unknown) : ({ s with row := some p } : Session).Retains row :=
    ⟨⟨p, rfl, hpid, hbnd.2.2.2.1.symm.trans hlen, hst⟩, id, n, hrowid, hstg, hn, hfull⟩
  cases hsaves with
  | checkpoint _ _ hst =>
    exact absurd (running_of_continues hcont hrow hst) (h.not_running hrow)
  | start _ _ hst => exact hkeeps (.inr (.inl hst))
  | retain _ _ _ hst => exact hkeeps (.inl hst)
  | lose _ hst => exact hkeeps (.inr (.inr hst))
  | commit _ q _ _ _ _ _ hq hrenamed =>
    -- the stage was not renamed, since it is still there
    refine absurd ?_ (hinv.renamed q hq).2
    rw [hstg, ← hrowid, ← hpid, hrenamed]
  | reject _ _ _ _ hnone => simp [hnone] at hrow

/-- As long as there is no setback and no new publication, a retained stage is kept. -/
structure Session.Holds (row : StoredUploadSession) (before : List Publication) (s : Session) :
    Prop where
  published : before <+: s.published
  retains : s.setbacks = [] → s.published = before → s.Retains row

lemma Session.Holds.step {before : List Publication} (hinv : s.Inv site) (h : s.Holds row before)
    (hstep : Step site r s s') : s'.Holds row before := by
  cases hstep with
  | create id hstg hid =>
    refine ⟨h.published, fun hback hpub => ?_⟩
    obtain ⟨i, -, -, hsome, -⟩ := (h.retains hback hpub).stage
    simp [hstg] at hsome
  | write id n bytes hn _ _ hrow =>
    exact ⟨h.published, fun hback hpub => (h.retains hback hpub).setInode_of_running hrow⟩
  | cut id n k hn _ hrow =>
    exact ⟨h.published, fun hback hpub => (h.retains hback hpub).setInode_of_running
      fun e he hid => (hrow e he hid).1⟩
  | sync id n hn =>
    exact ⟨h.published, fun hback hpub => (h.retains hback hpub).setInode hn Inode.Full.sync⟩
  | replay id n a hn =>
    exact ⟨h.published, fun hback hpub => (h.retains hback hpub).setInode hn fun hfull =>
      hfull.congr rfl⟩
  | save p hnms hcont hsaves =>
    exact ⟨h.published, fun hback hpub => (h.retains hback hpub).save hinv hcont hsaves⟩
  | remove hopen hgv | unlink hgv =>
    exact ⟨h.published, fun hback hpub => absurd hback ((h.retains hback hpub).setbacks hgv)⟩
  | publish row' id n =>
    refine ⟨h.published.trans (List.prefix_append _ _), fun _ hpub => ?_⟩
    have hle := h.published.length_le
    have hlen := congrArg List.length hpub
    rw [List.length_append, List.length_singleton] at hlen
    omega
  | setback b => exact ⟨h.published, nofun⟩

lemma Session.Retains.restarted (h : s.Retains row) (tails : StoredFileIdentity → List UInt8) :
    (s.restarted tails).Retains row where
  current := by
    obtain ⟨row', hrow', hid, hlen, hst⟩ := h.current
    refine ⟨row'.recover, by simp [Session.restarted, hrow'], ?_, ?_, ?_⟩
    · rw [recover_eq]
      exact hid
    · rw [recover_eq]
      exact hlen
    · rw [state_recover]
      split
      · exact .inr (.inr rfl)
      · exact hst
  stage := by
    obtain ⟨id, n, hid, hstg, hn, hfull⟩ := h.stage
    refine ⟨id, n.mapData (.crash (tails id)), hid, hstg, by simp [Session.restarted, hn], ?_⟩
    exact hfull.congr (DurableFile.crash_of_clean hfull.clean)

/-- A retained row whose stage has its name is the row of a retained stage. -/
lemma Session.Inv.retains (hinv : s.Inv site) (hrow : s.row = some row)
    (hst : row.state = .awaitingConfirmation) (hstg : s.stage = row.stageIdentity) :
    s.Retains row := by
  have hok := hinv.row row hrow
  obtain ⟨id, hid⟩ := Option.ne_none_iff_exists'.1 (hok.owned (by rw [hst]; rfl))
  obtain ⟨n, hn, hrel⟩ := hok.recorded id hid
  exact ⟨⟨row, hrow, rfl, rfl, .inl hst⟩, id, n, hid, hstg.trans hid, hn, hrel.full (.inr hst)⟩

/-- A request that finds a retained upload, meets none of the setbacks and publishes nothing leaves
the complete stage under a row that awaits confirmation, has a started commit or is unknown; and so
it is after the restart that follows a crash. -/
theorem confirmation_keeps_stage (ρ : UploadRun site) (n : ℕ) (r : UploadRequest)
    (script : List Answer) (row : StoredUploadSession) (he : ρ.schedule n = .request r script)
    (hrow : (ρ.state n).world.row site = some row) (hstate : row.state = .awaitingConfirmation)
    (hstage : (ρ.state n).world.stage = row.stageIdentity)
    (hback : (ρ.state (n + 1)).world.setbacks = [])
    (hpub : (ρ.state (n + 1)).world.published = (ρ.state n).world.published) :
    (ρ.session (n + 1)).Retains row ∧
      ∀ now tails, ρ.schedule (n + 1) = .restart now tails → (ρ.session (n + 2)).Retains row := by
  have hinv := inv (ρ := ρ) n
  have hbefore := hinv.retains hrow hstate hstage
  have hafter : (ρ.session (n + 1)).Retains row := by
    have hmoved := (step_cases n hinv).1
    rw [he] at hmoved
    have hbegin : ({ ρ.session n with setbacks := [] } : Session).Holds row
        (ρ.session n).published := ⟨List.prefix_rfl, fun _ _ => ⟨hbefore.current, hbefore.stage⟩⟩
    cases hmoved with
    | request r script hreach =>
      exact (hreach.induct (P := Holds row (ρ.session n).published)
        (fun hinv h hstep => h.step hinv hstep) (hinv.setbacks []) hbegin).2.retains hback hpub
    | none _ heq => rwa [heq]
  refine ⟨hafter, fun now tails hrestart => ?_⟩
  have hmoved := (step_cases (n + 1) (inv (ρ := ρ) (n + 1))).1
  rw [hrestart] at hmoved
  cases hmoved with
  | restart now tails heq => exact heq ▸ hafter.restarted tails
  | none _ heq => rwa [heq]

/-- The replacement finds no space after it has replayed the metadata of the target. -/
theorem confirmation_keeps_stage_without_space :
    let ρ := smallRun none (retainedUpload ++
      [.request smallConfirmation (smoothly 32 ++ [{ no := true }] ++ smoothly 9)])
    ∃ row, (ρ.state 3).world.row smallSite = some row ∧ row.state = .awaitingConfirmation ∧
      (ρ.session 4).Retains row := by
  intro ρ
  have hfound : ∃ row ∈ (ρ.state 3).world.row smallSite, row.state = .awaitingConfirmation ∧
      (ρ.state 3).world.stage = row.stageIdentity := by decide +kernel
  obtain ⟨row, hrow, hstate, hstage⟩ := hfound
  have hkept := confirmation_keeps_stage ρ 3 _ _ row rfl hrow hstate hstage (by decide +kernel)
    (by decide +kernel)
  exact ⟨row, hrow, hstate, hkept.1⟩

/-- The replacement cannot sync the stage once its start is recorded: nothing is published, and the
complete stage is discarded. -/
theorem confirmation_discards_unsynced_stage :
    let ρ := smallRun none (retainedUpload ++ [.request smallConfirmation
      (smoothly 39 ++ [{ error := some .other }] ++ smoothly 20)])
    (∃ row ∈ (ρ.state 3).world.row smallSite, row.state = .awaitingConfirmation ∧
      (ρ.state 3).world.stage = row.stageIdentity) ∧
    (ρ.state 4).world.published = [] ∧ (ρ.state 4).world.stage = none ∧
    ∃ row ∈ (ρ.state 4).world.row smallSite, row.state = .rejected := by
  decide +kernel

end DufsRam
