import DufsRam.Upload.System

/-!
# Publication and crashes

The rename that publishes an upload happens under a recorded start, the record tells of it from
then on, and a response that reports a commit is about such a rename.
-/

namespace DufsRam

open Crash Session UploadSystem UploadRun

variable {site : Site} {r : UploadRequest} {s s' : Session}

/-- Every rename was made under a row that named its inode and length, and a committed row tells of
a rename. -/
structure Session.Renamed (s : Session) : Prop where
  started : ∀ q ∈ s.published, ∃ row, q.row = some row ∧ row.state = .commitStarted ∧
    row.stageIdentity = some q.identity ∧ row.uploadLength = q.inode.length
  committed : ∀ row, s.row = some row → row.state = .committed →
    ∃ q ∈ s.published, row.stageIdentity = some q.identity ∧ row.uploadLength = q.inode.length

lemma Session.Saves.committed {p : StoredUploadSession} (h : s.Saves r p)
    (hst : p.state = .committed) :
    ∃ q ∈ s.published, p.stageIdentity = some q.identity ∧ p.uploadLength = q.inode.length := by
  cases h with
  | commit e q _ _ _ _ _ hq hid hlen => exact ⟨q, hq, hid, hlen.symm⟩
  | checkpoint _ _ hs | start _ _ hs | retain _ _ _ hs | lose _ hs | reject hs => simp [hs] at hst

lemma Session.Renamed.step (h : s.Renamed) (hstep : Step site r s s') : s'.Renamed := by
  cases hstep with
  | create | write | cut | sync | replay | unlink | setback => exact ⟨h.started, h.committed⟩
  | remove => exact ⟨h.started, nofun⟩
  | save p _ _ hsaves =>
    refine ⟨h.started, fun row hrow hst => ?_⟩
    cases hrow
    exact hsaves.committed hst
  | publish row id n hrow hsta hid _ _ hfull =>
    refine ⟨fun q hq => ?_, fun row' hrow' hst => ?_⟩
    · rcases List.mem_append.1 hq with hq | hq
      · exact h.started q hq
      · cases List.mem_singleton.1 hq
        exact ⟨row, hrow, hsta, hid, hfull.length_eq.symm⟩
    · obtain ⟨q, hq, htells⟩ := h.committed row' hrow' hst
      exact ⟨q, List.mem_append_left _ hq, htells⟩

lemma Session.Renamed.restarted (h : s.Renamed) (tails : StoredFileIdentity → List UInt8) :
    (s.restarted tails).Renamed := by
  refine ⟨h.started, fun row hrow hst => ?_⟩
  obtain ⟨row', hrow', rfl⟩ := Option.map_eq_some_iff.1 hrow
  rw [state_recover] at hst
  split at hst
  · cases hst
  · rw [recover_eq]
    exact h.committed row' hrow' hst

namespace UploadRun

variable {ρ : UploadRun site}

lemma renamed (n : ℕ) : (ρ.session n).Renamed := by
  refine (invariant (P := Renamed) ⟨nofun, fun row hrow => ?_⟩ (fun n hinv h hmv => ?_) n).2
  · cases session_zero.symm.trans hrow
  · exact (hmv.induct hinv h ⟨h.started, h.committed⟩ (fun r _ _ _ _ _ h hs => h.step hs)
      h.restarted fun _ => ⟨h.started, nofun⟩).2

end UploadRun

/-- A settled row of the site is reported as committed or unknown, whatever the files are. -/
lemma classifyStoredSession_of_settled {row : StoredUploadSession}
    {inodes : StoredFileIdentity → Option Inode}
    (h : RowOk site inodes row) (hst : Settled row.state) (script : List Answer) (w : World) :
    ∃ c, classifyStoredSession site row script w = .done (.found c) script w ∧
      (c.state = .committed ∨ c.state = .unknown) := by
  refine ⟨uploadCheckpoint row, ?_, ?_⟩
  · have hpart : ¬ ((row.state = .running ∨ row.state = .awaitingConfirmation) ∧
        row.durableOffset < row.uploadLength) := by
      rcases hst with hs | hs | hs <;> simp [hs]
    rw [classifyStoredSession, if_neg (by simp [h.targetPath, h.stagePath]), if_neg hpart]
    rfl
  · rcases hst with hs | hs | hs <;> simp [uploadCheckpoint, hs, StoredUploadState.toRecordState]

/-- In every state of every run: a rename was made under a recorded start; while no row was purged
after its expiry, a rename is reported as committed or unknown by every status lookup; and a
response that reports a commit is about a rename of the recorded inode, which had the length the
response states. -/
theorem publication_crash_consistent (ρ : UploadRun site) (n : ℕ) :
    (∀ q ∈ (ρ.state n).world.published, ∃ row, q.row = some row ∧ row.state = .commitStarted ∧
      row.stageIdentity = some q.identity) ∧
    ((ρ.state n).world.published ≠ [] → (ρ.state n).world.purged = false →
      ∃ row, (ρ.state n).world.row site = some row ∧ ∀ script w, ∃ c,
        classifyStoredSession site row script w = .done (.found c) script w ∧
          (c.state = .committed ∨ c.state = .unknown)) ∧
    (∀ a ∈ (ρ.state n).log, a.response.state = some .committed →
      ∃ length, a.response.uploadLength = some length ∧ ∃ q ∈ a.world.published, ∃ row,
        q.row = some row ∧ row.stageIdentity = some q.identity ∧ row.uploadLength = length ∧
          q.inode.length = length) := by
  refine ⟨fun q hq => ?_, fun hpub hpurged => ?_, fun a ha hcommitted => ?_⟩
  · obtain ⟨row, hrow, hstate, hid, -⟩ := (renamed n).started q hq
    exact ⟨row, hrow, hstate, hid⟩
  · obtain ⟨row, hrow, hsettled⟩ := (inv n).published hpub hpurged
    exact ⟨row, hrow, classifyStoredSession_of_settled ((inv n).row row hrow) hsettled⟩
  · obtain ⟨hhonest, k, hk⟩ := answered ha
    have hanswer : ∃ r, a.request = some r ∨ a.request = none := by
      cases hr : a.request with
      | none => exact ⟨smallPut, .inr rfl⟩
      | some r => exact ⟨r, .inl rfl⟩
    obtain ⟨r, hr⟩ := hanswer
    obtain ⟨row, hrow, hstate, hlength⟩ := (hhonest r hr).committed hcommitted
    have hrenamed : (a.world.session site).Renamed := hk ▸ renamed k
    obtain ⟨q, hq, -, hql⟩ := hrenamed.committed row hrow hstate
    obtain ⟨row', hrow', -, hid', hlength'⟩ := hrenamed.started q hq
    exact ⟨_, hlength, q, hq, row', hrow', hid', hlength'.trans hql.symm, hql.symm⟩

/-- A fresh upload that meets no trouble is published and found as committed or unknown. -/
theorem publication_crash_consistent_smooth :
    let ρ := smallRun none [.request smallPut (smoothly 60)]
    (ρ.state 1).world.published ≠ [] ∧ (ρ.state 1).world.purged = false ∧
      ∃ row, (ρ.state 1).world.row smallSite = some row ∧ ∀ script w, ∃ c,
        classifyStoredSession smallSite row script w = .done (.found c) script w ∧
          (c.state = .committed ∨ c.state = .unknown) := by
  have hpub : ((smallRun none [.request smallPut (smoothly 60)]).state 1).world.published ≠ [] := by
    decide +kernel
  have hpurged : ((smallRun none [.request smallPut (smoothly 60)]).state 1).world.purged =
      false := by decide +kernel
  exact ⟨hpub, hpurged, (publication_crash_consistent _ 1).2.1 hpub hpurged⟩

end DufsRam
