import DufsRam.StateStore.Commands

/-!
# What one event does to the row of an upload session

`UploadStep` lists everything an event of the store can do to the row of one upload session. A save
first deletes rows that have expired, so that a key may lose its row and get a new one by a single
event; `deletes` tells these apart.
-/

namespace DufsRam

open Relational Result Option Database UploadCommand StoreEvent Table

/-- The row of an upload session. -/
def Database.upload (db : Database) (k : UploadSessionKey) : Option UploadRow :=
  db.uploadSessions.lookup k

/-- The DELETE statement of the command selects the row. -/
def UploadCommand.selects (now : TimeMs) (r : UploadRow) : UploadCommand → Bool
  | .save _ _ => r.discardable now
  | .reject .. => false
  | .removeIfMatches expected => decide (r.session = expected)
  | .removeExpiredIfMatches expected =>
    decide (r.session = expected.session) && decide (r.expiresAtMs = expected.expiresAtMs) &&
      decide (r.expiresAtMs ≤ now)

/-- The event deletes the row, should it not fail. -/
def StoreEvent.deletesUpload (e : StoreEvent) (r : UploadRow) : Bool :=
  match e.command with
  | .upload command => command.selects e.now r
  | .operation _ | .purge _ => false

/-- No row that a save leaves owns the stage of a session that is to own it. -/
def Database.StageFree (db : Database) (now : TimeMs) (s : StoredUploadSession) : Prop :=
  s.state.isTerminal = false →
    ∀ r ∈ db.uploadSessions.rows, r.discardable now = false → s.stageTakenBy r = false

/-- Everything an event can do to the row of the key `k`. -/
inductive UploadStep (e : StoreEvent) (db : Database) (k : UploadSessionKey) :
    Option UploadRow → Option UploadRow → Prop
  | kept {row} : UploadStep e db k row row
  | inserted {row s ttlMs expiresAt} (h : e.command = .upload (.save s ttlMs)) (hkey : s.key = k)
      (hfree : db.StageFree e.now s) (hrow : ∀ r ∈ row, r.discardable e.now = true) :
      UploadStep e db k row (some ⟨s, e.now, expiresAt⟩)
  | updated {r s ttlMs expiresAt} (h : e.command = .upload (.save s ttlMs)) (hkey : s.key = k)
      (hfree : db.StageFree e.now s) (hmerge : mergeUploadSession r.session s = some s) :
      UploadStep e db k (some r) (some ⟨s, e.now, expiresAt⟩)
  | rejected {r targetPath stagePath ttlMs expiresAt}
      (h : e.command = .upload (.reject k targetPath stagePath ttlMs))
      (hstate : r.session.state = .awaitingConfirmation) :
      UploadStep e db k (some r) (some ⟨{ r.session with state := .rejected }, e.now, expiresAt⟩)
  | deleted {r} (h : e.deletesUpload r = true) : UploadStep e db k (some r) none
  | recovered {r expiresAt} (h : e.command = .restart) :
      UploadStep e db k (some r) (some (r.recover e.now expiresAt))

/-! ### The commands on the row of a key -/

variable {removed : Bool} {reply : StoreUploadSession} {now : TimeMs}

section Commands

variable {limits : Limits} {e : StoreEvent} {db db' : Database} {k : UploadSessionKey}
  {s : StoredUploadSession} {ttlMs : TimeMs}

/-- What is left of a row after the DELETE of a save. -/
lemma purged_step (hcmd : e.command = .upload (.save s ttlMs)) (row : Option UploadRow) :
    UploadStep e db k row (row.filter fun r => !r.discardable e.now) := by
  cases row with
  | none => exact .kept
  | some r =>
    by_cases hdisc : r.discardable e.now = true
    · rw [filter_some_neg (by simp [hdisc])]
      exact .deleted (by simp [deletesUpload, hcmd, selects, hdisc])
    · rw [filter_some_pos (by simp [hdisc])]
      exact .kept

/-- A session that is saved takes over no stage. -/
lemma saveUploadSession_stageFree (h : saveUploadSession limits now ttlMs s db = .ok (reply, db'))
    (hrep : reply ≠ .conflict) : db.StageFree now s := by
  obtain ⟨expiresAt, -, h⟩ := bind_eq_ok_iff.1 h
  obtain ⟨existing, -, h⟩ := bind_eq_ok_iff.1 h
  intro hterm r hmem hdisc
  split at h
  case isTrue =>
    cases h
    exact absurd rfl hrep
  case isFalse hfree =>
    by_contra htaken
    refine hfree ⟨hterm, List.countP_pos_iff.2 ⟨r, ?_, by simpa using htaken⟩⟩
    exact List.mem_filter.2 ⟨hmem, by simp [hdisc]⟩

lemma save_step (hcmd : e.command = .upload (.save s ttlMs))
    (h : saveUploadSession limits e.now ttlMs s db = .ok (reply, db')) :
    UploadStep e db k (db.upload k) (db'.upload k) := by
  unfold upload
  obtain ⟨-, hdb⟩ | ⟨hrep, -, hcont, expiresAt, hrows⟩ := saveUploadSession_cases h
  · rw [hdb, lookup_purgeExpiredUploads]
    exact purged_step hcmd _
  · rw [hrows k]
    by_cases hk : s.key = k
    · subst hk
      rw [if_pos rfl]
      rw [lookup_purgeExpiredUploads] at hcont
      have hfree := saveUploadSession_stageFree h hrep
      cases hrow : db.uploadSessions.lookup s.key with
      | none => exact .inserted hcmd rfl hfree (by simp)
      | some r =>
        by_cases hdisc : r.discardable e.now = true
        · exact .inserted hcmd rfl hfree (by simp [hdisc])
        · refine .updated hcmd rfl hfree (hcont r.session ?_)
          rw [hrow, filter_some_pos (by simp [hdisc]), map_some]
    · rw [if_neg hk, lookup_purgeExpiredUploads]
      exact purged_step hcmd _

lemma reject_step {key : UploadSessionKey} {targetPath stagePath : RelPath}
    {reply : RejectUploadSession}
    (hcmd : e.command = .upload (.reject key targetPath stagePath ttlMs))
    (h : rejectUploadSession e.now ttlMs key targetPath stagePath db = .ok (reply, db')) :
    UploadStep e db k (db.upload k) (db'.upload k) := by
  obtain ⟨session, -, h⟩ := bind_eq_ok_iff.1 h
  cases session with
  | none =>
    cases h
    exact .kept
  | some session =>
    simp only at h
    split_ifs at h
    · cases h
      exact .kept
    · cases h
      exact .kept
    · cases h
      exact .kept
    · obtain ⟨expiresAt, -, h⟩ := bind_eq_ok_iff.1 h
      obtain ⟨T, hupd, h⟩ := bind_eq_ok_iff.1 h
      cases h
      unfold upload
      rw [lookup_update (constrained_eq_ok_iff.1 hupd) fun _ => rfl]
      cases hrow : db.uploadSessions.lookup k with
      | none => exact .kept
      | some r =>
        rw [map_some, assign]
        split_ifs with hsel
        · simp only [Bool.and_eq_true, decide_eq_true_eq] at hsel
          obtain rfl : r.session.key = k := key_of_lookup hrow
          exact .rejected (hsel.1 ▸ hcmd) hsel.2
        · exact .kept

lemma removeIfMatches_step {expected : StoredUploadSession}
    (hcmd : e.command = .upload (.removeIfMatches expected))
    (h : removeUploadSessionIfMatches expected db = .ok (removed, db')) :
    UploadStep e db k (db.upload k) (db'.upload k) := by
  unfold upload
  obtain ⟨-, rfl⟩ | ⟨-, hmat, hrows⟩ := removeUploadSessionIfMatches_cases h
  · exact .kept
  · rw [hrows k]
    split_ifs with hk
    · obtain ⟨r, hrow, hses⟩ := map_eq_some_iff.1 hmat
      rw [← hk, hrow]
      exact .deleted (by simp [deletesUpload, hcmd, selects, hses])
    · exact .kept

lemma removeExpiredIfMatches_step {expected : ExpiredUploadSession}
    (hcmd : e.command = .upload (.removeExpiredIfMatches expected))
    (h : removeExpiredUploadSessionIfMatches e.now expected db = .ok (removed, db')) :
    UploadStep e db k (db.upload k) (db'.upload k) := by
  obtain ⟨loaded, hload, h⟩ := bind_eq_ok_iff.1 h
  simp only at h
  split_ifs at h with hoth
  · cases h
    exact .kept
  · cases h
    push Not at hoth
    obtain ⟨-, hses, -⟩ := hoth
    rw [loadUploadSession_eq_ok hload] at hses
    unfold upload
    rw [lookup_delete]
    cases hrow : db.uploadSessions.lookup k with
    | none => exact .kept
    | some r =>
      by_cases hsel : expected.isRow e.now r = true
      · rw [filter_some_neg (by simp [hsel])]
        refine .deleted ?_
        simp only [ExpiredUploadSession.isRow, Bool.and_eq_true, decide_eq_true_eq] at hsel
        obtain ⟨⟨hkey, hexp⟩, hle⟩ := hsel
        have hk : r.session.key = k := key_of_lookup hrow
        rw [← hkey, hk, hrow] at hses
        simp only [map_some, Option.some.injEq] at hses
        simp [deletesUpload, hcmd, selects, hses, hexp, hexp ▸ hle]
      · rw [filter_some_pos (by simp [hsel])]
        exact .kept

/-- A row that a command selects for deletion is gone afterwards, unless the command is a save that
puts a new row in its place. -/
lemma UploadCommand.exec_selected {cmd : UploadCommand} {r : UploadRow}
    {res : StoreReply × Database} (h : cmd.exec limits now db = .ok res)
    (hrow : db.upload k = some r) (hsel : cmd.selects now r = true) :
    res.2.upload k = none ∨ ∃ s ttlMs, cmd = .save s ttlMs ∧ s.key = k := by
  have hkey : r.session.key = k := key_of_lookup hrow
  rw [upload] at hrow
  cases cmd with
  | save s ttlMs =>
    obtain ⟨a, hrun, rfl⟩ := map_eq_ok_iff.1 h
    by_cases hk : s.key = k
    · exact .inr ⟨s, ttlMs, rfl, hk⟩
    · left
      have hpur : (purgeExpiredUploads now db.uploadSessions).lookup k = none := by
        rw [lookup_purgeExpiredUploads, hrow]
        exact filter_some_neg (by simpa [selects] using hsel)
      obtain ⟨-, hdb⟩ | ⟨-, -, -, expiresAt, hrows⟩ := saveUploadSession_cases hrun
      · rw [upload, hdb, hpur]
      · rw [upload, hrows k, if_neg hk, hpur]
  | reject key targetPath stagePath ttlMs => simp [selects] at hsel
  | removeIfMatches expected =>
    obtain ⟨a, hrun, rfl⟩ := map_eq_ok_iff.1 h
    obtain ⟨loaded, hload, hrun⟩ := bind_eq_ok_iff.1 hrun
    simp only [selects, decide_eq_true_eq] at hsel
    have hloaded : loaded = some expected := by
      rw [loadUploadSession_eq_ok hload, ← hsel, hkey, hrow, map_some]
    rw [if_pos hloaded] at hrun
    cases hrun
    left
    rw [upload, lookup_delete, hrow]
    exact filter_some_neg (by simp [hsel])
  | removeExpiredIfMatches expected =>
    obtain ⟨a, hrun, rfl⟩ := map_eq_ok_iff.1 h
    obtain ⟨loaded, hload, hrun⟩ := bind_eq_ok_iff.1 hrun
    simp only [selects, Bool.and_eq_true, decide_eq_true_eq] at hsel
    obtain ⟨⟨hses, hexp⟩, hle⟩ := hsel
    have hloaded : loaded = some expected.session := by
      rw [loadUploadSession_eq_ok hload, ← hses, hkey, hrow, map_some]
    have hmat : ¬ (now < expected.expiresAtMs ∨ loaded ≠ some expected.session ∨
        (db.uploadSessions.lookup expected.session.key).map UploadRow.expiresAtMs ≠
          some expected.expiresAtMs) := by
      rw [← hses, hkey, hrow, map_some, hses, ← hexp]
      simp [hloaded, hle]
    rw [if_neg hmat] at hrun
    cases hrun
    left
    rw [upload, lookup_delete, hrow]
    refine filter_some_neg ?_
    simp [ExpiredUploadSession.isRow, hses, hexp, hexp ▸ hle]

lemma recover_step (hcmd : e.command = .restart)
    (h : recoverDatabase limits.ttlMs limits.uploadTtlMs e.now db = .ok db') :
    UploadStep e db k (db.upload k) (db'.upload k) := by
  obtain ⟨_, _, -, -, -, hupl, -⟩ := recoverDatabase_eq_ok_iff.1 h
  unfold upload
  rw [lookup_recoverUploadSessions hupl]
  cases hrow : db.uploadSessions.lookup k with
  | none => exact .kept
  | some r => exact .recovered hcmd

/-- An event does to the row of a key one of the things `UploadStep` lists. -/
theorem StoreEvent.exec_uploadStep (limits : Limits) (e : StoreEvent) (db : Database)
    (k : UploadSessionKey) : UploadStep e db k (db.upload k) ((e.exec limits db).2.upload k) := by
  have hdoes := e.exec_does limits db
  generalize e.exec limits db = result at hdoes ⊢
  cases hdoes with
  | failed => exact .kept
  | restarted hcmd h => exact recover_step hcmd h
  | operation _ h =>
    rw [upload, upload, (OperationEvent.exec_frame h).1]
    exact .kept
  | purge _ h =>
    rw [upload, upload, (PurgeCommand.exec_frame h).2]
    exact .kept
  | @upload command _ hcmd h =>
    cases command with
    | save s ttlMs =>
      obtain ⟨a, hrun, rfl⟩ := map_eq_ok_iff.1 h
      exact save_step hcmd hrun
    | reject key targetPath stagePath ttlMs =>
      obtain ⟨a, hrun, rfl⟩ := map_eq_ok_iff.1 h
      exact reject_step hcmd hrun
    | removeIfMatches expected =>
      obtain ⟨a, hrun, rfl⟩ := map_eq_ok_iff.1 h
      exact removeIfMatches_step hcmd hrun
    | removeExpiredIfMatches expected =>
      obtain ⟨a, hrun, rfl⟩ := map_eq_ok_iff.1 h
      exact removeExpiredIfMatches_step hcmd hrun

end Commands

end DufsRam
