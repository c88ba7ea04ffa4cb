import DufsRam.StateStore.PurgeStep
import DufsRam.StateStore.UploadStep

/-!
# The blocking paths along a run

The rows on which a scan of the blocking paths depends, and what one event of the store can add to
them: only a save and the preparation of a job bring new paths.
-/

namespace DufsRam

open Relational List PurgeRow

/-! ### The paths of a row -/

variable {b : StateBlockingPath} {c : StatePathCursor} {r : UploadRow} {db : Database}
  {k : UploadSessionKey}

/-- The paths of an upload session and of a purge job. -/
lemma mem_uploadRow_statePaths : (c, b) ∈ r.statePaths ↔ r.session.state.ownsStage = true ∧
      (c = ⟨0, r.session.key.owner, r.session.key.id, 0⟩ ∧
          b = ⟨r.session.targetPath, decide (r.session.state = .running)⟩ ∨
        c = ⟨0, r.session.key.owner, r.session.key.id, 1⟩ ∧ b = ⟨r.session.stagePath, false⟩) := by
  unfold UploadRow.statePaths
  split_ifs with howns <;> simp [howns]

lemma mem_purgeRow_statePaths {r : PurgeRow} : (c, b) ∈ r.statePaths ↔
      (r.job.state = .prepared ∧ c = ⟨1, r.job.key.owner, r.job.key.id, 0⟩ ∧
          b = ⟨r.job.targetPath, false⟩) ∨
        c = ⟨1, r.job.key.owner, r.job.key.id, 1⟩ ∧ b = ⟨r.job.trashPath, false⟩ := by
  unfold statePaths
  split_ifs with hprep <;> simp [hprep]

lemma upload_eq_some_iff : db.upload k = some r ↔ r ∈ db.uploadSessions.rows ∧ r.session.key = k :=
  Table.lookup_eq_some_iff

lemma purge_eq_some_iff {k : PurgeJobKey} {r : PurgeRow} :
    db.purge k = some r ↔ r ∈ db.purgeJobs.rows ∧ r.job.key = k :=
  Table.lookup_eq_some_iff

/-- Every blocking path belongs to the row of its cursor. -/
lemma mem_statePaths : (c, b) ∈ db.statePaths ↔
      (c.kind = 0 ∧ ∃ r, db.upload ⟨c.owner, c.id⟩ = some r ∧ (c, b) ∈ r.statePaths) ∨
        (c.kind = 1 ∧ ∃ r, db.purge ⟨c.owner, c.id⟩ = some r ∧ (c, b) ∈ r.statePaths) := by
  rw [Database.statePaths, mem_append, mem_flatMap, mem_flatMap]
  refine or_congr ⟨?_, ?_⟩ ⟨?_, ?_⟩
  · rintro ⟨r, hr, hmem⟩
    obtain ⟨-, ⟨rfl, -⟩ | ⟨rfl, -⟩⟩ := mem_uploadRow_statePaths.1 hmem <;>
      exact ⟨rfl, r, upload_eq_some_iff.2 ⟨hr, rfl⟩, hmem⟩
  · rintro ⟨-, r, hr, hmem⟩
    exact ⟨r, (upload_eq_some_iff.1 hr).1, hmem⟩
  · rintro ⟨r, hr, hmem⟩
    obtain ⟨-, rfl, -⟩ | ⟨rfl, -⟩ := mem_purgeRow_statePaths.1 hmem <;>
      exact ⟨rfl, r, purge_eq_some_iff.2 ⟨hr, rfl⟩, hmem⟩
  · rintro ⟨-, r, hr, hmem⟩
    exact ⟨r, (purge_eq_some_iff.1 hr).1, hmem⟩

/-! ### The cursors are unique -/

lemma nodup_map_uploadRow_statePaths (r : UploadRow) : (r.statePaths.map Prod.fst).Nodup := by
  unfold UploadRow.statePaths
  split_ifs <;> simp

lemma nodup_map_purgeRow_statePaths (r : PurgeRow) : (r.statePaths.map Prod.fst).Nodup := by
  unfold statePaths
  split_ifs <;> simp

/-- The keys of a list that is put together from rows with keys of their own. -/
lemma nodup_map_flatMap {ρ κ α β : Type} {key : ρ → κ} {entries : ρ → List (α × β)}
    (owner : α → κ) {rows : List ρ} (hrows : (rows.map key).Nodup)
    (hents : ∀ r, ((entries r).map Prod.fst).Nodup)
    (hown : ∀ r, ∀ e ∈ entries r, owner e.1 = key r) :
    ((rows.flatMap entries).map Prod.fst).Nodup := by
  induction rows with
  | nil => simp
  | cons r rows ih =>
    rw [map_cons, nodup_cons] at hrows
    rw [flatMap_cons, map_append, nodup_append']
    refine ⟨hents r, ih hrows.2, fun a ha ha' => ?_⟩
    obtain ⟨e, he, rfl⟩ := mem_map.1 ha
    obtain ⟨e', he', heq⟩ := mem_map.1 ha'
    obtain ⟨r', hr', he'⟩ := mem_flatMap.1 he'
    refine hrows.1 (mem_map.2 ⟨r', hr', ?_⟩)
    rw [← hown r' e' he', heq, hown r e he]

theorem nodup_statePaths (db : Database) : (db.statePaths.map Prod.fst).Nodup := by
  rw [Database.statePaths, map_append, nodup_append']
  refine ⟨?_, ?_, ?_⟩
  · refine nodup_map_flatMap (fun c : StatePathCursor => (⟨c.owner, c.id⟩ : UploadSessionKey))
      db.uploadSessions.keys_nodup nodup_map_uploadRow_statePaths ?_
    rintro r ⟨c, b⟩ hmem
    obtain ⟨-, ⟨rfl, -⟩ | ⟨rfl, -⟩⟩ := mem_uploadRow_statePaths.1 hmem <;> rfl
  · refine nodup_map_flatMap (fun c : StatePathCursor => (⟨c.owner, c.id⟩ : PurgeJobKey))
      db.purgeJobs.keys_nodup nodup_map_purgeRow_statePaths ?_
    rintro r ⟨c, b⟩ hmem
    obtain ⟨-, rfl, -⟩ | ⟨rfl, -⟩ := mem_purgeRow_statePaths.1 hmem <;> rfl
  · -- uploads and jobs differ in the kind of their cursors
    intro c hc hc'
    obtain ⟨⟨c, b⟩, hmem, rfl⟩ := mem_map.1 hc
    obtain ⟨⟨c', b'⟩, hmem', hcc⟩ := mem_map.1 hc'
    obtain ⟨r, -, hmem⟩ := mem_flatMap.1 hmem
    obtain ⟨r', -, hmem'⟩ := mem_flatMap.1 hmem'
    obtain ⟨-, hcur⟩ := mem_uploadRow_statePaths.1 hmem
    have hcur' := mem_purgeRow_statePaths.1 hmem'
    simp only at hcc
    subst hcc
    rcases hcur with ⟨rfl, -⟩ | ⟨rfl, -⟩ <;> simp at hcur'

/-! ### What an event adds -/

section Event

variable {limits : Limits} {e : StoreEvent}

/-- A row after an event was saved by it, or has the paths it had before. -/
lemma UploadStep.paths {row row' : Option UploadRow}
    (h : UploadStep e db k row row') {r' : UploadRow} (hrow' : row' = some r') :
    (∃ s ttlMs, e.command = .upload (.save s ttlMs) ∧ s.key = k ∧ r'.session = s) ∨
      ∃ r, row = some r ∧ r.session.targetPath = r'.session.targetPath ∧
        r.session.stagePath = r'.session.stagePath ∧
        (r'.session.state.ownsStage = true → r.session.state = r'.session.state) := by
  cases h with
  | kept => exact .inr ⟨r', hrow', rfl, rfl, fun _ => rfl⟩
  | inserted hcmd hkey | updated hcmd hkey =>
    cases hrow'
    exact .inl ⟨_, _, hcmd, hkey, rfl⟩
  | rejected =>
    cases hrow'
    exact .inr ⟨_, rfl, rfl, rfl, by simp [StoredUploadState.ownsStage]⟩
  | deleted => cases hrow'
  | @recovered r expiresAt _ =>
    cases hrow'
    refine .inr ⟨r, rfl, ?_⟩
    rw [UploadRow.session_recover]
    split_ifs with hsta
    · exact ⟨rfl, rfl, by simp [StoredUploadState.ownsStage]⟩
    · exact ⟨rfl, rfl, fun _ => rfl⟩

lemma PurgeStep.paths {reply : StoreReply} {k : PurgeJobKey} {row row' : Option PurgeRow}
    (h : PurgeStep e reply k row row') {r' : PurgeRow} (hrow' : row' = some r') :
    (∃ job, e.command = .purge (.prepare job) ∧ job.key = k ∧ r' = .prepare e.now job) ∨
      ∃ r, row = some r ∧ r.job.targetPath = r'.job.targetPath ∧
        r.job.trashPath = r'.job.trashPath ∧
        (r'.job.state = .prepared → r.job.state = .prepared) := by
  cases h with
  | kept => exact .inr ⟨r', hrow', rfl, rfl, id⟩
  | prepared hcmd hkey =>
    cases hrow'
    exact .inl ⟨_, hcmd, hkey, rfl⟩
  | readied _ hst =>
    cases hrow'
    exact .inr ⟨_, rfl, rfl, rfl, fun _ => hst⟩
  | claimed =>
    cases hrow'
    exact .inr ⟨_, rfl, rfl, rfl, by simp [claim]⟩
  | retried =>
    cases hrow'
    exact .inr ⟨_, rfl, rfl, rfl, by simp [retry]⟩
  | completed | removed => cases hrow'
  | @recovered r _ _ =>
    cases hrow'
    refine .inr ⟨r, rfl, ?_⟩
    rw [job_recover]
    split_ifs
    · exact ⟨rfl, rfl, by simp⟩
    · exact ⟨rfl, rfl, id⟩

/-- The path comes from the session that the event saves, or the job that it prepares. -/
inductive StoreEvent.Introduces (e : StoreEvent) (c : StatePathCursor) (path : RelPath) : Prop
  | target {s ttlMs} (h : e.command = .upload (.save s ttlMs))
      (hcursor : c = ⟨0, s.key.owner, s.key.id, 0⟩) (hpath : path = s.targetPath)
  | stage {s ttlMs} (h : e.command = .upload (.save s ttlMs))
      (hcursor : c = ⟨0, s.key.owner, s.key.id, 1⟩) (hpath : path = s.stagePath)
  | deleted {job} (h : e.command = .purge (.prepare job))
      (hcursor : c = ⟨1, job.key.owner, job.key.id, 0⟩) (hpath : path = job.targetPath)
  | trash {job} (h : e.command = .purge (.prepare job))
      (hcursor : c = ⟨1, job.key.owner, job.key.id, 1⟩) (hpath : path = job.trashPath)

/-- A blocking path after an event is new by it or was one before. -/
theorem StoreEvent.exec_statePaths (h : (c, b) ∈ (e.exec limits db).2.statePaths) :
    e.Introduces c b.path ∨ (c, b) ∈ db.statePaths := by
  rcases mem_statePaths.1 h with ⟨hkind, r', hrow', hmem⟩ | ⟨hkind, r', hrow', hmem⟩
  · have hkey := (upload_eq_some_iff.1 hrow').2
    obtain ⟨howns, hent⟩ := mem_uploadRow_statePaths.1 hmem
    rcases (StoreEvent.exec_uploadStep limits e db _).paths hrow' with
      ⟨s, ttlMs, hcmd, -, hs⟩ | ⟨r, hrow, htgt, hstg, hst⟩
    · left
      rw [hs] at hent
      rcases hent with ⟨hcur, rfl⟩ | ⟨hcur, rfl⟩
      · exact .target hcmd hcur rfl
      · exact .stage hcmd hcur rfl
    · right
      have hkey' := (upload_eq_some_iff.1 hrow).2
      rw [← hkey'] at hkey
      rw [hkey, ← htgt, ← hstg, ← hst howns] at hent
      exact mem_statePaths.2 (.inl ⟨hkind, r, hrow,
        mem_uploadRow_statePaths.2 ⟨hst howns ▸ howns, hent⟩⟩)
  · have hkey := (purge_eq_some_iff.1 hrow').2
    have hent := mem_purgeRow_statePaths.1 hmem
    rcases (StoreEvent.exec_purgeStep limits e db _).paths hrow' with
      ⟨job, hcmd, -, rfl⟩ | ⟨r, hrow, htgt, htr, hst⟩
    · left
      rcases hent with ⟨-, hcur, rfl⟩ | ⟨hcur, rfl⟩
      · exact .deleted hcmd hcur rfl
      · exact .trash hcmd hcur rfl
    · right
      have hkey' := (purge_eq_some_iff.1 hrow).2
      rw [← hkey'] at hkey
      rw [hkey, ← htgt, ← htr] at hent
      exact mem_statePaths.2 (.inr ⟨hkind, r, hrow, mem_purgeRow_statePaths.2
        (hent.imp_left fun hprep => ⟨hst hprep.1, hprep.2⟩)⟩)

end Event

end DufsRam
