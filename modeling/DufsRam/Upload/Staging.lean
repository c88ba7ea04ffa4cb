import DufsRam.Upload.Quiet

/-!
# What the record store does to a session

The steps on an open descriptor, the checkpoints and the cleanup, each with the changes of the
session it makes. A descriptor that a request writes to stands at the end of an inode that was
written without gaps, and what is queued belongs there.
-/

namespace DufsRam

open Crash Relational Ensures StageFile UploadRecordContext DurableFile Inode

variable {site : Site} {r : UploadRequest} {w w' : World} {s s' : Session} {file : StageFile}
  {pos k : ℕ} {id : StoredFileIdentity} {n : Inode} {existing : Option StoredUploadSession}

/-! ### Descriptors -/

lemma UploadRequest.Sends.append {a b : List UInt8} (h : r.Sends pos (a ++ b)) :
    r.Sends pos a ∧ r.Sends (pos + a.length) b := by
  obtain ⟨hle, rest, hrest⟩ := h
  refine ⟨⟨hle, b ++ rest, by rw [← hrest, List.append_assoc]⟩, by omega, rest, ?_⟩
  have hdrop : pos + a.length - r.initialOffset = (pos - r.initialOffset) + a.length := by omega
  rw [hdrop, ← List.drop_drop, ← hrest, List.append_assoc, List.drop_left]

namespace StageFile

/-- The descriptor after everything queued has reached the file. -/
def flushed (file : StageFile) : StageFile := file.advance file.queued.length

@[simp] lemma identity_advance (k : ℕ) : (file.advance k).identity = file.identity := rfl

@[simp] lemma queued_flushed : file.flushed.queued = [] := by simp [flushed, advance]

lemma flushed_of_idle (h : file.queued = []) : file.flushed = file := by
  cases file
  simp_all [flushed, advance]

lemma advance_of_idle (h : file.queued = []) (k : ℕ) : file.advance k = file := by
  cases file
  simp_all [advance]

lemma land_of_idle (h : file.queued = []) (k : ℕ) : file.land k w = w := by
  have hid : writeAt 0 file.pos (file.queued.take k) = id := by
    funext f
    simp [h, writeAt]
  have hmap : mapData id = id := funext mapData_id
  simp [land, World.mapData, World.mapInode, hid, hmap]

end StageFile

lemma session_mapInode (f : Inode → Inode) (hn : w.inodes id = some n) :
    (w.mapInode id f).session site = (w.session site).setInode id (f n) := by
  simp [World.mapInode, Session.setInode, World.session, World.row, hn]

namespace Session

/-- A descriptor at the end of its inode, and what is queued in it. -/
structure Written (r : UploadRequest) (file : StageFile) (s : Session) : Prop where
  inode : ∃ n, s.inodes file.identity = some n ∧ n.data.Whole ∧ n.length = file.pos ∧
    (s.row = none → n.replayed = false)
  sends : r.Sends file.pos file.queued
  running : file.queued ≠ [] → ∀ row, s.row = some row →
    row.stageIdentity = some file.identity → row.state = .running

/-- A descriptor whose inode is what the stage path names, full and synced. -/
structure Synced (file : StageFile) (n : Inode) (s : Session) : Prop where
  stage : s.stage = some file.identity
  inode : s.inodes file.identity = some n
  full : n.Full file.pos
  created : s.row = none → n.replayed = false

lemma Kept.setInode (h : Kept s s') : Kept s (s'.setInode id n) :=
  ⟨h.row, h.stage, h.published, h.setbacks, h.purged⟩

lemma Written.quiet (h : Written r file s) (hq : Quiet s s') : Written r file s' where
  inode := by
    rw [hq.inodes, hq.row]
    exact h.inode
  sends := h.sends
  running := by
    rw [hq.row]
    exact h.running

/-- The descriptor is still written when its inode was replaced by one of the same contents. -/
lemma Written.setInode {n' : Inode} (h : Written r file s) (hn : s.inodes file.identity = some n)
    (hcnt : n'.data.content = n.data.content) (hint : n'.data.intact = n.data.intact)
    (hrepl : s.row = none → n'.replayed = n.replayed) :
    Written r file (s.setInode file.identity n') where
  inode := by
    obtain ⟨m, hm, hwhole, hlen, hcre⟩ := h.inode
    cases hn.symm.trans hm
    refine ⟨n', by simp [Session.setInode], ?_, ?_, fun hrow => ?_⟩
    · rw [DurableFile.Whole, hint, hcnt]
      exact hwhole
    · rw [length, hcnt]
      exact hlen
    · rw [hrepl hrow]
      exact hcre hrow
  sends := h.sends
  running := h.running

lemma Synced.quiet (h : Synced file n s) (hq : Quiet s s') : Synced file n s' :=
  ⟨hq.stage.trans h.stage, hq.inodes ▸ h.inode, h.full, hq.row ▸ h.created⟩

lemma Synced.written (h : Synced file n s) (hidle : file.queued = [])
    (hle : r.initialOffset ≤ file.pos) : Written r file s where
  inode := ⟨n, h.inode, h.full.whole, h.full.length_eq, h.created⟩
  sends := ⟨hle, by simp [hidle]⟩
  running := fun hne => absurd hidle hne

end Session

open Session

section Descriptor

/-- Part of the queue reaches the file. -/
lemma Session.Written.land (k : ℕ) (h : Written r file (w.session site)) :
    (Session.protocol site r).Reach (w.session site) ((file.land k w).session site) ∧
      Kept (w.session site) ((file.land k w).session site) ∧
      Written r (file.advance k) ((file.land k w).session site) := by
  by_cases hidle : file.queued = []
  · rw [land_of_idle hidle, advance_of_idle hidle]
    exact ⟨.refl _, .refl _, h⟩
  · obtain ⟨n, hn, hwhole, hlen, hcre⟩ := h.inode
    have hspl := h.sends
    rw [← List.take_append_drop k file.queued] at hspl
    obtain ⟨hnow, hlater⟩ := hspl.append
    have hcnt : n.data.content.length = file.pos := hlen
    have heq : (file.land k w).session site = (w.session site).setInode file.identity
        (n.mapData (.writeAt 0 file.pos (file.queued.take k))) :=
      session_mapInode _ hn
    rw [heq]
    refine ⟨.single ?_, (Kept.refl _).setInode, ?_, ?_, fun hne row hrow hid => ?_⟩
    · rw [← hlen]
      exact .write _ file.identity n _ hn hwhole (hlen ▸ hnow) (h.running hidle)
    · refine ⟨n.mapData (.writeAt 0 file.pos (file.queued.take k)),
        by simp [Session.setInode], ?_, ?_, hcre⟩
      · exact whole_writeAt_end hwhole hcnt
      · rw [length, data_mapData, content_writeAt_end hcnt]
        simp [hcnt, advance]
    · exact hlater
    · exact h.running hidle row hrow hid

section

variable (hk : Kept s (w.session site)) (h : Written r file (w.session site))

include hk h

lemma flush_runs :
    Runs site r file.flush (fun file' s' => file' = file.flushed ∧ Kept s s' ∧ Written r file' s')
      (Fails (Kept s)) w := by
  refine ask_bind fun a => ?_
  cases a.error with
  | some kind =>
    obtain ⟨hrch, hkept, -⟩ := h.land a.amount
    exact .modify_bind hrch (.throw ⟨⟨_, rfl⟩, hk.trans hkept⟩)
  | none =>
    obtain ⟨hrch, hkept, hwr⟩ := h.land file.queued.length
    exact .modify_bind hrch (.pure ⟨rfl, hk.trans hkept, hwr⟩)

lemma drop_runs {E : Exit → Session → Prop} : Runs site r file.drop (fun _ => Kept s) E w := by
  refine ask_bind fun a => ?_
  obtain ⟨hrch, hkept, -⟩ := h.land a.amount
  exact .modify hrch (hk.trans hkept)

lemma metadata_runs : Runs site r file.metadata
      (fun x s' => Kept s s' ∧ Written r x.1 s' ∧ x.1.identity = file.identity ∧
        x.2.identity = file.identity ∧ x.2.length = x.1.pos ∧ (file.queued = [] → x.1 = file))
      (Fails fun s' => Kept s s' ∧ Written r file s') w := by
  refine seq (fsStep_runs (.refl _))
    (fun e w' he => he.mono fun hq => ⟨hk.trans hq.kept, h.quiet hq⟩) fun a w' hq => ?_
  obtain ⟨hrch, hkept, hwr⟩ := (h.quiet hq).land a.amount
  refine .modify_bind hrch (.get_bind ?_)
  obtain ⟨n, hn, -, hlen, -⟩ := hwr.inode
  have hn' : (file.land a.amount w').inodes file.identity = some n := hn
  rw [hn']
  exact .pure ⟨(hk.trans hq.kept).trans hkept, hwr, rfl, rfl, hlen,
    fun hidle => advance_of_idle hidle _⟩

end

/-- The metadata of a descriptor with nothing queued. -/
lemma metadata_idle_runs {π : Protocol Session} (hq : Quiet s (w.session site))
    (hidle : file.queued = []) :
    RunsIn site π file.metadata
      (fun x s' => Quiet s s' ∧ x.1 = file ∧ x.2.identity = file.identity ∧
        ∃ n, s.inodes file.identity = some n ∧ x.2.length = n.length)
      (Fails (Quiet s)) w := by
  refine bind (fsStep_runs hq) fun a w' hq => ?_
  refine .modify_bind (.of_eq (by rw [land_of_idle hidle])) (.get_bind ?_)
  rw [land_of_idle hidle]
  cases hn : w'.inodes file.identity with
  | none => exact .throw ⟨⟨_, rfl⟩, hq⟩
  | some n =>
    exact .pure ⟨hq, advance_of_idle hidle _, rfl, n, hq.inodes ▸ hn, rfl⟩

lemma seek_runs (hq : Quiet s (w.session site)) :
    Runs site r (file.seek pos) (fun file' s' => Quiet s s' ∧ file' = { file with pos := pos })
      (Fails (Quiet s)) w :=
  (fsStep_runs hq).bind fun _ _ hq => .pure ⟨hq, rfl⟩

lemma syncFileToStorage_runs (hk : Kept s (w.session site))
    (hn : (w.session site).inodes file.identity = some n) : Runs site r (syncFileToStorage file)
      (fun _ s' => Kept s s' ∧ ∃ s₁, Quiet (w.session site) s₁ ∧
        s' = s₁.setInode file.identity (n.mapData .sync))
      (Fails fun s' => Kept s s' ∧ Quiet (w.session site) s') w := by
  refine seq (fsStep_runs (.refl _))
    (fun e w' he => he.mono fun hq => ⟨hk.trans hq.kept, hq⟩) fun a w' hq => ?_
  have hn' : w'.inodes file.identity = some n := by
    rw [← hn]
    exact congrFun hq.inodes _
  have heq : (w'.mapData file.identity .sync).session site =
      (w'.session site).setInode file.identity (n.mapData .sync) := session_mapInode _ hn'
  refine .modify ?_ ?_
  · rw [heq]
    exact .single (.sync _ _ n hn')
  · rw [heq]
    exact ⟨(hk.trans hq.kept).setInode, _, hq, rfl⟩

/-- A cut back to an offset that the row does not exceed. -/
lemma reach_resize (site : Site) (r : UploadRequest) (hn : w.inodes id = some n) (hk : k ≤ n.length)
    (hrow : ∀ row, (w.session site).row = some row → row.stageIdentity = some id →
      row.state = .running ∧ row.durableOffset ≤ k) :
    (Session.protocol site r).Reach (w.session site) ((w.mapData id (.resize 0 k)).session site) ∧
      (w.mapData id (.resize 0 k)).session site =
        (w.session site).setInode id (n.mapData (.resize 0 k)) := by
  have heq : (w.mapData id (.resize 0 k)).session site =
      (w.session site).setInode id (n.mapData (.resize 0 k)) := session_mapInode _ hn
  exact ⟨heq ▸ .single (.cut _ id n k hn hk hrow), heq⟩

lemma setLen_runs (hkept : Kept s (w.session site)) (h : Written r file (w.session site))
    (hk : k ≤ file.pos) (hrow : ∀ row, s.row = some row → row.stageIdentity = some file.identity →
      row.state = .running ∧ row.durableOffset ≤ k) : Runs site r (file.setLen k)
      (fun file' s' => Kept s s' ∧ file'.identity = file.identity ∧
        ∃ n, s'.inodes file.identity = some n)
      (Fails (Kept s)) w := by
  refine ask_bind fun a => ?_
  obtain ⟨hrch, hkept', hwr⟩ := h.land a.amount
  refine .modify_bind hrch ?_
  have hs := hkept.trans hkept'
  cases a.error with
  | some kind => exact .throw ⟨⟨_, rfl⟩, hs⟩
  | none =>
    obtain ⟨n, hn, -, hlen, -⟩ := hwr.inode
    have hpos : file.pos ≤ (file.advance a.amount).pos := Nat.le_add_right _ _
    have hle : k ≤ n.length := by omega
    obtain ⟨hcut, heq⟩ := reach_resize site r hn hle (by rw [hs.row]; exact hrow)
    refine .modify_bind hcut (.pure ?_)
    rw [heq]
    exact ⟨hs.setInode, rfl, n.mapData (.resize 0 k), by simp [setInode]⟩

/-- Cutting a stage through a descriptor with nothing queued. -/
lemma setLen_idle_runs (hq : Quiet s (w.session site)) (hidle : file.queued = [])
    (hn : s.inodes file.identity = some n) (hk : k ≤ n.length)
    (hrow : ∀ row, s.row = some row → row.stageIdentity = some file.identity →
      row.state = .running ∧ row.durableOffset ≤ k) : Runs site r (file.setLen k)
      (fun _ s' => Kept s s' ∧ s'.inodes file.identity = some (n.mapData (.resize 0 k)))
      (Fails (Kept s)) w := by
  refine ask_bind fun a => .modify_bind (.of_eq ?_) ?_
  · rw [land_of_idle hidle]
  rw [land_of_idle hidle]
  cases a.error with
  | some kind => exact .throw ⟨⟨_, rfl⟩, hq.kept⟩
  | none =>
    have hn' : w.inodes file.identity = some n := by
      rw [← hn]
      exact congrFun hq.inodes _
    obtain ⟨hcut, heq⟩ := reach_resize site r hn' hk (by rw [hq.row]; exact hrow)
    refine .modify_bind hcut (.pure ?_)
    rw [heq]
    exact ⟨hq.kept.setInode, by simp [setInode]⟩

end Descriptor

/-! ### Checkpoints -/

section Checkpoint

/-- The descriptor is flushed and synced, and the stage path names its inode. -/
lemma syncAndIdentifyStage_runs (hk : Kept s (w.session site))
    (h : Written r file (w.session site)) :
    Runs site r (syncAndIdentifyStage file k)
      (fun id s' => id = file.identity ∧ Kept s s' ∧ k ≤ file.flushed.pos ∧
        ∃ n, Synced file.flushed n s')
      (Fails (Kept s)) w := by
  refine (flush_runs hk h).bind fun file' w hfls => ?_
  obtain ⟨rfl, hk, h⟩ := hfls
  obtain ⟨n, hn, hwhole, hlen, hcre⟩ := h.inode
  refine seq (syncFileToStorage_runs hk hn) (fun e w he => he.mono And.left) fun _ w hsyn => ?_
  obtain ⟨hk, s₁, hq, heq⟩ := hsyn
  -- the inode is now full, and the steps that follow only look at it
  have hinode : (w.session site).inodes file.flushed.identity = some (n.mapData .sync) := by
    rw [heq]
    simp [setInode]
  have hfull : (n.mapData .sync).Full file.flushed.pos :=
    ⟨hwhole, hlen, hwhole.trans hlen, rfl⟩
  have hcre : s.row = none → n.replayed = false := fun hrow =>
    hcre (by rw [← hq.row, ← hrow, ← hk.row, heq]; rfl)
  refine seq (metadata_idle_runs (.refl _) queued_flushed)
    (fun e w he => he.mono fun hq => hk.trans hq.kept) fun found w' hfnd => ?_
  obtain ⟨hq, -, hid, m, hm, hfoundLength⟩ := hfnd
  have hstep {c : Prop} [Decidable c] {msg : String} {w' : World}
      (hq : Quiet (w.session site) (w'.session site)) :
      Runs site r (check c msg) (fun _ s' => c ∧ Quiet (w.session site) s') (Fails (Kept s)) w' :=
    (check_runs hq).mono (fun _ _ h => h) fun e w he => he.mono fun hq => hk.trans hq.kept
  refine (hstep hq).bind fun _ w₁ hq => (hstep hq.2).bind fun _ w₂ hq => ?_
  refine (hstep hq.2).bind fun _ w₃ hq => ?_
  obtain ⟨hle, hq⟩ := hq
  refine seq (stageMetadataNofollow_runs hq)
    (fun e w he => he.mono fun hq => hk.trans hq.kept) fun named w₄ hnamed => ?_
  refine (hstep hnamed.1).bind fun _ w₅ hmatch => .pure ?_
  obtain ⟨⟨-, -, hmatch⟩, hq⟩ := hmatch
  refine ⟨hid, hk.trans hq.kept, ?_, n.mapData .sync, ?_, ?_, hfull, fun hrow => ?_⟩
  · cases hinode.symm.trans hm
    rw [hfoundLength, hfull.length_eq] at hle
    exact hle
  · rw [hq.stage, hnamed.2, hmatch, hid]
  · rw [hq.inodes]
    exact hinode
  · exact hcre (by rw [← hk.row, ← hq.row, hrow])

variable {record : UploadRecordContext} {state : StoredUploadState}
  {identity : Option StoredFileIdentity}

/-- What a fully bound record proposes does not depend on the existing session. -/
lemma proposedSession_congr {existing' : Option StoredUploadSession}
    (h : existing = existing' ∨ (identity.isSome = true ∧ record.targetRevisionBound = true)) :
    proposedSession site record k state identity existing =
      proposedSession site record k state identity existing' := by
  rcases h with rfl | ⟨hidn, hbd⟩
  · rfl
  · obtain ⟨id, rfl⟩ := Option.isSome_iff_exists.1 hidn
    simp [proposedSession, hbd]

lemma persistState_runs (hq : Quiet s (w.session site))
    (hlen : record.uploadLength = r.uploadLength)
    (hsaves : s.Saves r (proposedSession site record k state identity s.row))
    (hactv : ∀ row, s.row = some row → row.state.isTerminal = false) :
    Runs site r (persistState site record k state identity)
      (fun _ => Quiet { s with row := some (proposedSession site record k state identity s.row) })
      (Fails (Quiet s)) w := by
  refine bind (Q := fun existing w => Quiet s (w.session site) ∧
    proposedSession site record k state identity existing =
      proposedSession site record k state identity s.row) ?_ fun existing w h => ?_
  · split
    case isTrue =>
      exact (loadSession_runs hq).mono (fun o w h => ⟨h.1, proposedSession_congr (.inl h.2)⟩)
        fun _ _ h => h
    case isFalse hbd =>
      simp only [not_or, Option.isNone_iff_eq_none, Bool.not_eq_false] at hbd
      exact .pure ⟨hq, proposedSession_congr (.inr ⟨Option.isSome_iff_ne_none.2 hbd.1, hbd.2⟩)⟩
  · rw [h.2]
    exact saveSession_runs h.1 rfl ⟨rfl, rfl, hlen⟩ hsaves hactv

/-- A row is stored after the stage was synced. -/
lemma persistSynced_runs (hk : Kept s (w.session site)) (hsyn : Synced file n (w.session site))
    (hlen : record.uploadLength = r.uploadLength)
    (hsaves : (w.session site).Saves r (proposedSession site record k state identity s.row))
    (hactv : ∀ row, s.row = some row → row.state.isTerminal = false) :
    Runs site r (persistState site record k state identity)
      (fun _ s' =>
        Kept { s with row := some (proposedSession site record k state identity s.row) } s' ∧
        Synced file n s')
      (Fails (Kept s)) w := by
  rw [← hk.row] at hsaves hactv ⊢
  refine (persistState_runs (.refl _) hlen hsaves hactv).mono (fun _ w' hq => ?_)
    fun e w' he => he.mono fun hq => hk.trans hq.kept
  rw [hq]
  exact ⟨⟨rfl, hk.stage, hk.published, hk.setbacks, hk.purged⟩, hsyn.stage, hsyn.inode,
    hsyn.full, nofun⟩

/-- The states a session is in while its stage is written or confirmed. -/
def Session.Unfinished (s : Session) : Prop :=
  ∀ row, s.row = some row → row.state = .running ∨ row.state = .awaitingConfirmation

lemma Session.Unfinished.isOpen (h : s.Unfinished) (hinv : s.Inv site) : s.Open :=
  .of_state hinv fun row hrow hset => by
    rcases h row hrow with h | h <;> simp [h, Settled] at hset

lemma Session.Unfinished.active (h : s.Unfinished) (row : StoredUploadSession)
    (hrow : s.row = some row) : row.state.isTerminal = false := by
  rcases h row hrow with h | h <;> simp [h, StoredUploadState.isTerminal]

/-- The row a checkpoint stores. -/
def checkpointRow (site : Site) (record : UploadRecordContext) (k : ℕ) (file : StageFile)
    (s : Session) : StoredUploadSession :=
  proposedSession site record k .running (some file.identity) s.row

lemma persistCheckpointInner_runs {init : Bool} (hk : Kept s (w.session site))
    (h : Written r file (w.session site)) (hunf : s.Unfinished)
    (hlen : record.uploadLength = r.uploadLength)
    (hrev : record.targetRevisionBound = true → record.targetRevision = r.requestedRevision) :
    Runs site r (persistCheckpointInner site file record k init)
      (fun _ s' => Kept { s with row := some (checkpointRow site record k file s) } s' ∧
        ∃ n, Synced file.flushed n s')
      (Fails (Kept s)) w := by
  refine seq (check_runs (P := fun s' => Kept s s' ∧ Written r file s') ⟨hk, h⟩)
    (fun e w he => he.mono And.left) fun _ w hchk => ?_
  obtain ⟨-, hk, h⟩ := hchk
  refine (syncAndIdentifyStage_runs hk h).bind fun id w hsyn => ?_
  obtain ⟨rfl, hk, hle, n, hsyn⟩ := hsyn
  refine seq (.when (fun _ => fsStep_unit_runs (.refl _)) fun _ => .refl _)
    (fun e w he => he.mono fun hq => hk.trans hq.kept) fun _ w hq => .with_inv fun hinv => ?_
  replace hk := hk.trans hq.kept
  replace hsyn := hsyn.quiet hq
  have hopen : (w.session site).Open :=
    Unfinished.isOpen (fun row hrow => hunf row (hk.row.symm.trans hrow)) hinv
  refine (persistSynced_runs hk hsyn hlen ?_ hunf.active).mono
    (fun _ _ h => ⟨h.1, n, h.2⟩) fun _ _ h => h
  refine .checkpoint file.identity n rfl (by simp [proposedSession]) hsyn.inode ?_ hopen
    hsyn.created fun e he => ?_
  · rw [hsyn.full.synced_eq]
    exact hle
  · rw [hk.row] at he
    by_cases hbd : record.targetRevisionBound = true
    · exact .inl (by simp [proposedSession, hbd, hrev hbd])
    · exact .inr (by simp [proposedSession, hbd, he])

/-- The row that a complete stage is stored under. -/
def completeRow (site : Site) (r : UploadRequest) (state : StoredUploadState) (file : StageFile) :
    StoredUploadSession :=
  proposedSession site (withTargetRevision r.requestedRevision
    ⟨r.uploadLength, none, false⟩) r.uploadLength state (some file.identity) none

/-- Storing a complete stage as started or retained. -/
lemma persistComplete_runs (hk : Kept s (w.session site)) (h : Written r file (w.session site))
    (hactv : ∀ row, s.row = some row → row.state.isTerminal = false)
    (hsaves : ∀ n s', Kept s s' → Synced file.flushed n s' →
      s'.Saves r (completeRow site r state file)) :
    Runs site r (persistComplete site state file (withTargetRevision
        r.requestedRevision ⟨r.uploadLength, none, false⟩))
      (fun _ s' => Kept { s with row := some (completeRow site r state file) } s' ∧
        ∃ n, Synced file.flushed n s')
      (Fails (Kept s)) w := by
  refine (syncAndIdentifyStage_runs hk h).bind fun id w hsyn => ?_
  obtain ⟨rfl, hk, hle, n, hsyn⟩ := hsyn
  have hrow : completeRow site r state file = proposedSession site
      (withTargetRevision r.requestedRevision ⟨r.uploadLength, none, false⟩)
      r.uploadLength state (some file.identity) s.row :=
    proposedSession_congr (.inr ⟨rfl, rfl⟩)
  refine (persistSynced_runs hk hsyn rfl ?_ hactv).mono (fun _ _ h => ⟨h.1, n, h.2⟩) fun _ _ h => h
  have hcpl := hsaves n _ hk hsyn
  exact hcpl

end Checkpoint

/-! ### Cleaning up -/

section Cleanup

lemma removeFileIfIdentity_runs (hl : Later s (w.session site)) (hgv : s.GivesUp) :
    Runs site r (removeFileIfIdentity id) (fun _ => Later s) (Fails (Later s)) w := by
  refine seq (fsStep_runs (.refl _))
    (fun e w he => he.mono fun hq => hl.trans hq.kept.later) fun _ w hq => .get_bind ?_
  replace hl := hl.trans hq.kept.later
  cases w.stage with
  | none => exact .pure hl
  | some actual =>
    dsimp only
    split
    case isTrue => exact .pure hl
    case isFalse =>
      refine .ask_bind fun a => bind (Q := fun _ w => Later s (w.session site)) ?_
        fun _ w hl => ?_
      · refine .when (fun _ => .modify (.single ?_) ?_) fun _ => hl
        · exact .unlink _ (hgv.later hl)
        · exact ⟨hl.row, hl.published, hl.setbacks, hl.purged⟩
      · cases a.error with
        | some kind => exact .throw ⟨⟨_, rfl⟩, hl⟩
        | none => exact .pure hl

lemma removeStage_runs (hl : Later s (w.session site)) (hgv : s.GivesUp) :
    Runs site r (removeStage id) (fun _ => Later s) (Fails (Later s)) w := by
  refine (removeFileIfIdentity_runs hl hgv).bind fun outcome w hl => ?_
  cases outcome with
  | removedOrAbsent => exact .pure hl
  | replacementPreserved => exact .throw ⟨⟨_, rfl⟩, hl⟩

lemma row_key {row : StoredUploadSession} (h : w.row site = some row) : row.key = site.key := by
  obtain ⟨stored, hstr, rfl⟩ := Option.map_eq_some_iff.1 h
  exact Table.key_of_lookup hstr

lemma removeSession_runs {session : StoredUploadSession} (hkey : session.key = site.key)
    (hl : Later s (w.session site)) (hopen : s.Open) (hgv : s.GivesUp) :
    Runs site r (removeSession session) (fun _ s' => Later s s' ∧ s'.row = none)
      (Fails (Later s)) w := by
  refine seq (storeStep_runs (Q := fun removed s' =>
      Later s s' ∧ (removed = true → s'.row = none)) (.refl _) fun now removed db hrmv => ?_)
    (fun e w he => he.mono fun hq => hl.trans hq.kept.later) fun removed w hremoved => ?_
  · rcases removeUploadSessionIfMatches_cases hrmv with ⟨rfl, rfl⟩ | ⟨rfl, -, hrows⟩
    · exact ⟨.refl _, hl, nofun⟩
    · have heq : ({ w with db } : World).session site = { w.session site with row := none } := by
        simp [World.session, World.row, hrows, hkey]
      rw [heq]
      exact ⟨.single (.remove _ (hopen.later hl) (hgv.later hl)),
        ⟨.inr rfl, hl.published, hl.setbacks, hl.purged⟩, fun _ => rfl⟩
  · refine .when (fun _ => .throw ⟨⟨_, rfl⟩, hremoved.1⟩) fun hr => ⟨hremoved.1, hremoved.2 ?_⟩
    simpa using hr

/-- After a reset the session has no row. -/
lemma reset_runs (hl : Later s (w.session site)) (hopen : s.Open) (hgv : s.GivesUp) :
    Runs site r (reset site) (fun _ s' => Later s s' ∧ s'.row = none) (Fails (Later s)) w := by
  refine seq (loadSession_runs (.refl _))
    (fun e w he => he.mono fun hq => hl.trans hq.kept.later) fun session w' hloaded => ?_
  obtain ⟨hq, hses⟩ := hloaded
  replace hl := hl.trans hq.kept.later
  cases session with
  | none => exact .pure ⟨hl, hq.row.trans hses.symm⟩
  | some session =>
    dsimp only
    split
    case isTrue => exact .throw ⟨⟨_, rfl⟩, hl⟩
    case isFalse =>
      refine bind (Q := fun _ w => Later s (w.session site)) ?_ fun _ w hl => ?_
      · cases session.stageIdentity with
        | none => exact .pure hl
        | some id => exact removeStage_runs hl hgv
      · refine (removeSession_runs (row_key hses.symm) hl hopen hgv).bind fun _ w h => ?_
        refine (fsStep_unit_runs (.refl _)).mono
          (fun _ _ hq => ⟨h.1.trans hq.kept.later, hq.row.trans h.2⟩)
          fun e _ he => he.mono fun hq => h.1.trans hq.kept.later

lemma resetAndAncestors_runs {created : Bool} (hl : Later s (w.session site)) (hopen : s.Open)
    (hgv : s.GivesUp) :
    Runs site r (resetAndAncestors site created) (fun _ s' => Later s s' ∧ s'.row = none)
      (Fails (Later s)) w := by
  refine (reset_runs hl hopen hgv).bind fun _ w h => .when (fun _ => ?_) fun _ => h
  exact (fsStep_unit_runs (.refl _)).mono
    (fun _ _ hq => ⟨h.1.trans hq.kept.later, hq.row.trans h.2⟩)
    fun e _ he => he.mono fun hq => h.1.trans hq.kept.later

lemma discardUnrecordedStage_runs (hl : Later s (w.session site)) (hidle : file.queued = [])
    (hgv : s.GivesUp) :
    Runs site r (discardUnrecordedStage file) (fun _ => Later s) (Fails (Later s)) w := by
  refine seq (metadata_idle_runs (.refl _) hidle)
    (fun e w he => he.mono fun hq => hl.trans hq.kept.later) fun found w hfnd => ?_
  replace hl := hl.trans hfnd.1.kept.later
  refine (check_runs hl).bind fun _ w h => ?_
  refine (removeStage_runs h.2 hgv).bind fun _ w hl => ?_
  exact (fsStep_unit_runs (.refl _)).mono (fun _ _ hq => hl.trans hq.kept.later)
    fun e _ he => he.mono fun hq => hl.trans hq.kept.later

end Cleanup

end DufsRam
