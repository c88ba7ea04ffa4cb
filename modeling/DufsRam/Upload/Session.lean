import DufsRam.Upload.World

/-!
# The life of an upload session

What a session is, apart from how requests work on it: its row, the entry at its stage path, the
staged inodes and the renames that published it. `Session.Step` lists every change that a request
may make, each under the condition that makes it harmless; the invariants of a session are proved
from this list alone.
-/

namespace DufsRam

open StoredUploadState

/-- The bytes may be written at this position on behalf of the request. -/
def UploadRequest.Sends (r : UploadRequest) (pos : ℕ) (bytes : List UInt8) : Prop :=
  r.initialOffset ≤ pos ∧ bytes <+: r.bytes.drop (pos - r.initialOffset)

/-- The inode holds an upload of this length, and nothing of it is left to be synced. -/
structure Inode.Full (n : Inode) (length : ℕ) : Prop where
  whole : n.data.Whole
  length_eq : n.length = length
  synced_eq : n.data.synced = length
  clean : n.data.clean = true

/-- What a row says of the inode it names: its offset is synced, and a row whose upload is complete
names a full inode. -/
structure StoredUploadSession.ReliesOn (row : StoredUploadSession) (n : Inode) : Prop where
  durable : row.durableOffset ≤ n.data.synced
  full : row.state = .commitStarted ∨ row.state = .awaitingConfirmation → n.Full row.uploadLength

variable {n : Inode} {row : StoredUploadSession}

lemma Inode.Full.congr {n' : Inode} {length : ℕ} (h : n.Full length) (hdata : n'.data = n.data) :
    n'.Full length := by
  obtain ⟨hwhole, hlen, hsyn, hclean⟩ := h
  constructor <;> simpa only [Inode.length, hdata]

lemma Inode.Full.sync {length : ℕ} (h : n.Full length) : (n.mapData .sync).Full length :=
  ⟨h.whole, h.length_eq, h.whole.trans h.length_eq, rfl⟩

lemma StoredUploadSession.ReliesOn.sync (h : row.ReliesOn n) : row.ReliesOn (n.mapData .sync) where
  durable := h.durable.trans n.data.synced_le
  full hst := (h.full hst).sync

/-- The session as its protocol sees it. -/
structure Session where
  row : Option StoredUploadSession
  purged : Bool
  stage : Option StoredFileIdentity
  inodes : StoredFileIdentity → Option Inode
  published : List Publication
  setbacks : List Setback

def World.session (site : Site) (w : World) : Session where
  row := w.row site
  purged := w.purged
  stage := w.stage
  inodes := w.inodes
  published := w.published
  setbacks := w.setbacks

namespace Session

variable {site : Site} {r : UploadRequest} {s s' : Session} {id : StoredFileIdentity}
  {e p : StoredUploadSession}

/-- Nothing was published that the row must still tell of. -/
def Open (s : Session) : Prop := s.published = [] ∨ s.purged = true

/-- More than a running upload is given up only after a setback. -/
def GivesUp (s : Session) : Prop :=
  ∀ row, s.row = some row → row.state ≠ .running → s.setbacks ≠ []

def setInode (s : Session) (id : StoredFileIdentity) (n : Inode) : Session :=
  { s with inodes := Function.update s.inodes id (some n) }

/-! ### Changes -/

/-- The rows a request may store, by their state. -/
inductive Saves (r : UploadRequest) (s : Session) (p : StoredUploadSession) : Prop
  /-- A checkpoint is synced; it is bound to the revision of the request or keeps its own. -/
  | checkpoint (id : StoredFileIdentity) (n : Inode) (state : p.state = .running)
      (identity : p.stageIdentity = some id) (inode : s.inodes id = some n)
      (durable : p.durableOffset ≤ n.data.synced) (isOpen : s.Open)
      (created : s.row = none → n.replayed = false)
      (revision : ∀ e, s.row = some e →
        p.targetRevision = r.requestedRevision ∨ p.targetRevision = e.targetRevision)
  /-- A commit starts with a complete stage; without a revision if the row had none. -/
  | start (id : StoredFileIdentity) (n : Inode) (state : p.state = .commitStarted)
      (identity : p.stageIdentity = some id) (inode : s.inodes id = some n)
      (full : n.Full p.uploadLength) (stage : s.stage = some id)
      (offset : p.durableOffset = p.uploadLength) (isOpen : s.Open)
      (revision : p.targetRevision = r.requestedRevision)
      (kept : r.requestedRevision = none → ∃ e, s.row = some e ∧ e.targetRevision = none)
  /-- A started commit that was not published is retained. -/
  | retain (id : StoredFileIdentity) (n : Inode) (e : StoredUploadSession)
      (state : p.state = .awaitingConfirmation) (identity : p.stageIdentity = some id)
      (inode : s.inodes id = some n) (full : n.Full p.uploadLength)
      (offset : p.durableOffset = p.uploadLength) (isOpen : s.Open) (row : s.row = some e)
      (started : e.state = .commitStarted) (revision : p.targetRevision = r.requestedRevision)
  /-- A published commit is committed. -/
  | commit (e : StoredUploadSession) (q : Publication) (state : p.state = .committed)
      (row : s.row = some e) (started : e.state = .commitStarted)
      (identity : e.stageIdentity = p.stageIdentity) (offset : p.durableOffset = p.uploadLength)
      (published : q ∈ s.published) (renamed : p.stageIdentity = some q.identity)
      (length : q.inode.length = p.uploadLength)
  /-- A commit whose effect is not known. -/
  | lose (e : StoredUploadSession) (state : p.state = .unknown) (row : s.row = some e)
      (started : e.state = .commitStarted) (identity : e.stageIdentity = p.stageIdentity)
      (offset : p.durableOffset = p.uploadLength)
  /-- A commit that was given up leaves a row without a stage. -/
  | reject (state : p.state = .rejected) (identity : p.stageIdentity = none)
      (offset : p.durableOffset = 0) (isOpen : s.Open) (row : s.row = none)

/-- The row is that of the session and of the declared length. -/
structure Names (site : Site) (r : UploadRequest) (p : StoredUploadSession) : Prop where
  targetPath : p.targetPath = site.targetPath
  stagePath : p.stagePath = site.stagePath
  uploadLength : p.uploadLength = r.uploadLength

/-- What a request may do to its session. -/
inductive Step (site : Site) (r : UploadRequest) : Session → Session → Prop
  | create (s : Session) (id : StoredFileIdentity) (hstage : s.stage = none)
      (hid : s.inodes id = none) :
      Step site r s { s.setInode id (.create site.stageAttributes) with stage := some id }
  | write (s : Session) (id : StoredFileIdentity) (n : Inode) (bytes : List UInt8)
      (hn : s.inodes id = some n) (hwhole : n.data.Whole) (hsends : r.Sends n.length bytes)
      (hrow : ∀ row, s.row = some row → row.stageIdentity = some id → row.state = .running) :
      Step site r s (s.setInode id (n.mapData (.writeAt 0 n.length bytes)))
  | cut (s : Session) (id : StoredFileIdentity) (n : Inode) (k : ℕ) (hn : s.inodes id = some n)
      (hk : k ≤ n.length)
      (hrow : ∀ row, s.row = some row → row.stageIdentity = some id →
        row.state = .running ∧ row.durableOffset ≤ k) :
      Step site r s (s.setInode id (n.mapData (.resize 0 k)))
  | sync (s : Session) (id : StoredFileIdentity) (n : Inode) (hn : s.inodes id = some n) :
      Step site r s (s.setInode id (n.mapData .sync))
  | replay (s : Session) (id : StoredFileIdentity) (n : Inode) (a : PreservedFileMetadata)
      (hn : s.inodes id = some n) (hrevision : r.requestedRevision ≠ none)
      (hrow : ∀ row, s.row = some row → row.stageIdentity = some id →
        row.state = .awaitingConfirmation ∨
          (row.state = .running ∧ row.targetRevision = r.requestedRevision)) :
      Step site r s (s.setInode id (n.setAttributes a))
  | save (s : Session) (p : StoredUploadSession) (hnames : Names site r p)
      (hcontinues : Continues s.row p) (hsaves : s.Saves r p) :
      Step site r s { s with row := some p }
  | remove (s : Session) (hopen : s.Open) (hgives : s.GivesUp) :
      Step site r s { s with row := none }
  | unlink (s : Session) (hgives : s.GivesUp) : Step site r s { s with stage := none }
  | publish (s : Session) (row : StoredUploadSession) (id : StoredFileIdentity) (n : Inode)
      (hrow : s.row = some row) (hstarted : row.state = .commitStarted)
      (hidentity : row.stageIdentity = some id) (hstage : s.stage = some id)
      (hn : s.inodes id = some n) (hfull : n.Full row.uploadLength) :
      Step site r s
        { s with stage := none, published := s.published ++ [⟨id, n, s.row⟩] }
  | setback (s : Session) (b : Setback) : Step site r s { s with setbacks := b :: s.setbacks }

/-! ### The invariant -/

/-- A row keeps its paths, and what it advertises is on the disk of the inode it names. -/
structure RowOk (site : Site) (inodes : StoredFileIdentity → Option Inode)
    (row : StoredUploadSession) : Prop where
  targetPath : row.targetPath = site.targetPath
  stagePath : row.stagePath = site.stagePath
  recorded : ∀ id, row.stageIdentity = some id → ∃ n, inodes id = some n ∧ row.ReliesOn n
  unrecorded : row.stageIdentity = none → row.durableOffset = 0
  full : row.state.fullyDurable = true → row.durableOffset = row.uploadLength
  owned : row.state.ownsStage = true → row.stageIdentity ≠ none

/-- The states of a row that can be the row of a published upload. -/
def Settled (state : StoredUploadState) : Prop :=
  state = .commitStarted ∨ state = .committed ∨ state = .unknown

structure Inv (site : Site) (s : Session) : Prop where
  row : ∀ row, s.row = some row → RowOk site s.inodes row
  stage : ∀ id, s.stage = some id → s.inodes id ≠ none
  published : s.published ≠ [] → s.purged = false →
    ∃ row, s.row = some row ∧ Settled row.state
  renamed : ∀ q ∈ s.published, s.inodes q.identity ≠ none ∧ s.stage ≠ some q.identity

lemma Open.of_state (h : s.Inv site)
    (hrow : ∀ row, s.row = some row → ¬ Settled row.state) : s.Open := by
  by_cases hpub : s.published = []
  · exact .inl hpub
  · cases hpur : s.purged with
    | true => exact .inr hpur
    | false =>
      obtain ⟨row, hrow', hset⟩ := h.published hpub hpur
      exact absurd hset (hrow row hrow')

lemma inodes_setInode_ne_none {i : StoredFileIdentity} (h : s.inodes i ≠ none) :
    (s.setInode id n).inodes i ≠ none := by
  by_cases heq : i = id
  · simp [setInode, heq]
  · simpa [setInode, Function.update_of_ne heq] using h

/-- An inode is replaced by one on which the row relies as well. -/
lemma RowOk.setInode (h : RowOk site s.inodes row)
    (hrel : row.stageIdentity = some id → row.ReliesOn n) :
    RowOk site (s.setInode id n).inodes row where
  targetPath := h.targetPath
  stagePath := h.stagePath
  recorded i hi := by
    by_cases heq : i = id
    · subst heq
      exact ⟨n, by simp [Session.setInode], hrel hi⟩
    · simpa [Session.setInode, Function.update_of_ne heq] using h.recorded i hi
  unrecorded := h.unrecorded
  full := h.full
  owned := h.owned

lemma Inv.setInode (h : s.Inv site)
    (hrel : ∀ row, s.row = some row → row.stageIdentity = some id → row.ReliesOn n) :
    (s.setInode id n).Inv site where
  row row hrow := (h.row row hrow).setInode (hrel row hrow)
  stage i hi := inodes_setInode_ne_none (h.stage i hi)
  published := h.published
  renamed q hq := ⟨inodes_setInode_ne_none (h.renamed q hq).1, (h.renamed q hq).2⟩

lemma Inv.reliesOn (h : s.Inv site) (hn : s.inodes id = some n) (hrow : s.row = some row)
    (hid : row.stageIdentity = some id) : row.ReliesOn n := by
  obtain ⟨m, hm, hrel⟩ := (h.row row hrow).recorded id hid
  cases hn.symm.trans hm
  exact hrel

/-- A running row relies only on its offset. -/
lemma reliesOn_of_running (hst : row.state = .running)
    (hdur : row.durableOffset ≤ n.data.synced) : row.ReliesOn n :=
  ⟨hdur, by simp [hst]⟩

/-- A row that owns a stage is stored over one that names the same inode. -/
lemma stageIdentity_of_continues (hinv : s.Inv site) (h : Continues s.row p) (hrow : s.row = some e)
    (howns : e.state.ownsStage = true) : p.stageIdentity = e.stageIdentity := by
  obtain ⟨-, hbnd, -, -⟩ := mergeUploadSession_eq_some (h e hrow)
  rcases hbnd.2.2.2.2.2 with hnone | heq
  · exact absurd hnone ((hinv.row e hrow).owned howns)
  · exact heq.symm

/-- Only a running row is replaced by a running one. -/
lemma running_of_continues (h : Continues s.row p) (hrow : s.row = some e)
    (hst : p.state = .running) : e.state = .running := by
  obtain ⟨-, -, htrn, -⟩ := mergeUploadSession_eq_some (h e hrow)
  unfold transitionAllowed at htrn
  split at htrn
  case isTrue heq => exact heq.trans hst
  case isFalse =>
    rw [hst] at htrn
    cases he : e.state <;> simp [he, mayBecome] at htrn

/-- A started commit is retained with its own revision. -/
lemma targetRevision_of_retained (h : Continues s.row p) (hrow : s.row = some e)
    (hsta : e.state = .commitStarted) (hst : p.state = .awaitingConfirmation) :
    e.targetRevision = p.targetRevision := by
  obtain ⟨-, -, -, hrev⟩ := mergeUploadSession_eq_some (h e hrow)
  rcases hrev with heq | ⟨heq, -⟩ | heq
  · exact heq
  · simp [hsta, hst] at heq
  · simp [hsta] at heq

/-- What the stored row relies on carries over to a row that ends its started commit. -/
lemma Inv.recorded_of_started (h : s.Inv site) (hcont : Continues s.row p) (hrow : s.row = some e)
    (hsta : e.state = .commitStarted) (hends : p.state = .committed ∨ p.state = .unknown)
    (hidn : e.stageIdentity = p.stageIdentity) (hoff : p.durableOffset = p.uploadLength)
    (id : StoredFileIdentity) (hid : p.stageIdentity = some id) :
    ∃ n, s.inodes id = some n ∧ p.ReliesOn n := by
  obtain ⟨n, hn, hrel⟩ := (h.row e hrow).recorded id (hidn.trans hid)
  have hfull := (h.row e hrow).full (by simp [hsta, fullyDurable])
  obtain ⟨-, hbnd, -, -⟩ := mergeUploadSession_eq_some (hcont e hrow)
  refine ⟨n, hn, ?_, fun hst => ?_⟩
  · rw [hoff, ← hbnd.2.2.2.1, ← hfull]
    exact hrel.durable
  · rcases hends with hends | hends <;> simp [hends] at hst

/-- A row that a request may store is a row the invariant allows. -/
lemma Saves.rowOk (hinv : s.Inv site) (hnms : Names site r p) (hcont : Continues s.row p)
    (h : s.Saves r p) : RowOk site s.inodes p := by
  refine ⟨hnms.targetPath, hnms.stagePath, ?_, ?_, ?_, ?_⟩
  · cases h with
    | checkpoint id n hst hid hn hdur =>
      intro i hi
      cases hid.symm.trans hi
      exact ⟨n, hn, reliesOn_of_running hst hdur⟩
    | start id n _ hid hn hfull _ hoff | retain id n e _ hid hn hfull hoff =>
      intro i hi
      cases hid.symm.trans hi
      exact ⟨n, hn, by rw [hoff, hfull.synced_eq], fun _ => hfull⟩
    | commit e q hst hrow hsta hid hoff =>
      exact hinv.recorded_of_started hcont hrow hsta (.inl hst) hid hoff
    | lose e hst hrow hsta hid hoff =>
      exact hinv.recorded_of_started hcont hrow hsta (.inr hst) hid hoff
    | reject _ hid =>
      intro i hi
      cases hid.symm.trans hi
  · intro hnone
    cases h with
    | checkpoint id n _ hid | start id n _ hid | retain id n e _ hid => cases hid.symm.trans hnone
    | commit e q _ hrow hsta hid | lose e _ hrow hsta hid =>
      exact absurd (hid.trans hnone) ((hinv.row e hrow).owned (by simp [hsta, ownsStage]))
    | reject _ _ hoff => exact hoff
  · intro hfull
    cases h with
    | checkpoint _ _ hst | lose _ hst | reject hst => simp [hst, fullyDurable] at hfull
    | start _ _ _ _ _ _ _ hoff | retain _ _ _ _ _ _ _ hoff | commit _ _ _ _ _ _ hoff => exact hoff
  · intro howns
    cases h with
    | checkpoint _ _ _ hid | start _ _ _ hid | retain _ _ _ _ hid => simp [hid]
    | commit _ _ hst | lose _ hst | reject hst => simp [hst, ownsStage] at howns

/-- Storing a row keeps the promise of a publication: only an open session leaves the settled
states. -/
lemma Saves.settled (h : s.Saves r p) : s.Open ∨ Settled p.state := by
  cases h with
  | checkpoint _ _ _ _ _ _ hopen | start _ _ _ _ _ _ _ _ hopen | retain _ _ _ _ _ _ _ _ hopen
  | reject _ _ _ hopen => exact .inl hopen
  | commit _ _ hst => exact .inr (.inr (.inl hst))
  | lose _ hst => exact .inr (.inr (.inr hst))

lemma Open.not_published (h : s.Open) (hpub : s.published ≠ [])
    (hpur : s.purged = false) : False := by
  rcases h with h | h
  · exact hpub h
  · simp [hpur] at h

/-- Every step of a request keeps the invariant. -/
lemma Step.inv (hinv : s.Inv site) (h : Step site r s s') : s'.Inv site := by
  cases h with
  | create id hstg hid =>
    have hnew : (s.setInode id (.create site.stageAttributes)).Inv site := by
      refine hinv.setInode fun row hrow hrec => ?_
      obtain ⟨n, hn, -⟩ := (hinv.row row hrow).recorded id hrec
      simp [hid] at hn
    refine ⟨hnew.row, fun i hi => ?_, hinv.published, fun q hq => ⟨(hnew.renamed q hq).1, ?_⟩⟩
    · cases hi
      simp [setInode]
    · -- an inode that was renamed exists, so its number is not that of a new one
      intro heq
      cases heq
      exact (hinv.renamed q hq).1 hid
  | write id n bytes hn hwhole hsends hrow =>
    refine hinv.setInode fun row hrow' hid => reliesOn_of_running (hrow row hrow' hid) ?_
    rw [Inode.data_mapData, Inode.length, DurableFile.synced_writeAt_end rfl]
    exact (hinv.reliesOn hn hrow' hid).durable
  | cut id n k hn hk hrow =>
    refine hinv.setInode fun row hrow' hid => reliesOn_of_running (hrow row hrow' hid).1 ?_
    have hle := (hinv.reliesOn hn hrow' hid).durable
    have hcut := (hrow row hrow' hid).2
    simp only [Inode.data_mapData, DurableFile.resize]
    omega
  | sync id n hn =>
    exact hinv.setInode fun row hrow' hid => (hinv.reliesOn hn hrow' hid).sync
  | replay id n a hn =>
    refine hinv.setInode fun row hrow' hid => ?_
    obtain ⟨hdur, hfull⟩ := hinv.reliesOn hn hrow' hid
    exact ⟨hdur, fun hst => (hfull hst).congr rfl⟩
  | save p hnms hcont hsaves =>
    have hok := hsaves.rowOk hinv hnms hcont
    refine ⟨fun row hrow => ?_, hinv.stage, fun hpub hpur => ?_, hinv.renamed⟩
    · cases hrow
      exact hok
    · rcases hsaves.settled with hopen | hset
      · exact (hopen.not_published hpub hpur).elim
      · exact ⟨p, rfl, hset⟩
  | remove hopen hgv =>
    exact ⟨fun _ h => (by cases h), hinv.stage, fun hpub hpur =>
      (hopen.not_published hpub hpur).elim, hinv.renamed⟩
  | unlink hgv =>
    exact ⟨hinv.row, fun _ h => (by cases h), hinv.published,
      fun q hq => ⟨(hinv.renamed q hq).1, by simp⟩⟩
  | publish row id n hrow hsta hidn hstg hn hfull =>
    refine ⟨hinv.row, fun _ h => (by cases h), fun _ _ => ⟨row, hrow, .inl hsta⟩,
      fun q hq => ⟨?_, by simp⟩⟩
    rcases List.mem_append.1 hq with hq | hq
    · exact (hinv.renamed q hq).1
    · rw [List.mem_singleton.1 hq]
      simp [hn]
  | setback b => exact ⟨hinv.row, hinv.stage, hinv.published, hinv.renamed⟩

/-- The protocol that the requests of a session follow. -/
def protocol (site : Site) (r : UploadRequest) : Crash.Protocol Session where
  Step := Step site r
  Inv := Inv site
  inv_step := Step.inv

end Session

end DufsRam
