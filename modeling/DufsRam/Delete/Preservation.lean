import DufsRam.Delete.Steps

/-!
# The invariants are kept

A step works on the row of at most one job, and on the tree only below the trash of that job, below
the target of the request that owns it and in the quarantine. Everything that belongs to other jobs
stays as it is or loses entries.
-/

namespace DufsRam.Delete

open Relational List Option Function PathMap List.Subset

/-! ### Paths -/

variable {k k' : PurgeJobKey} {row : PurgeRow} {s' : State} {r' r : Request} {db' : Database}
  {times : FileTimes} {server : Server} {t : Uuid}

section Paths

variable {p q rest : RelPath} {id : Uuid}

lemma trashOf_append (p rest : RelPath) (k : PurgeJobKey) :
    trashOf p k ++ rest = p.dropLast ++ deleteTrashName k.id :: rest := by
  simp [trashOf, sibling]

/-- Two trash entries are the same, or neither is above the other. -/
lemma trashOf_eq_of_above (hp : p.Requestable) (hq : q.Requestable)
    (h : trashOf p k <+: trashOf q k' ++ rest) : trashOf p k = trashOf q k' := by
  rw [trashOf_append] at h
  obtain ⟨hpars, hname⟩ := eq_of_prefix_internal (not_internal_dropLast hp)
    (not_internal_dropLast hq) (isInternalName_deleteTrashName k.id)
    (isInternalName_deleteTrashName k'.id) h
  rw [trashOf, trashOf, sibling, sibling, hpars, hname]

/-- What a quarantine is called in the directory of a trash entry. -/
lemma sibling_trashOf (p : RelPath) (k : PurgeJobKey) (name : String) :
    sibling (trashOf p k) name = p.dropLast ++ [name] := by
  simp [trashOf, sibling]

lemma quarantine_apart (hp : p.Requestable) (hq : q.Requestable) :
    ¬ sibling (trashOf p k) (quarantineName id) <+: trashOf q k' ++ rest := by
  rw [sibling_trashOf, trashOf_append]
  intro h
  have hname := (eq_of_prefix_internal (not_internal_dropLast hp) (not_internal_dropLast hq)
    (isInternalName_quarantineName id) (isInternalName_deleteTrashName k'.id) h).2
  exact deleteTrashName_ne_quarantineName k'.id id hname.symm

/-- Above a trash entry are only the directories of its target. -/
lemma prefix_of_prefix_trashOf (hq : q.Requestable) (h : q <+: trashOf p k ++ rest) : q <+: p := by
  rw [trashOf_append] at h
  by_contra hnot
  exact not_lexicalOverlap_internal hq (isInternalName_deleteTrashName k.id)
    (fun hpars => hnot (hpars.trans (List.dropLast_prefix p))) (.inr h)

lemma not_prefix_own_trash (hp : p.Requestable) : ¬ p <+: trashOf p k ++ rest := by
  rw [trashOf_append]
  intro h
  exact not_lexicalOverlap_internal hp (isInternalName_deleteTrashName k.id)
    (not_prefix_of_dropLast hp.1) (.inr h)

end Paths

/-! ### Renames -/

variable {x : Entry} {rest path below : RelPath} {task : StoredPurgeJob × Bool} {w : Work}
  {now : TimeMs} {f f' : Files} {m : Move} {s : State} {key : PurgeJobKey} {outcome : StoredOutcome}
  {target : ExistingReplacementTarget}

section Renames

variable {f f' : Files} {p q : RelPath} {name : String}

section

variable (h : rename f p name times = some f')

include h

lemma rename_eq_some :
    p ≠ [] ∧ f.entry p ≠ none ∧ f.Vacant (sibling p name) ∧
      (∀ rest, f'.entry (sibling p name ++ rest) =
        (f.entry (p ++ rest)).map fun x => if rest = [] then x.touch times else x) ∧
      ∀ q, ¬ sibling p name <+: q → f'.entry q = if p <+: q then none else f.entry q := by
  obtain ⟨f₁, hren, rfl⟩ := map_eq_some_iff.1 h
  obtain ⟨hp, hent, hvac, hmv⟩ := renameEntry_eq_some hren
  refine ⟨hp, hent, hvac, fun rest => ?_, fun q hq => ?_⟩
  · rw [modify_entry, hmv, moved_append]
    by_cases hrest : rest = []
    · simp [hrest]
    · simp [hrest]
  · rw [modify_entry, if_neg (by rintro rfl; exact hq (prefix_refl _)), hmv]
    split_ifs with hsrc
    · exact moved_of_source hq hsrc
    · exact moved_of_other hq hsrc

/-- Away from the new name a rename adds nothing. -/
lemma rename_entry_old (hq : ¬ sibling p name <+: q) (hx : f'.entry q = some x) :
    f.entry q = some x ∧ ¬ p <+: q := by
  rw [(rename_eq_some h).2.2.2.2 q hq] at hx
  split_ifs at hx with hsrc
  exact ⟨hx, hsrc⟩

/-- The contents below the entry go along. -/
lemma rename_entry_new {y : Entry} (hy : f'.entry (sibling p name ++ rest) = some y) :
    ∃ x, f.entry (p ++ rest) = some x ∧ x.content = y.content := by
  rw [(rename_eq_some h).2.2.2.1 rest] at hy
  obtain ⟨x, hx, rfl⟩ := map_eq_some_iff.1 hy
  refine ⟨x, hx, ?_⟩
  split_ifs <;> rfl

lemma rename_entry_source (hx : f.entry (p ++ rest) = some x) :
    ∃ y, f'.entry (sibling p name ++ rest) = some y ∧ y.content = x.content := by
  rw [(rename_eq_some h).2.2.2.1 rest, hx]
  refine ⟨_, rfl, ?_⟩
  split_ifs <;> rfl

end

end Renames

/-! ### What a step leaves alone -/

/-- Below the path there is nothing new. -/
def Shrinks (f f' : Files) (path : RelPath) : Prop :=
  ∀ rest x, f'.entry (path ++ rest) = some x → f.entry (path ++ rest) = some x

/-- Below the path there are only contents that were there. -/
def Thins (f f' : Files) (path : RelPath) : Prop :=
  ∀ rest x, f'.entry (path ++ rest) = some x →
    ∃ y, f.entry (path ++ rest) = some y ∧ y.content = x.content

lemma Shrinks.refl (f : Files) (path : RelPath) : Shrinks f f path := fun _ _ h => h

lemma Shrinks.thins (h : Shrinks f f' path) : Thins f f' path :=
  fun rest x hx => ⟨x, h rest x hx, rfl⟩

lemma Thins.vacant (h : Thins f f' path) (hf : f.Vacant path) : f'.Vacant path := by
  intro rest
  cases hx : f'.entry (path ++ rest) with
  | none => rfl
  | some x =>
    obtain ⟨y, hy, -⟩ := h rest x hx
    cases (hf rest).symm.trans hy

lemma Move.Covers.mono (h : m.Covers f path) (hthn : Thins f f' path) : m.Covers f' path := by
  intro rest x hx
  obtain ⟨y, hy, hcnt⟩ := hthn rest x hx
  obtain ⟨z, hz, hcnt'⟩ := h rest y hy
  exact ⟨z, hz, hcnt'.trans hcnt⟩

/-- What becomes of the trash of a job; while the job is prepared no entry of it is touched. -/
structure TrashKept (f f' : Files) (row : PurgeRow) : Prop where
  thins : Thins f f' row.job.trashPath
  shrinks : row.job.state = .prepared → Shrinks f f' row.job.trashPath

lemma Shrinks.trashKept (h : Shrinks f f' row.job.trashPath) : TrashKept f f' row :=
  ⟨h.thins, fun _ => h⟩

/-- No move and no record of a ready job is forgotten. -/
structure Grows (s s' : State) : Prop where
  moves : s.moves ⊆ s'.moves
  readied : s.readied ⊆ s'.readied

lemma Grows.of_eq (hmvs : s'.moves = s.moves) (hreadied : s'.readied = s.readied) : Grows s s' :=
  ⟨hmvs ▸ refl _, hreadied ▸ refl _⟩

/-- Leases of different holders are apart. -/
def Separate (leases : List Lease) : Prop :=
  ∀ l ∈ leases, ∀ l' ∈ leases, l.holder ≠ l'.holder →
    ∀ p ∈ l.paths, ∀ q ∈ l'.paths, ¬ lexicalOverlap p q

/-- The reserved names in the tree are those of the jobs. -/
def Tracked (db : Database) (f : Files) : Prop :=
  ∀ parents id rest x, f.entry (parents ++ deleteTrashName id :: rest) = some x →
    ∃ k r, db.purge k = some r ∧ r.job.trashPath = parents ++ [deleteTrashName id]

/-- No operation is decided that was not. -/
def Undecided (db db' : Database) : Prop :=
  ∀ k r' o, db'.operation k = some r' → Decides r' o →
    ∃ r, db.operation k = some r ∧ Decides r o ∧ r.leaseToken = r'.leaseToken

lemma Undecided.refl (db : Database) : Undecided db db :=
  fun _ r _ hr hdec => ⟨r, hr, hdec, rfl⟩

/-- What is decided of an operation is right. -/
def Settled (s : State) : Prop :=
  ∀ k r o, s.db.operation k = some r → Decides r o → Sound s r.leaseToken o ∧
    (o = .failed → ∃ request, s.requests r.leaseToken = some request ∧ request.phase.finishing)

/-- Only the row of one job and what is below its trash may change. -/
structure Frame (s s' : State) (touched : Option PurgeJobKey) : Prop where
  rows : ∀ k, touched ≠ some k → s'.db.purge k = s.db.purge k
  files : ∀ k r, touched ≠ some k → s.db.purge k = some r → TrashKept s.files s'.files r
  moves : s.moves ⊆ s'.moves
  readied : s.readied ⊆ s'.readied

/-- What a request that goes on relies on. -/
structure Left (s s' : State) (touched : Option PurgeJobKey) (t : Uuid) (path : RelPath) :
    Prop where
  leases : ∀ l ∈ s.leases, l.holder = .request t → l ∈ s'.leases
  clear : Holds s t path → Clear s path → Clear s' path
  key : ∀ key, Job s t path key → touched ≠ some key

section Frame

variable {s : State} {touched : Option PurgeJobKey}

lemma Frame.grows (F : Frame s s' touched) : Grows s s' := ⟨F.moves, F.readied⟩

lemma Backed.mono {rev : Option Revision}
    (h : Backed s k rev m) (hgrows : Grows s s') : Backed s' k rev m := by
  obtain ⟨hmove, hkey, hrev, d, hd, hbacks⟩ := h
  exact ⟨hgrows.moves hmove, hkey, hrev, d, hgrows.readied hd, hbacks⟩

lemma HasReadied.mono (h : HasReadied s t) (hgrows : Grows s s') : HasReadied s' t := by
  obtain ⟨d, hd, ht, m, hm, hbacks⟩ := h
  exact ⟨d, hgrows.readied hd, ht, m, hgrows.moves hm, hbacks⟩

lemma Sound.mono {o : StoredTerminalState} (h : Sound s t o) (hgrows : Grows s s')
    (hnot : NotMoved s t → NotMoved s' t) : Sound s' t o :=
  ⟨fun ho => (h.succeeded ho).mono hgrows, fun ho => hnot (h.failed ho)⟩

section

variable (F : Frame s s' touched) (hk : touched ≠ some k)

include F hk

lemma RowOk.frame (hrow : s.db.purge k = some row) (h : RowOk s k row) : RowOk s' k row := by
  refine ⟨h.requestable, h.trash, fun hst => ?_⟩
  obtain ⟨m, hbacked, hcov⟩ := h.backed hst
  exact ⟨m, hbacked.mono F.grows, hcov.mono (F.files k row hk hrow).thins⟩

lemma WorkOk.frame (h : WorkOk s k w) : WorkOk s' k w := by
  obtain ⟨row, hrow, hclm, hjob, hvac⟩ := h
  exact ⟨row, (F.rows k hk).trans hrow, hclm, hjob,
    fun hph => (F.files k row hk hrow).thins.vacant (hvac hph)⟩

lemma TaskOk.frame (hlss : ∀ l ∈ s.leases, l.holder = .reconciler k → l ∈ s'.leases)
    (h : TaskOk s k task) : TaskOk s' k task := by
  obtain ⟨row, hrow, hprep, hjob, hls, hvac⟩ := h
  exact ⟨row, (F.rows k hk).trans hrow, hprep, hjob, hlss _ hls rfl,
    fun hclr => (F.files k row hk hrow).thins.vacant (hvac hclr)⟩

end

/-- The trash of the job of a request. -/
lemma Inv.job_trash (hinv : Inv server s) (h : Job s t path key) :
    ∃ row, s.db.purge key = some row ∧ row.job.state = .prepared ∧
      row.job.targetPath = path ∧ row.job.trashPath = trashOf path key := by
  obtain ⟨row, hrow, hprep, rfl⟩ := h.row
  exact ⟨row, hrow, hprep, rfl, (hinv.row key row hrow).trash⟩

/-- The job of a request and its trash. -/
lemma Job.frame (hinv : Inv server s) (F : Frame s s' touched) (L : Left s s' touched t path)
    (h : Job s t path key) : Job s' t path key ∧ Shrinks s.files s'.files (trashOf path key) := by
  obtain ⟨row, hrow, hprep, hpath, htr⟩ := hinv.job_trash h
  have hkey := L.key key h
  exact ⟨⟨L.leases _ h.holds rfl, row, (F.rows key hkey).trans hrow, hprep, hpath⟩,
    htr ▸ (F.files key row hkey hrow).shrinks hprep⟩

/-- What a request leaves alone keeps what is known of a phase. -/
lemma PhaseOk.frame (hinv : Inv server s) (F : Frame s s' touched)
    (hmvs : NotMoved s t → NotMoved s' t) {phase : Phase}
    (hleft : ¬ phase.finishing → Left s s' touched t r.path) (h : PhaseOk server s t r phase) :
    PhaseOk server s' t r phase := by
  by_cases hfin : phase.finishing
  · cases phase with
    | completing outcome => exact Sound.mono h F.grows hmvs
    | done => trivial
    | _ => exact hfin.elim
  have L := hleft hfin
  have hholds : Holds s t r.path → Holds s' t r.path := fun hls => L.leases _ hls rfl
  cases phase with
  | waiting => exact hmvs h
  | leased | inspected => exact ⟨hmvs h.1, hholds h.2⟩
  | scanned target => exact ⟨hmvs h.1, hholds h.2.1, L.clear h.2.1 h.2.2⟩
  | preparing target rounds =>
    obtain ⟨hdet, hnot, hls, hpath⟩ := h
    exact ⟨hdet, hmvs hnot, hholds hls, L.clear hls hpath⟩
  | prepared | started =>
    obtain ⟨hdet, hnot, hpath, hjob, hvac⟩ := h
    obtain ⟨hjob', hshr⟩ := hjob.frame hinv F L
    exact ⟨hdet, hmvs hnot, L.clear hjob.holds hpath, hjob', hshr.thins.vacant hvac⟩
  | renamed target key =>
    obtain ⟨hjob, m, hm, hmrequest, hmkey, hcov, hrev⟩ := h
    obtain ⟨hjob', hshr⟩ := hjob.frame hinv F L
    refine ⟨hjob', m, F.moves hm, hmrequest, hmkey, hcov.mono hshr.thins, fun x hx => hrev x ?_⟩
    have hold := hshr [] x (by rwa [append_nil])
    rwa [append_nil] at hold
  | moved key trashRevision =>
    obtain ⟨hjob, m, hm, hmrequest, hmkey, hcov, hrev⟩ := h
    obtain ⟨hjob', hshr⟩ := hjob.frame hinv F L
    exact ⟨hjob', m, F.moves hm, hmrequest, hmkey, hcov.mono hshr.thins, hrev⟩
  | kept key outcome =>
    obtain ⟨hnot, hjob, hvac, hfail⟩ := h
    obtain ⟨hjob', hshr⟩ := hjob.frame hinv F L
    exact ⟨hmvs hnot, hjob', hshr.thins.vacant hvac, hfail⟩
  | completing | done => exact absurd trivial hfin

/-- What was told stays right while the request goes on. -/
lemma ToldOk.frame (h : ToldOk s t r) (hgrows : Grows s s') (hnot : NotMoved s t → NotMoved s' t)
    (htold : r'.told = r.told) (hph : r.phase.finishing → r'.phase.finishing) : ToldOk s' t r' := by
  unfold ToldOk at h ⊢
  rw [htold]
  split
  · rename_i o htold
    simp only [htold] at h
    exact ⟨h.1.mono hgrows hnot, fun ho => hph (h.2 ho)⟩
  · rename_i htold
    simp only [htold] at h
    exact ⟨hnot h.1, hph h.2⟩
  · trivial
  · trivial

/-- A request that the step does not concern. -/
lemma RequestOk.frame (h : RequestOk server s t r) (hinv : Inv server s) (F : Frame s s' touched)
    (hmvs : ∀ m ∈ s'.moves, m.request = t → m ∈ s.moves)
    (hleft : ¬ r.phase.finishing → Left s s' touched t r.path) : RequestOk server s' t r := by
  have hnot : NotMoved s t → NotMoved s' t := fun hold m hm ht => hold m (hmvs m hm ht) ht
  exact ⟨h.requestable, fun hdet => hnot (h.undispatched hdet),
    h.phase.frame hinv F hnot hleft, h.told.frame F.grows hnot rfl id⟩

/-- A request that goes on. -/
lemma RequestOk.setPhase (h : RequestOk server s t r) {phase : Phase}
    (hph : PhaseOk server s t r phase) (hfin : r.phase.finishing → phase.finishing) :
    RequestOk server s t { r with phase } :=
  ⟨h.requestable, h.undispatched, hph, h.told.frame (.of_eq rfl rfl) id rfl hfin⟩

/-- The first answer stands. -/
lemma RequestOk.tell (h : RequestOk server s t r) (told : Told)
    (hnew : ToldOk s t { r with told := some told }) :
    RequestOk server s t (State.tell r told) := by
  refine ⟨h.requestable, h.undispatched, h.phase, ?_⟩
  have hold := h.told
  unfold ToldOk at hnew hold ⊢
  cases hfst : r.told with
  | none => rwa [State.tell, hfst]
  | some first =>
    rw [hfst] at hold
    rwa [State.tell, hfst]

/-- Assembles the invariants after a step from what it leaves alone and what it concerns. -/
lemma Inv.of_frame (hinv : Inv server s) (F : Frame s s' touched) (hlss : Separate s'.leases)
    (hrow : ∀ k r, touched = some k → s'.db.purge k = some r → RowOk s' k r)
    (htr : Tracked s'.db s'.files) (hreq : ∀ t r, s'.requests t = some r → RequestOk server s' t r)
    (hwork : ∀ k w, s'.works k = some w → (s.works k = some w ∧ touched ≠ some k) ∨ WorkOk s' k w)
    (htask : ∀ k task, s'.reconciliations k = some task →
      (s.reconciliations k = some task ∧ touched ≠ some k ∧
        ∀ l ∈ s.leases, l.holder = .reconciler k → l ∈ s'.leases) ∨ TaskOk s' k task)
    (hop : Settled s') (hmover : ∀ m ∈ s'.moves, s'.requests m.request ≠ none)
    (hpur : ∀ p ∈ s'.purged, p ∈ s.purged ∨ ∀ rest x, p.subtree rest = some x →
      ∃ m, Backed s' p.key p.revision m ∧ ∃ y, m.subtree rest = some y ∧ y.content = x.content) :
    Inv server s' where
  leases := hlss
  row k r hr := by
    by_cases hk : touched = some k
    · exact hrow k r hk hr
    · rw [F.rows k hk] at hr
      exact (hinv.row k r hr).frame F hk hr
  trash := htr
  request := hreq
  work k w hw := (hwork k w hw).elim (fun h => (hinv.work k w h.1).frame F h.2) id
  task k task htask' :=
    (htask k task htask').elim (fun h => (hinv.task k task h.1).frame F h.2.1 h.2.2) id
  operation := hop
  mover := hmover
  purged p hp rest x hx := by
    rcases hpur p hp with hold | hnew
    · obtain ⟨m, hbacked, hm⟩ := hinv.purged p hold rest x hx
      exact ⟨m, hbacked.mono F.grows, hm⟩
    · exact hnew rest x hx

/-- What is known of the operations stays known. -/
lemma Inv.operations (hinv : Inv server s) (hdecided : Undecided s.db s'.db) (hgrows : Grows s s')
    (hmvs : ∀ t r, s.requests t = some r → r.phase.finishing → NotMoved s t → NotMoved s' t)
    (hfin : ∀ t r, s.requests t = some r → r.phase.finishing →
      ∃ r', s'.requests t = some r' ∧ r'.phase.finishing) : Settled s' := by
  intro k r' o hrow hdec
  obtain ⟨r, hr, hdec', htok⟩ := hdecided k r' o hrow hdec
  obtain ⟨hsound, hreq⟩ := hinv.operation k r o hr hdec'
  rw [← htok]
  refine ⟨⟨fun ho => (hsound.succeeded ho).mono hgrows, fun ho => ?_⟩, fun ho => ?_⟩
  · obtain ⟨request, hlook, hph⟩ := hreq ho
    exact hmvs _ request hlook hph (hsound.failed ho)
  · obtain ⟨request, hlook, hph⟩ := hreq ho
    exact hfin _ request hlook hph

lemma setRequest_requests (s : State) (t t' : Uuid) (r : Request) :
    (s.setRequest t r).requests t' = if t' = t then some r else s.requests t' :=
  update_apply ..

/-- The request that a step concerns goes on finishing. -/
lemma finishing_setRequest (h : ∀ q, s.requests t = some q → q.phase.finishing → r'.phase.finishing)
    (t' : Uuid) (q : Request) (hq : s.requests t' = some q) (hph : q.phase.finishing) :
    ∃ q', (s.setRequest t r').requests t' = some q' ∧ q'.phase.finishing := by
  rw [setRequest_requests]
  split_ifs with ht
  · exact ⟨r', rfl, h q (ht ▸ hq) hph⟩
  · exact ⟨q, hq, hph⟩

lemma kept_setRequest (r' : Request) (t' : Uuid) (h : s.requests t' ≠ none) :
    (s.setRequest t r').requests t' ≠ none := by
  rw [setRequest_requests]
  split_ifs
  · simp
  · exact h

end Frame

/-! ### One component of the state -/

section Components

variable {s : State}

/-- A step that changes neither a job nor the tree. -/
structure Idle (s s' : State) : Prop where
  rows : ∀ k, s'.db.purge k = s.db.purge k
  files : s'.files = s.files
  moves : s'.moves = s.moves
  readied : s.readied ⊆ s'.readied
  purged : s'.purged = s.purged

lemma Idle.frame (h : Idle s s') : Frame s s' none :=
  ⟨fun k _ => h.rows k, fun _ _ _ _ => Shrinks.trashKept (h.files ▸ Shrinks.refl _ _),
    h.moves ▸ refl _, h.readied⟩

lemma Idle.clear (h : Idle s s') (hclr : Clear s path) : Clear s' path :=
  fun k r hr => hclr k r (by rwa [← h.rows k])

variable (hinv : Inv server s)

include hinv

lemma Inv.request_idle (h : Idle s s') (hok : RequestOk server s t r)
    (hlss : ¬ r.phase.finishing → ∀ l ∈ s.leases, l.holder = .request t → l ∈ s'.leases) :
    RequestOk server s' t r :=
  hok.frame hinv h.frame (fun _ hm _ => h.moves ▸ hm)
    fun hactv => ⟨hlss hactv, fun _ => h.clear, by simp⟩

lemma Inv.of_idle (h : Idle s s') (hlss : Separate s'.leases)
    (hreq : ∀ t r, s'.requests t = some r → RequestOk server s' t r)
    (hwork : ∀ k w, s'.works k = some w → s.works k = some w ∨ WorkOk s' k w)
    (htask : ∀ k task, s'.reconciliations k = some task → (s.reconciliations k = some task ∧
        ∀ l ∈ s.leases, l.holder = .reconciler k → l ∈ s'.leases) ∨ TaskOk s' k task)
    (hop : Settled s') (hkept : ∀ t, s.requests t ≠ none → s'.requests t ≠ none) :
    Inv server s' := by
  refine hinv.of_frame h.frame hlss (by simp) ?_ hreq
    (fun k w hw => (hwork k w hw).imp_left fun hold => ⟨hold, by simp⟩)
    (fun k task ht => (htask k task ht).imp_left fun hold => ⟨hold.1, by simp, hold.2⟩)
    hop (fun m hm => hkept _ (hinv.mover m (h.moves ▸ hm))) (fun p hp => .inl (h.purged ▸ hp))
  intro parents id rest x hx
  rw [h.files] at hx
  obtain ⟨k, row, hrow, htr⟩ := hinv.trash parents id rest x hx
  exact ⟨k, row, (h.rows k).trans hrow, htr⟩

/-- What is known of the operations when no request changes. -/
lemma Inv.operations_same (hdec : Undecided s.db s'.db) (hgrows : Grows s s')
    (hmvs : s'.moves = s.moves) (hreqs : s'.requests = s.requests) : Settled s' := by
  refine hinv.operations hdec hgrows (fun _ _ _ _ hnot => ?_) fun _ r hr hph => ⟨r, hreqs ▸ hr, hph⟩
  rwa [NotMoved, hmvs]

/-- A step that leaves the requests and the leases alone, too. -/
lemma Inv.of_idle_same (h : Idle s s') (hreqs : s'.requests = s.requests)
    (hlss : s'.leases = s.leases)
    (hwork : ∀ k w, s'.works k = some w → s.works k = some w ∨ WorkOk s' k w)
    (htask : ∀ k task, s'.reconciliations k = some task →
      s.reconciliations k = some task ∨ TaskOk s' k task) (hop : Settled s') : Inv server s' :=
  hinv.of_idle h (hlss ▸ hinv.leases)
    (fun t r hr => hinv.request_idle h (hinv.request t r (hreqs ▸ hr)) fun _ _ hl _ => hlss ▸ hl)
    hwork (fun k task ht => (htask k task ht).imp_left fun hold => ⟨hold, fun _ hl _ => hlss ▸ hl⟩)
    hop (hreqs ▸ fun _ h => h)

lemma Inv.setDb (hprg : ∀ k, db'.purge k = s.db.purge k)
    (hset : Settled { s with db := db' }) : Inv server { s with db := db' } :=
  hinv.of_idle_same ⟨hprg, rfl, rfl, fun _ => id, rfl⟩ rfl rfl (fun _ _ => .inl) (fun _ _ => .inl)
    hset

lemma Inv.quiet (hdb : Quiet s.db db') : Inv server { s with db := db' } :=
  hinv.setDb hdb.purge (hinv.operations_same hdb.decided (.of_eq rfl rfl) rfl rfl)

lemma Inv.setRequest (hok : RequestOk server s t r')
    (hfin : ∀ r, s.requests t = some r → r.phase.finishing → r'.phase.finishing) :
    Inv server (s.setRequest t r') := by
  have hidle : Idle s (s.setRequest t r') := ⟨fun _ => rfl, rfl, rfl, fun _ => id, rfl⟩
  refine hinv.of_idle hidle hinv.leases (fun t' q hq => ?_) (fun k w hw => .inl hw)
    (fun k task htask => .inl ⟨htask, fun l hl _ => hl⟩)
    (hinv.operations (.refl _) (.of_eq rfl rfl) (fun _ _ _ _ hnot => hnot)
      (finishing_setRequest hfin)) (kept_setRequest r')
  rw [setRequest_requests] at hq
  split_ifs at hq with ht
  · subst ht
    cases hq
    exact hinv.request_idle hidle hok fun _ l hl _ => hl
  · exact hinv.request_idle hidle (hinv.request t' q hq) fun _ l hl _ => hl

/-- A request goes on. -/
lemma Inv.goOn (hr : s.requests t = some r) (hok : RequestOk server s t r')
    (hfin : r.phase.finishing → r'.phase.finishing) : Inv server (s.setRequest t r') := by
  refine hinv.setRequest hok fun q hq => ?_
  cases hr.symm.trans hq
  exact hfin

lemma Inv.setPhase (hr : s.requests t = some r) {phase : Phase} (hph : PhaseOk server s t r phase)
    (hfin : r.phase.finishing → phase.finishing) : Inv server (s.setPhase t r phase) :=
  hinv.goOn hr ((hinv.request t r hr).setPhase hph hfin) hfin

lemma Inv.setLeases {leases : List Lease} (hsep : Separate leases)
    (hreq : ∀ t r, s.requests t = some r → ¬ r.phase.finishing →
      ∀ l ∈ s.leases, l.holder = .request t → l ∈ leases)
    (htask : ∀ k task, s.reconciliations k = some task →
      ∀ l ∈ s.leases, l.holder = .reconciler k → l ∈ leases) : Inv server { s with leases } := by
  have hidle : Idle s { s with leases } := ⟨fun _ => rfl, rfl, rfl, fun _ => id, rfl⟩
  exact hinv.of_idle hidle hsep
    (fun t r hr => hinv.request_idle hidle (hinv.request t r hr) (hreq t r hr))
    (fun k w hw => .inl hw) (fun k task ht => .inl ⟨ht, htask k task ht⟩)
    (hinv.operations_same (.refl _) (.of_eq rfl rfl) rfl rfl) fun _ h => h

lemma Inv.lease {holder : Holder} {paths : List RelPath} (hfree : s.leasable paths) :
    Inv server { s with leases := ⟨holder, paths⟩ :: s.leases } := by
  refine hinv.setLeases ?_ (fun _ _ _ _ l hl _ => mem_cons_of_mem _ hl)
    fun _ _ _ l hl _ => mem_cons_of_mem _ hl
  intro l hl l' hl' hne p hp q hq
  rcases mem_cons.1 hl with rfl | hl <;> rcases mem_cons.1 hl' with rfl | hl'
  · exact absurd rfl hne
  · exact fun hov => hfree l' hl' q hq p hp (lexicalOverlap_comm.1 hov)
  · exact hfree l hl p hp q hq
  · exact hinv.leases l hl l' hl' hne p hp q hq

/-- A lease is dropped that nobody relies on. -/
lemma Inv.release (holder : Holder)
    (hreq : ∀ t r, holder = .request t → s.requests t = some r → r.phase.finishing)
    (htask : ∀ k, holder = .reconciler k → s.reconciliations k = none) :
    Inv server (s.release holder) := by
  have hmem : ∀ l, l ∈ (s.release holder).leases ↔ l ∈ s.leases ∧ l.holder ≠ holder := by
    simp [State.release]
  refine hinv.setLeases (fun l hl l' hl' => hinv.leases l ((hmem l).1 hl).1 l' ((hmem l').1 hl').1)
    (fun t r hr hactv l hl hholder => (hmem l).2 ⟨hl, ?_⟩)
    (fun k task ht l hl hholder => (hmem l).2 ⟨hl, ?_⟩)
  · rintro rfl
    exact hactv (hreq t r hholder hr)
  · rintro rfl
    cases (htask k hholder).symm.trans ht

lemma Inv.setWork {w' : Option Work} (hok : ∀ w, w' = some w → WorkOk s k w) :
    Inv server (s.setWork k w') := by
  refine hinv.of_idle_same ⟨fun _ => rfl, rfl, rfl, fun _ => id, rfl⟩ rfl rfl (fun k' w hw => ?_)
    (fun _ _ => .inl) (hinv.operations_same (.refl _) (.of_eq rfl rfl) rfl rfl)
  simp only [State.setWork, update_apply] at hw
  split_ifs at hw with hk
  · subst hk
    exact .inr (hok w hw)
  · exact .inl hw

lemma Inv.setReconciliation {task' : Option (StoredPurgeJob × Bool)}
    (hok : ∀ task, task' = some task → TaskOk s k task) :
    Inv server (s.setReconciliation k task') := by
  refine hinv.of_idle_same ⟨fun _ => rfl, rfl, rfl, fun _ => id, rfl⟩ rfl rfl (fun _ _ => .inl)
    (fun k' task htask => ?_) (hinv.operations_same (.refl _) (.of_eq rfl rfl) rfl rfl)
  simp only [State.setReconciliation, update_apply] at htask
  split_ifs at htask with hk
  · subst hk
    exact .inr (hok task htask)
  · exact .inl htask

/-- A reconciliation ends with its lease. -/
lemma Inv.endReconciliation : Inv server (s.endReconciliation k) := by
  have h : Inv server (s.setReconciliation k none) := hinv.setReconciliation (by simp)
  refine h.release (.reconciler k) (by simp) ?_
  rintro _ ⟨⟩
  exact update_self ..

lemma Inv.addReadied (d : Readied) : Inv server { s with readied := d :: s.readied } := by
  have hreadied : s.readied ⊆ d :: s.readied := subset_cons_self _ _
  exact hinv.of_idle_same ⟨fun _ => rfl, rfl, rfl, hreadied, rfl⟩ rfl rfl (fun _ _ => .inl)
    (fun _ _ => .inl) (hinv.operations_same (.refl _) ⟨refl _, hreadied⟩ rfl rfl)

end Components

/-! ### Steps that change no job and no entry -/

section Control

variable {s : State}

lemma Advance.finishing (h : Advance server s r r') : r.phase.finishing → r'.phase.finishing := by
  cases h with
  | rejected => exact fun _ => trivial
  | told | silent => exact id
  | inspected hph | scanned hph | dispatched hph | again hph | started hph
  | kept hph | verified hph =>
    rw [hph]
    exact False.elim

/-- A scan that finds nothing clears the path. -/
lemma clear_of_conflicts (h : s.conflicts path = false) : Clear s path := by
  intro k row hrow hbel
  rw [State.conflicts, List.any_eq_false] at h
  have hkey := (purge_eq_some_iff.1 hrow).2
  refine h (⟨1, k.owner, k.id, 1⟩, ⟨row.job.trashPath, false⟩) ?_ (by simp [lexicalOverlap, hbel])
  refine mem_statePaths.2 (.inr ⟨rfl, row, hrow, mem_purgeRow_statePaths.2 (.inr ⟨?_, rfl⟩)⟩)
  rw [hkey]

lemma Advance.ok (h : Advance server s r r') (hidle : Idle s s') (hok : RequestOk server s' t r) :
    RequestOk server s' t r' := by
  have hph' := hok.phase
  have hfin := h.finishing
  cases h with
  | inspected hph | again hph | started hph =>
    rw [hph] at hph'
    exact hok.setPhase hph' hfin
  | rejected hph hfail =>
    have hnot : NotMoved s' t := by
      obtain hph | ⟨target, hph⟩ | ⟨target, rounds, hph⟩ := hph
      · rw [hph] at hph'
        exact hph'.1
      · rw [hph] at hph'
        exact hph'.1
      · rw [hph] at hph'
        exact hph'.2.1
    refine hok.setPhase ⟨fun ho => ?_, fun _ => hnot⟩ hfin
    cases hfail.symm.trans ho
  | scanned hph hclr =>
    rw [hph] at hph'
    exact hok.setPhase ⟨hph'.1, hph'.2, hidle.clear (clear_of_conflicts hclr)⟩ hfin
  | dispatched hph =>
    rw [hph] at hph'
    exact ⟨hok.requestable, by simp, ⟨rfl, hph'⟩, hok.told.frame (.of_eq rfl rfl) id rfl hfin⟩
  | kept hph hfail =>
    rw [hph] at hph'
    obtain ⟨-, hnot, -, hjob, hvac⟩ := hph'
    exact hok.setPhase ⟨hnot, hjob, hvac, hfail⟩ hfin
  | verified hph hent =>
    rw [hph] at hph'
    obtain ⟨hjob, m, hm, hreq, hkey, hcov, hrev⟩ := hph'
    exact hok.setPhase ⟨hjob, m, hm, hreq, hkey, hcov, hrev _ (hidle.files ▸ hent)⟩ hfin
  | @told told hcs =>
    refine hok.tell told ?_
    obtain rfl | ⟨rfl, hdet, hph⟩ := hcs
    · trivial
    · exact ⟨hok.undispatched hdet, hph⟩
  | silent => exact hok

/-- A request that is done. -/
lemma Ends.ok (h : Ends r r') (hok : RequestOk server s t r) : RequestOk server s t r' := by
  have hdone : RequestOk server s t { r with phase := .done } :=
    hok.setPhase trivial fun _ => trivial
  cases h with
  | silent => exact hdone
  | told =>
    refine hdone.tell _ ?_
    split_ifs with hdet
    · trivial
    · exact ⟨hok.undispatched (Bool.eq_false_iff.2 hdet), trivial⟩

lemma Ends.phase (h : Ends r r') : r'.phase = .done := by
  cases h <;> rfl

section

variable (hinv : Inv server s)

include hinv

lemma Inv.begin {key : OperationKey} {revision : Revision}
    (hfr : s.requests t = none) (hpath : path.Requestable) (hdb : Quiet s.db db') : Inv server
      ({ s with db := db' }.setRequest t ⟨key, path, revision, false, .waiting, none⟩) := by
  have hnot : NotMoved s t := fun m hm ht => hinv.mover m hm (by rw [ht, hfr])
  refine (hinv.quiet hdb).setRequest ⟨hpath, fun _ => hnot, hnot, trivial⟩ fun r hr => ?_
  cases hfr.symm.trans hr

section

variable (hr : s.requests t = some r)

include hr

lemma Inv.acquire (hph : r.phase = .waiting) (hfree : s.leasable [r.path]) :
    Inv server ({ s with leases := ⟨.request t, [r.path]⟩ :: s.leases }.setPhase t r .leased) := by
  have h : Inv server { s with leases := ⟨.request t, [r.path]⟩ :: s.leases } := hinv.lease hfree
  have hnot := (h.request t r hr).phase
  rw [hph] at hnot
  refine h.setPhase hr ⟨hnot, mem_cons_self⟩ ?_
  rw [hph]
  exact id

lemma Inv.advance (hdb : Quiet s.db db') (h : Advance server s r r') :
    Inv server ({ s with db := db' }.setRequest t r') := by
  have hqt := hinv.quiet hdb
  exact hqt.goOn hr (h.ok ⟨hdb.purge, rfl, rfl, fun _ => id, rfl⟩ (hqt.request t r hr)) h.finishing

lemma Inv.finish (hok : RequestOk server s t r') (hdone : r'.phase.finishing) :
    Inv server ((s.release (.request t)).setRequest t r') := by
  refine (hinv.goOn hr hok fun _ => hdone).release (.request t) ?_ (by simp)
  rintro _ q ⟨⟩ hq
  rw [setRequest_requests, if_pos rfl] at hq
  cases hq
  exact hdone

lemma Inv.close (hdb : Quiet s.db db') (h : Ends r r') :
    Inv server (({ s with db := db' }.release (.request t)).setRequest t r') := by
  have hqt := hinv.quiet hdb
  refine hqt.finish hr (h.ok (hqt.request t r hr)) ?_
  rw [h.phase]
  trivial

lemma Inv.complete (hph : r.phase = .completing outcome) (hprg : ∀ k, db'.purge k = s.db.purge k)
    (hdecided : ∀ k r' o, db'.operation k = some r' → Decides r' o →
      (∃ row, s.db.operation k = some row ∧ Decides row o ∧ row.leaseToken = r'.leaseToken) ∨
        (r'.leaseToken = t ∧ outcome.state = o)) :
    Inv server (({ s with db := db' }.release (.request t)).setRequest t
      { State.tell r (.outcome outcome) with phase := .done }) := by
  have hok := hinv.request t r hr
  have hsound : Sound s t outcome.state := by
    have hold := hok.phase
    rwa [hph] at hold
  have hdone : RequestOk server s t { r with phase := .done } :=
    hok.setPhase trivial fun _ => trivial
  have h := hinv.finish hr (hdone.tell (.outcome outcome) ⟨hsound, fun _ => trivial⟩) trivial
  refine h.setDb hprg fun k row o hrow hdec => ?_
  obtain ⟨row', hrow', hdec', htok⟩ | ⟨rfl, rfl⟩ := hdecided k row o hrow hdec
  · obtain ⟨hsound', hfin⟩ := h.operation k row' o hrow' hdec'
    rw [← htok]
    exact ⟨hsound'.mono (.of_eq rfl rfl) id, hfin⟩
  · exact ⟨hsound.mono (.of_eq rfl rfl) id, fun _ => ⟨_, update_self .., trivial⟩⟩

end

lemma Inv.work_quiet {w' : Work} (hw : s.works k = some w) (hdb : Quiet s.db db')
    (hjob : w'.job = w.job) (hph : w'.phase = .completing → s.files.entry w.job.trashPath = none) :
    Inv server ({ s with db := db' }.setWork k (some w')) := by
  have h := hinv.quiet hdb
  obtain ⟨row, hrow, hclm, hrowjob, -⟩ := h.work k w hw
  refine h.setWork ?_
  rintro _ ⟨⟩
  refine ⟨row, hrow, hclm, hrowjob.trans hjob.symm, fun hcpl => ?_⟩
  rw [hrowjob]
  exact vacant_of_entry (hph hcpl)

lemma Inv.reconcile (hrow : s.db.purge k = some row)
    (hprep : row.job.state = .prepared)
    (hfree : s.leasable [row.job.targetPath, row.job.trashPath]) :
    Inv server (s.reconciling k row) := by
  have h : Inv server { s with
      leases := ⟨.reconciler k, [row.job.targetPath, row.job.trashPath]⟩ :: s.leases } :=
    hinv.lease hfree
  refine h.setReconciliation ?_
  rintro _ ⟨⟩
  exact ⟨row, hrow, hprep, rfl, mem_cons_self, by simp⟩

end

end Control

/-! ### Steps that write the row of a job -/

section Rows

variable {s : State} {row' : Option PurgeRow}

/-- A row that is written with the path it had, or removed, blocks nothing new. -/
lemma clear_of_writes (hdb : Writes s.db s'.db k row')
    (hrow : ∀ r', row' = some r' → ∃ r, s.db.purge k = some r ∧ r.job.trashPath = r'.job.trashPath)
    (h : Clear s path) : Clear s' path := by
  intro k' r' hr'
  rw [hdb.purge] at hr'
  split_ifs at hr' with hk
  · obtain ⟨r, hr, hpath⟩ := hrow r' hr'
    rw [← hpath]
    exact h k r hr
  · exact h k' r' hr'

section

variable (hinv : Inv server s)

include hinv

/-- No request owns the job on whose target another has a lease. -/
lemma Inv.not_job_of_lease {l : Lease} (hl : l ∈ s.leases) (hne : l.holder ≠ .request t)
    (hrow : s.db.purge k = some row) (htgt : row.job.targetPath ∈ l.paths) : ¬ Job s t path k := by
  intro h
  obtain ⟨r, hr, -, hpath⟩ := h.row
  cases hrow.symm.trans hr
  refine hinv.leases l hl _ h.holds hne _ htgt path mem_cons_self ?_
  rw [hpath]
  exact .inl (prefix_refl path)

lemma Inv.task_none_of_state (hrow : s.db.purge k = some row) (hst : row.job.state ≠ .prepared) :
    s.reconciliations k = none := by
  refine eq_none_iff_forall_ne_some.2 fun task h => ?_
  obtain ⟨r, hr, hprep, -⟩ := hinv.task _ task h
  cases hrow.symm.trans hr
  exact hst hprep

/-- A job with a reconciliation is no request's own. -/
lemma Inv.task_none_of_job (hjob : Job s t path k) : s.reconciliations k = none := by
  refine eq_none_iff_forall_ne_some.2 fun task h => ?_
  obtain ⟨r, hr, -, -, hls, -⟩ := hinv.task _ task h
  exact hinv.not_job_of_lease hls (by simp) hr mem_cons_self hjob

lemma Inv.work_none_of_state (hrow : s.db.purge k = some row) (hst : row.job.state ≠ .claimed) :
    s.works k = none := by
  refine eq_none_iff_forall_ne_some.2 fun w h => ?_
  obtain ⟨r, hr, hclm, -⟩ := hinv.work _ w h
  cases hrow.symm.trans hr
  exact hst hclm

lemma Inv.work_none_of_job (hjob : Job s t path k) : s.works k = none := by
  obtain ⟨row, hrow, hprep, -⟩ := hjob.row
  exact hinv.work_none_of_state hrow (by rw [hprep]; simp)

/-- The row of a job is written that nobody works on. -/
lemma Inv.writes (hdb : Writes s.db db' k row')
    (hjob : ∀ t q, s.requests t = some q → ¬ q.phase.finishing → ¬ Job s t q.path k)
    (hwork : s.works k = none) (htask : s.reconciliations k = none)
    (htr : ∀ r, s.db.purge k = some r → s.files.Vacant r.job.trashPath ∨
      ∃ r', row' = some r' ∧ r'.job.trashPath = r.job.trashPath)
    (hclr : ∀ t q, s.requests t = some q → Holds s t q.path → Clear s q.path →
      Clear { s with db := db' } q.path)
    (hrow : ∀ q, row' = some q → RowOk { s with db := db' } k q) :
    Inv server { s with db := db' } := by
  have F : Frame s { s with db := db' } (some k) :=
    ⟨fun k' hk => by rw [hdb.purge, if_neg fun heq => hk (congrArg some heq)],
      fun _ _ _ _ => (Shrinks.refl _ _).trashKept, refl _, refl _⟩
  have hdecided : Undecided s.db db' := by
    intro k r' o hr' hdec
    refine ⟨r', ?_, hdec, rfl⟩
    rwa [Database.operation, ← hdb.operations]
  refine hinv.of_frame F hinv.leases (fun k' q hk hq => ?_) (fun parents id rest x hx => ?_)
    (fun t q hq => (hinv.request t q hq).frame hinv F (fun m hm _ => hm) fun hactv =>
      ⟨fun l hl _ => hl, hclr t q hq, ?_⟩)
    (fun k' w hw => .inl ⟨hw, ?_⟩) (fun k' task ht => .inl ⟨ht, ?_, fun l hl _ => hl⟩)
    (hinv.operations_same hdecided (.of_eq rfl rfl) rfl rfl) hinv.mover fun p hp => .inl hp
  · cases hk
    rw [hdb.purge, if_pos rfl] at hq
    exact hrow q hq
  · obtain ⟨k', r, hr, hpath⟩ := hinv.trash parents id rest x hx
    by_cases hk : k = k'
    · subst hk
      obtain hvac | ⟨r', rfl, hsame⟩ := htr r hr
      · cases hx.symm.trans (hvac.entry ⟨rest, by rw [hpath]; simp⟩)
      · exact ⟨k, r', by rw [hdb.purge, if_pos rfl], hsame.trans hpath⟩
    · exact ⟨k', r, by rw [hdb.purge, if_neg hk, hr], hpath⟩
  · rintro _ hown ⟨⟩
    exact hjob t q hq hactv hown
  · rintro ⟨⟩
    cases hwork.symm.trans hw
  · rintro ⟨⟩
    cases htask.symm.trans ht

/-- A row that there is is written with the trash it has, or removed when that is gone. -/
lemma Inv.writes_row (hrow : s.db.purge k = some row) (hdb : Writes s.db db' k row')
    (hjob : ∀ t q, s.requests t = some q → ¬ q.phase.finishing → ¬ Job s t q.path k)
    (hwork : s.works k = none) (htask : s.reconciliations k = none)
    (htr : s.files.Vacant row.job.trashPath ∨ row'.isSome)
    (hsame : ∀ q, row' = some q → q.job.trashPath = row.job.trashPath ∧
      RowOk { s with db := db' } k q) : Inv server { s with db := db' } := by
  refine hinv.writes hdb hjob hwork htask (fun q hq => ?_)
    (fun t q _ _ => clear_of_writes hdb fun q hq => ⟨row, hrow, (hsame q hq).1.symm⟩)
    fun q hq => (hsame q hq).2
  cases hrow.symm.trans hq
  refine htr.imp_right fun hsome => ?_
  obtain ⟨q, hq⟩ := isSome_iff_exists.1 hsome
  exact ⟨q, hq, (hsame q hq).1⟩

/-- The trash of a job that is just prepared is free. -/
lemma Inv.vacant_of_prepare {q : PurgeRow} (hfr : s.db.purge k = none)
    (hdb : Writes s.db db' k (some q)) (hpath : q.job.trashPath = trashOf path k) :
    s.files.Vacant (trashOf path k) := by
  intro rest
  cases hx : s.files.entry (trashOf path k ++ rest) with
  | none => rfl
  | some x =>
    rw [trashOf_append] at hx
    obtain ⟨k', r, hr, htr⟩ := hinv.trash _ _ rest x hx
    have hne : k ≠ k' := by
      rintro rfl
      cases hfr.symm.trans hr
    have hr' : db'.purge k' = some r := by rw [hdb.purge, if_neg hne, hr]
    have hq : db'.purge k = some q := by rw [hdb.purge, if_pos rfl]
    -- two jobs with one trash
    have hsame : q.job.trashPath = r.job.trashPath := by
      rw [hpath, htr, trashOf, sibling]
    have heq : q = r := Table.eq_of_unique (purge_eq_some_iff.1 hq).1 (purge_eq_some_iff.1 hr').1
      (congrArg some hsame) rfl
    subst heq
    exact absurd ((purge_eq_some_iff.1 hq).2.symm.trans (purge_eq_some_iff.1 hr').2) hne

section

variable (hr : s.requests t = some r)

include hr

lemma Inv.prepare {rounds : ℕ}
    (hph : r.phase = .preparing target rounds) (hfr : s.db.purge k = none) (hdb : Writes s.db db' k
      (some (.prepare now (State.purgeJob r.path (trashOf r.path k) k target)))) :
    Inv server ({ s with db := db' }.setPhase t r (.prepared target k)) := by
  have hok := hinv.request t r hr
  have hold := hok.phase
  rw [hph] at hold
  obtain ⟨hdet, hnot, hholds, -⟩ := hold
  have hnone : ∀ {q}, s.db.purge k ≠ some q := by simp [hfr]
  have h : Inv server { s with db := db' } := by
    refine hinv.writes hdb (fun t' q _ _ hjob => ?_) ?_ ?_ (fun q hq => absurd hq hnone)
      (fun t' q hq hls hpath k' row hrow hbel => ?_) ?_
    · obtain ⟨q, hq, -⟩ := hjob.row
      exact hnone hq
    · refine eq_none_iff_forall_ne_some.2 fun w hw => ?_
      obtain ⟨q, hq, -⟩ := hinv.work k w hw
      exact hnone hq
    · refine eq_none_iff_forall_ne_some.2 fun task htask => ?_
      obtain ⟨q, hq, -⟩ := hinv.task k task htask
      exact hnone hq
    · rw [hdb.purge] at hrow
      split_ifs at hrow with hk
      · cases hrow
        have hbel' : q.path <+: trashOf r.path k ++ [] := by
          rw [append_nil]
          exact hbel
        by_cases ht : t' = t
        · subst ht
          cases hr.symm.trans hq
          exact not_prefix_own_trash hok.requestable hbel'
        · exact hinv.leases _ hls _ hholds (fun heq => ht (Holder.request.inj heq)) q.path
            mem_cons_self r.path mem_cons_self
            (.inr (prefix_of_prefix_trashOf (hinv.request t' q hq).requestable hbel'))
      · exact hpath k' row hrow hbel
    · rintro q ⟨⟩
      exact ⟨hok.requestable, rfl, fun hst => absurd rfl hst⟩
  have hold := (h.request t r hr).phase
  rw [hph] at hold
  refine h.setPhase hr ⟨hdet, hnot, hold.2.2.2, ⟨hholds,
    .prepare now (State.purgeJob r.path (trashOf r.path k) k target), ?_, rfl, rfl⟩,
    hinv.vacant_of_prepare hfr hdb rfl⟩ (by rw [hph]; exact id)
  show db'.purge k = _
  rw [hdb.purge, if_pos rfl]

/-- A request writes the row of its own job and has nothing else to do. -/
lemma Inv.writes_own (hjob : Job s t r.path k) (hrow : s.db.purge k = some row)
    (hdb : Writes s.db db' k row') (htr : s.files.Vacant row.job.trashPath ∨ row'.isSome)
    (hsame : ∀ q, row' = some q → q.job.trashPath = row.job.trashPath ∧ RowOk s k q)
    (hsound : Sound s t outcome.state) :
    Inv server ({ s with db := db' }.setPhase t r (.completing outcome)) := by
  have hdone : Inv server (s.setPhase t r .done) := hinv.setPhase hr trivial fun _ => trivial
  have h : Inv server { s.setPhase t r .done with db := db' } := by
    refine hdone.writes_row hrow hdb (fun t' q hq hactv => ?_) (hinv.work_none_of_job hjob)
      (hinv.task_none_of_job hjob) htr fun q hq => ?_
    · obtain ⟨_, hrow', -, htgt⟩ := hjob.row
      cases hrow.symm.trans hrow'
      refine hdone.not_job_of_lease hjob.holds ?_ hrow (by simp [htgt])
      rintro ⟨⟩
      rw [State.setPhase, setRequest_requests, if_pos rfl] at hq
      cases hq
      exact hactv trivial
    · obtain ⟨hpath, hok⟩ := hsame q hq
      refine ⟨hpath, hok.requestable, hok.trash, fun hst => ?_⟩
      obtain ⟨m, hbacked, hcov⟩ := hok.backed hst
      exact ⟨m, hbacked.mono (.of_eq rfl rfl), hcov⟩
  have hr' : { s.setPhase t r .done with db := db' }.requests t = some { r with phase := .done } :=
    update_self ..
  have hcpl : Inv server ({ s.setPhase t r .done with db := db' }.setPhase t
      { r with phase := .done } (.completing outcome)) :=
    h.setPhase hr' (hsound.mono (.of_eq rfl rfl) id) fun _ => trivial
  simpa only [State.setPhase, State.setRequest, update_idem] using hcpl

lemma Inv.ready {trashRevision : Revision}
    (hph : r.phase = .moved k trashRevision) (hrow : s.db.purge k = some row)
    (hdb : Writes s.db db' k (some (row.markReady now trashRevision))) :
    Inv server ({ s with
      db := db'
      readied := ⟨t, k, trashRevision⟩ :: s.readied }.setPhase t r (.completing success)) := by
  have h := hinv.addReadied ⟨t, k, trashRevision⟩
  have hold := (h.request t r hr).phase
  rw [hph] at hold
  obtain ⟨hjob, m, hm, hreq, hkey, hcov, hrev⟩ := hold
  obtain ⟨_, hrow', -, -, htr⟩ := h.job_trash hjob
  cases hrow.symm.trans hrow'
  refine h.writes_own hr hjob hrow hdb (.inr rfl) ?_
    ⟨fun _ => ⟨_, mem_cons_self, rfl, m, hm, hreq, hkey, hrev⟩, by rintro ⟨⟩⟩
  rintro q ⟨⟩
  have hrowok := h.row k row hrow
  refine ⟨rfl, hrowok.requestable, hrowok.trash, fun _ => ⟨m, ⟨hm, hkey, ?_, ?_⟩, htr ▸ hcov⟩⟩
  · rw [hrev]
    rfl
  · exact ⟨_, mem_cons_self, rfl, hrev.symm⟩

lemma Inv.remove (hph : r.phase = .kept k outcome) (hdb : Writes s.db db' k none) :
    Inv server ({ s with db := db' }.setPhase t r (.completing outcome)) := by
  have hold := (hinv.request t r hr).phase
  rw [hph] at hold
  obtain ⟨hnot, hjob, hvac, hfail⟩ := hold
  obtain ⟨row, hrow, -, -, htr⟩ := hinv.job_trash hjob
  refine hinv.writes_own hr hjob hrow hdb (.inl (htr ▸ hvac)) (by simp)
    ⟨fun ho => ?_, fun _ => hnot⟩
  cases hfail.symm.trans ho

end

/-- The worker writes the row of a job that is past prepared. -/
lemma Inv.writes_past (hrow : s.db.purge k = some row) (hst : row.job.state ≠ .prepared)
    (hwork : s.works k = none) (hdb : Writes s.db db' k row')
    (htr : s.files.Vacant row.job.trashPath ∨ row'.isSome)
    (hsame : ∀ q, row' = some q → q.job.targetPath = row.job.targetPath ∧
      q.job.trashPath = row.job.trashPath ∧ q.job.trashRevision = row.job.trashRevision) :
    Inv server { s with db := db' } := by
  refine hinv.writes_row hrow hdb (fun t q _ _ hjob => ?_) hwork
    (hinv.task_none_of_state hrow hst) htr fun q hq => ?_
  · obtain ⟨r, hr, hprep, -⟩ := hjob.row
    cases hrow.symm.trans hr
    exact hst hprep
  obtain ⟨htgt, hpath, hrev⟩ := hsame q hq
  have hrowok := hinv.row k row hrow
  obtain ⟨m, hbacked, hcov⟩ := hrowok.backed hst
  refine ⟨hpath, htgt ▸ hrowok.requestable, by rw [hpath, hrowok.trash, htgt],
    fun _ => ⟨m, ?_, hpath ▸ hcov⟩⟩
  rw [hrev]
  exact hbacked.mono (.of_eq rfl rfl)

lemma Inv.claim (hrow : s.db.purge k = some row) (hrdy : row.job.state = .ready)
    (hdb : Writes s.db db' k (some (row.claim now))) :
    Inv server ({ s with db := db' }.setWork k (some ⟨(row.claim now).job, .opening⟩)) := by
  have hwork := hinv.work_none_of_state hrow (by rw [hrdy]; simp)
  have h := hinv.writes_past hrow (by rw [hrdy]; simp) hwork hdb (.inr rfl)
    (by rintro q ⟨⟩; exact ⟨rfl, rfl, rfl⟩)
  refine h.setWork ?_
  rintro w ⟨⟩
  refine ⟨row.claim now, ?_, rfl, rfl, by simp⟩
  show db'.purge k = _
  rw [hdb.purge, if_pos rfl]

/-- The worker is done with a job. -/
lemma Inv.end_work (hw : s.works k = some w) (hrow : s.db.purge k = some row)
    (hdb : Writes s.db db' k row') (htr : s.files.Vacant row.job.trashPath ∨ row'.isSome)
    (hsame : ∀ q, row' = some q → q.job.targetPath = row.job.targetPath ∧
      q.job.trashPath = row.job.trashPath ∧ q.job.trashRevision = row.job.trashRevision) :
    Inv server ({ s with db := db' }.setWork k none) := by
  obtain ⟨_, hrow', hclm, -⟩ := hinv.work k w hw
  cases hrow.symm.trans hrow'
  have h : Inv server (s.setWork k none) := hinv.setWork (by simp)
  exact h.writes_past hrow (by rw [hclm]; simp) (update_self ..) hdb htr hsame

lemma Inv.finish_work (hw : s.works k = some w) (hph : w.phase = .completing)
    (hdb : Writes s.db db' k none) : Inv server ({ s with db := db' }.setWork k none) := by
  obtain ⟨row, hrow, -, -, hvac⟩ := hinv.work k w hw
  exact hinv.end_work hw hrow hdb (.inl (hvac hph)) (by simp)

lemma Inv.release_task (htask : s.reconciliations k = some task) (hclr : task.2 = true)
    (hdb : Writes s.db db' k none) : Inv server ({ s with db := db' }.endReconciliation k) := by
  obtain ⟨row, hrow, hprep, -, hls, hvac⟩ := hinv.task k task htask
  have h : Inv server (s.setReconciliation k none) := hinv.setReconciliation (by simp)
  have h' : Inv server { s.setReconciliation k none with db := db' } :=
    h.writes_row hrow hdb
      (fun t q _ _ => h.not_job_of_lease hls (by simp) hrow mem_cons_self)
      (hinv.work_none_of_state hrow (by rw [hprep]; simp)) (update_self ..)
      (.inl (hvac hclr)) (by simp)
  refine h'.release (.reconciler k) (by simp) ?_
  rintro _ ⟨⟩
  exact update_self ..

end

end Rows

/-! ### Steps that change the tree -/

section Tree

variable {s : State} {row' : PurgeRow} {rest : RelPath} {files : Files}

/-- The trash entries of two jobs are apart. -/
lemma Inv.trash_disjoint (hinv : Inv server s) (hrow : s.db.purge k = some row)
    (hrow' : s.db.purge k' = some row') (hne : some k ≠ some k') :
    ¬ row.job.trashPath <+: row'.job.trashPath ++ rest := by
  obtain ⟨hpath, htr, -⟩ := hinv.row k row hrow
  obtain ⟨hpath', htr', -⟩ := hinv.row k' row' hrow'
  intro h
  rw [htr, htr'] at h
  have hsame : row.job.trashPath = row'.job.trashPath := by
    rw [htr, htr', trashOf_eq_of_above hpath hpath' h]
  have heq : row = row' := Table.eq_of_unique (purge_eq_some_iff.1 hrow).1
    (purge_eq_some_iff.1 hrow').1 (congrArg some hsame) rfl
  subst heq
  refine hne (congrArg some ?_)
  rw [← (purge_eq_some_iff.1 hrow).2, (purge_eq_some_iff.1 hrow').2]

/-- A reserved name at or below another one. -/
lemma internal_cases {a b u v : RelPath} {x y : String} (hb : ∀ c ∈ b, isInternalName c = false)
    (hx : isInternalName x = true) (h : a ++ x :: u = b ++ y :: v) :
    (a = b ∧ x = y) ∨ ∃ mid, a = b ++ y :: mid ∧ v = mid ++ x :: u := by
  obtain ⟨mid, ha, hv⟩ | ⟨mid, hmid, hrest⟩ := append_eq_append_iff.1 h
  · cases mid with
    | nil =>
      simp only [append_nil, nil_append, List.cons.injEq] at ha hv
      exact .inl ⟨ha.symm, hv.1⟩
    | cons c mid =>
      obtain ⟨rfl, -⟩ := List.cons.inj hv
      rw [hb x (by simp [ha])] at hx
      cases hx
  · cases mid with
    | nil =>
      simp only [append_nil, nil_append, List.cons.injEq] at hmid hrest
      exact .inl ⟨hmid, hrest.1.symm⟩
    | cons c mid =>
      obtain ⟨rfl, hv⟩ := List.cons.inj hrest
      exact .inr ⟨mid, hmid, hv⟩

lemma Inv.move (hinv : Inv server s)
    (hr : s.requests t = some r) (hph : r.phase = .started target k)
    (htgt : (s.files.entry r.path).map Entry.stat = some target)
    (hren : rename s.files r.path (deleteTrashName k.id) times = some files) :
    Inv server (s.moved server t k r target times files) := by
  have hok := hinv.request t r hr
  have hold := hok.phase
  rw [hph] at hold
  obtain ⟨hdet, hnot, hclr, hjob, hvac⟩ := hold
  obtain ⟨row, hrow, hprep, htargetPath, htr⟩ := hinv.job_trash hjob
  set m : Move := ⟨t, k, server.purgeRevision { target with times },
    fun rest => s.files.entry (r.path ++ rest)⟩ with hm
  have F : Frame s (s.moved server t k r target times files) (some k) := by
    refine ⟨fun _ _ => rfl, fun k' row' hk hrow' => Shrinks.trashKept fun rest x hx => ?_,
      subset_cons_self _ _, refl _⟩
    have hapart : ¬ trashOf r.path k <+: row'.job.trashPath ++ rest := by
      rw [← htr]
      exact hinv.trash_disjoint hrow hrow' hk
    exact (rename_entry_old hren hapart hx).1
  refine hinv.of_frame F hinv.leases (fun k' q hk hq => ?_) (fun parents id rest x hx => ?_)
    (fun t' q hq => ?_) (fun key w hw => .inl ⟨hw, ?_⟩)
    (fun key task ht => .inl ⟨ht, ?_, fun l hl _ => hl⟩)
    (hinv.operations (.refl _) F.grows (fun t' q hq hdone hnot' => ?_)
      (finishing_setRequest fun q hq hdone => ?_))
    (fun m' hm' => ?_) (fun p hp => .inl hp)
  · cases hk
    have hq' : s.db.purge k = some q := hq
    cases hrow.symm.trans hq'
    exact ⟨(hinv.row k row hrow).requestable, (hinv.row k row hrow).trash,
      fun hst => absurd hprep hst⟩
  · by_cases hnew : trashOf r.path k <+: parents ++ deleteTrashName id :: rest
    · obtain ⟨below, hbel⟩ := hnew
      have hspl := hbel.symm
      rw [trashOf_append] at hspl
      obtain ⟨hpars, hname⟩ | ⟨mid, -, rfl⟩ := internal_cases
        (not_internal_dropLast hok.requestable) (isInternalName_deleteTrashName id) hspl
      · refine ⟨k, row, hrow, ?_⟩
        rw [htr, trashOf, sibling, hpars, hname]
      · -- below the target there was no trash
        have hx' : files.entry (trashOf r.path k ++ (mid ++ deleteTrashName id :: rest)) =
            some x := by
          rw [hbel]
          exact hx
        obtain ⟨y, hy, -⟩ := rename_entry_new hren hx'
        rw [← append_assoc] at hy
        obtain ⟨k', q, hq, hpath⟩ := hinv.trash _ id rest y hy
        exact absurd ⟨mid ++ [deleteTrashName id], by rw [hpath]; simp⟩ (hclr k' q hq)
    · exact hinv.trash parents id rest x (rename_entry_old hren hnew hx).1
  · rw [State.moved, State.setPhase, setRequest_requests] at hq
    split_ifs at hq with ht
    · subst ht
      cases hq
      refine ⟨hok.requestable, fun h => ?_, ⟨⟨hjob.holds, row, hrow, hprep, htargetPath⟩,
        m, mem_cons_self, rfl, rfl, fun rest x hx => rename_entry_new hren hx,
        fun x hx => ?_⟩, ?_⟩
      · have hd : r.detached = false := h
        cases hdet.symm.trans hd
      · have hx' : files.entry (trashOf r.path k ++ []) = some x := by
          rw [append_nil]
          exact hx
        rw [show trashOf r.path k = sibling r.path (deleteTrashName k.id) from rfl,
          (rename_eq_some hren).2.2.2.1 [], append_nil] at hx'
        obtain ⟨y, hy, rfl⟩ := map_eq_some_iff.1 hx'
        rw [hy] at htgt
        cases htgt
        rfl
      · have htold := hok.told
        unfold ToldOk at htold ⊢
        simp only
        split <;> rename_i heq <;> simp only [heq, hph] at htold
        · exact ⟨⟨fun ho => (htold.1.succeeded ho).mono ⟨subset_cons_self _ _, refl _⟩,
            fun ho => (htold.2 ho).elim⟩, fun ho => (htold.2 ho).elim⟩
        · exact htold.2.elim
        · trivial
        · trivial
    · refine (hinv.request t' q hq).frame hinv F (fun m' hm' hreq => ?_) fun _ =>
        ⟨fun l hl _ => hl, fun _ h => h, ?_⟩
      · rcases mem_cons.1 hm' with rfl | hm'
        · exact absurd hreq.symm ht
        · exact hm'
      · rintro _ hown ⟨⟩
        exact hinv.not_job_of_lease hjob.holds (fun heq => ht (Holder.request.inj heq).symm) hrow
          (by simp [htargetPath]) hown
  · rintro ⟨⟩
    cases (hinv.work_none_of_job hjob).symm.trans hw
  · rintro ⟨⟩
    cases (hinv.task_none_of_job hjob).symm.trans ht
  · intro m' hm'
    rcases mem_cons.1 hm' with rfl | hm'
    · rintro rfl
      cases hr.symm.trans hq
      rw [hph] at hdone
      exact hdone
    · exact hnot' m' hm'
  · cases hr.symm.trans hq
    rw [hph] at hdone
    exact hdone
  · rcases mem_cons.1 hm' with rfl | hm'
    · exact kept_setRequest _ _ fun hnone => by cases hr.symm.trans hnone
    · exact kept_setRequest _ _ (hinv.mover m' hm')

/-- What is left after a slice was there before. -/
lemma slice_entry {f : Files} {trash q : RelPath}
    (h : ((f.remove (trash ++ below)).modify trash (.touch times)).entry q = some x) :
    ¬ trash ++ below <+: q ∧ ∃ y, f.entry q = some y ∧ y.content = x.content ∧
      (q ≠ trash → y = x) := by
  rw [modify_entry, remove_entry] at h
  by_cases hrmv : trash ++ below <+: q
  · simp [hrmv] at h
  · rw [if_neg hrmv] at h
    split_ifs at h with htr
    · obtain ⟨y, hy, rfl⟩ := map_eq_some_iff.1 h
      exact ⟨hrmv, y, hy, rfl, fun hne => absurd htr hne⟩
    · exact ⟨hrmv, x, h, rfl, fun _ => rfl⟩

section

variable (hinv : Inv server s)

include hinv

/-- The tree changes below the trash of jobs only. -/
lemma Inv.setFiles {purged : List Purged}
    (hfls : ∀ k q, s.db.purge k = some q → TrashKept s.files files q) (htr : Tracked s.db files)
    (hpur : ∀ p ∈ purged, p ∈ s.purged ∨ ∀ rest x, p.subtree rest = some x →
      ∃ m, Backed s p.key p.revision m ∧ ∃ y, m.subtree rest = some y ∧ y.content = x.content) :
    Inv server { s with files, purged } := by
  have F : Frame s { s with files, purged } none :=
    ⟨fun _ _ => rfl, fun k q _ => hfls k q, refl _, refl _⟩
  refine hinv.of_frame F hinv.leases (by simp) htr
    (fun t q hq => (hinv.request t q hq).frame hinv F (fun m hm _ => hm) fun _ =>
      ⟨fun l hl _ => hl, fun _ h => h, by simp⟩)
    (fun key v hv => .inl ⟨hv, by simp⟩) (fun key task ht => .inl ⟨ht, by simp, fun l hl _ => hl⟩)
    (hinv.operations_same (.refl _) (.of_eq rfl rfl) rfl rfl)
    hinv.mover fun p hp => (hpur p hp).imp_right fun h rest x hx => ?_
  obtain ⟨m, hbacked, hm⟩ := h rest x hx
  exact ⟨m, hbacked.mono (.of_eq rfl rfl), hm⟩

lemma Inv.slice (hw : s.works k = some w) : Inv server (s.sliced k w below times) := by
  unfold State.sliced
  obtain ⟨row, hrow, hclm, hrowjob, -⟩ := hinv.work k w hw
  rw [← hrowjob]
  have hst : row.job.state ≠ .prepared := by simp [hclm]
  refine (hinv.setFiles (fun k' q hq => ?_) (fun parents id rest x hx => ?_)
    (fun p hp => ?_)).setWork ?_
  · refine ⟨fun rest x hx => ?_, fun hprep rest x hx => ?_⟩
    · obtain ⟨-, y, hy, hcnt, -⟩ := slice_entry hx
      exact ⟨y, hy, hcnt⟩
    · have hne : some k ≠ some k' := by
        rintro ⟨⟩
        cases hrow.symm.trans hq
        exact hst hprep
      obtain ⟨-, y, hy, -, heq⟩ := slice_entry hx
      rw [hy, heq fun h => hinv.trash_disjoint hrow hq hne ⟨[], by rw [append_nil, h]⟩]
  · obtain ⟨-, y, hy, -⟩ := slice_entry hx
    exact hinv.trash parents id rest y hy
  · rcases mem_cons.1 hp with rfl | hp
    · refine .inr fun rest x hx => ?_
      simp only at hx
      split_ifs at hx
      obtain ⟨m, hbacked, hcov⟩ := (hinv.row k row hrow).backed hst
      exact ⟨m, hbacked, hcov rest x hx⟩
    · exact .inl hp
  · rintro _ ⟨⟩
    refine ⟨row, hrow, hclm, hrowjob, fun hph rest => ?_⟩
    have hbel : below = [] := by
      by_contra hne
      simp [hne] at hph
    cases hx : ((s.files.remove (row.job.trashPath ++ below)).modify row.job.trashPath
        (.touch times)).entry (row.job.trashPath ++ rest) with
    | none => rfl
    | some x =>
      refine absurd ?_ (slice_entry hx).1
      rw [hbel, append_nil]
      exact prefix_append _ _

/-- A quarantine brings nothing below the trash of any job and leaves nothing below its own. -/
lemma Inv.quarantines (hrow : s.db.purge k = some row)
    (h : Quarantines s.files files row.job.trashPath) :
    (∀ k' q, s.db.purge k' = some q → Shrinks s.files files q.job.trashPath) ∧
      files.Vacant row.job.trashPath ∧ Tracked s.db files := by
  obtain ⟨hnone, rfl⟩ | ⟨hold, times, hren⟩ := h
  · exact ⟨fun _ _ _ => Shrinks.refl _ _, vacant_of_entry hnone, hinv.trash⟩
  · obtain ⟨hpath, htr, -⟩ := hinv.row k row hrow
    rw [htr] at hren ⊢
    refine ⟨fun k' q hq rest x hx => ?_, fun rest => ?_, fun parents id rest x hx => ?_⟩
    · obtain ⟨hpath', htr', -⟩ := hinv.row k' q hq
      rw [htr'] at hx ⊢
      exact (rename_entry_old hren (quarantine_apart hpath hpath') hx).1
    · rw [(rename_eq_some hren).2.2.2.2 _ (quarantine_apart hpath hpath),
        if_pos (prefix_append _ _)]
    · by_cases hnew : sibling (trashOf row.job.targetPath k) (quarantineName hold) <+:
          parents ++ deleteTrashName id :: rest
      · obtain ⟨below, hbel⟩ := hnew
        have hspl := hbel.symm
        rw [sibling_trashOf, append_assoc, singleton_append] at hspl
        obtain ⟨-, hname⟩ | ⟨mid, -, rfl⟩ := internal_cases (not_internal_dropLast hpath)
          (isInternalName_deleteTrashName id) hspl
        · exact absurd hname (deleteTrashName_ne_quarantineName id hold)
        · -- below the trash of a job is no other trash
          rw [← hbel] at hx
          obtain ⟨y, hy, -⟩ := rename_entry_new hren hx
          rw [← append_assoc] at hy
          obtain ⟨k', q, hq, hinner⟩ := hinv.trash _ id rest y hy
          obtain ⟨hpath', htr', -⟩ := hinv.row k' q hq
          rw [htr', trashOf, sibling] at hinner
          have hpars := (append_inj' hinner rfl).1
          have hinternal := not_internal_dropLast hpath' (deleteTrashName k.id) (by
            rw [hpars]
            simp [trashOf, sibling])
          rw [isInternalName_deleteTrashName] at hinternal
          cases hinternal
      · exact hinv.trash parents id rest x (rename_entry_old hren hnew hx).1

/-- The trash of a job goes to the quarantine. -/
lemma Inv.quarantine (hrow : s.db.purge k = some row)
    (hfls : Quarantines s.files files row.job.trashPath) :
    Inv server { s with files } ∧ files.Vacant row.job.trashPath := by
  obtain ⟨hshr, hvac, htr⟩ := hinv.quarantines hrow hfls
  exact ⟨hinv.setFiles (fun k' q hq => (hshr k' q hq).trashKept) htr fun p hp => .inl hp, hvac⟩

lemma Inv.quarantine_work {phase : WorkPhase} (hw : s.works k = some w)
    (hfls : Quarantines s.files files w.job.trashPath) :
    Inv server ({ s with files }.setWorkPhase k w phase) := by
  obtain ⟨row, hrow, hclm, hrowjob, -⟩ := hinv.work k w hw
  obtain ⟨h, hvac⟩ := hinv.quarantine hrow (hrowjob ▸ hfls)
  refine h.setWork ?_
  rintro _ ⟨⟩
  exact ⟨row, hrow, hclm, hrowjob, fun _ => hvac⟩

section

variable (htask : s.reconciliations k = some task)
  (hfls : Quarantines s.files files task.1.trashPath)

include htask hfls

lemma Inv.quarantine_task :
    Inv server ({ s with files }.setReconciliation k (some (task.1, true))) := by
  obtain ⟨row, hrow, hprep, hrowjob, hls, -⟩ := hinv.task k task htask
  obtain ⟨h, hvac⟩ := hinv.quarantine hrow (hrowjob ▸ hfls)
  refine h.setReconciliation ?_
  rintro _ ⟨⟩
  exact ⟨row, hrow, hprep, hrowjob, hls, fun _ => hvac⟩

lemma Inv.quarantine_end : Inv server ({ s with files }.endReconciliation k) := by
  obtain ⟨row, hrow, -, hrowjob, -⟩ := hinv.task k task htask
  exact (hinv.quarantine hrow (hrowjob ▸ hfls)).1.endReconciliation

end

end

/-- What a restart makes of the row of a job. -/
lemma restart_purge (server : Server) (s : State) (now : TimeMs) (k : PurgeJobKey) :
    (s.restart server now).db.purge k = s.db.purge k ∨
      (s.restart server now).db.purge k = (s.db.purge k).map (PurgeRow.recover now) := by
  have hstep := StoreEvent.exec_purgeStep server.limits ⟨now, .restart⟩ s.db k
  unfold State.restart
  simp only
  generalize (StoreEvent.exec server.limits ⟨now, .restart⟩ s.db).2.purge k = after at hstep ⊢
  generalize s.db.purge k = before at hstep ⊢
  cases hstep with
  | kept => exact .inl rfl
  | recovered => exact .inr rfl
  | prepared h | readied h | claimed h | retried h | completed h | removed h => cases h

/-- A restart keeps the paths and the revision of a job, and whether it is prepared. -/
lemma restart_row (hrow : (s.restart server now).db.purge k = some row') :
    ∃ row, s.db.purge k = some row ∧ row'.job.targetPath = row.job.targetPath ∧
      row'.job.trashPath = row.job.trashPath ∧ row'.job.trashRevision = row.job.trashRevision ∧
      (row.job.state = .prepared → row'.job.state = .prepared) := by
  obtain hsame | hrec := restart_purge server s now k
  · exact ⟨row', hsame ▸ hrow, rfl, rfl, rfl, id⟩
  · rw [hrec] at hrow
    obtain ⟨row, hold, rfl⟩ := map_eq_some_iff.1 hrow
    refine ⟨row, hold, ?_⟩
    rw [PurgeRow.job_recover]
    split_ifs with hclm
    · exact ⟨rfl, rfl, rfl, fun h => absurd (hclm.symm.trans h) (by simp)⟩
    · exact ⟨rfl, rfl, rfl, id⟩

lemma restart_row_exists (server : Server) (now : TimeMs) (hrow : s.db.purge k = some row) :
    ∃ row', (s.restart server now).db.purge k = some row' ∧
      row'.job.trashPath = row.job.trashPath := by
  obtain hsame | hrec := restart_purge server s now k
  · exact ⟨row, hsame.trans hrow, rfl⟩
  · refine ⟨row.recover now, by rw [hrec, hrow, map_some], ?_⟩
    rw [PurgeRow.job_recover]
    split_ifs <;> rfl

lemma Inv.restart (hinv : Inv server s) (now : TimeMs) : Inv server (s.restart server now) where
  leases l hl := by cases hl
  row k row' hrow' := by
    obtain ⟨row, hrow, htgt, htr, hrev, hprep⟩ := restart_row hrow'
    obtain ⟨hpath, htr', hbacked⟩ := hinv.row k row hrow
    refine ⟨htgt ▸ hpath, by rw [htr, htr', htgt], fun hst => ?_⟩
    obtain ⟨m, hbacked, hcov⟩ := hbacked fun h => hst (hprep h)
    refine ⟨m, ?_, htr ▸ hcov⟩
    rw [hrev]
    exact hbacked.mono (.of_eq rfl rfl)
  trash parents id rest x hx := by
    obtain ⟨k, row, hrow, htr⟩ := hinv.trash parents id rest x hx
    obtain ⟨row', hrow', hsame⟩ := restart_row_exists server now hrow
    exact ⟨k, row', hrow', hsame.trans htr⟩
  request t r hr := by
    obtain ⟨q, hq, rfl⟩ := map_eq_some_iff.1 hr
    have hok := hinv.request t q hq
    exact ⟨hok.requestable, hok.undispatched, trivial,
      hok.told.frame (.of_eq rfl rfl) id rfl fun _ => trivial⟩
  work k w hw := by cases hw
  task k task htask := by cases htask
  operation := by
    refine hinv.operations (fun k r' o hr' hdec => ?_) (.of_eq rfl rfl)
      (fun _ _ _ _ h => h) fun t r hr _ => ⟨{ r with phase := .done }, ?_, trivial⟩
    · have hstep := OperationEvent.exec_step server.limits ⟨now, .restart⟩ s.db k
      have hr'' : (OperationEvent.exec server.limits ⟨now, .restart⟩ s.db).2.operation k =
          some r' := hr'
      rw [hr''] at hstep
      refine (decided_of_operationStep hstep hdec).resolve_right ?_
      rintro ⟨outcome, hcmd, -⟩
      cases hcmd
    · show (s.requests t).map _ = _
      rw [hr, map_some]
  mover m hm := by
    show (s.requests m.request).map _ ≠ none
    simpa using hinv.mover m hm
  purged p hp rest x hx := by
    obtain ⟨m, hbacked, hm⟩ := hinv.purged p hp rest x hx
    exact ⟨m, hbacked.mono (.of_eq rfl rfl), hm⟩

end Tree

/-! ### Every step keeps the invariants -/

theorem Inv.step {server : Server} {e : Event} (hinv : Inv server s)
    (h : Delete.step server s e = some s') : Inv server s' := by
  cases step_cases hinv h with
  | quiet hdb => exact hinv.quiet hdb
  | begin hfr hpath hdb => exact hinv.begin hfr hpath hdb
  | acquire hr hph hfree => exact hinv.acquire hr hph hfree
  | advance hr hdb hadv => exact hinv.advance hr hdb hadv
  | close hr hdb hends => exact hinv.close hr hdb hends
  | complete hr hph hprg hdec => exact hinv.complete hr hph hprg hdec
  | prepare hr hph hfr hdb => exact hinv.prepare hr hph hfr hdb
  | move hr hph htgt hren => exact hinv.move hr hph htgt hren
  | ready hr hph hrow hdb => exact hinv.ready hr hph hrow hdb
  | remove hr hph hdb => exact hinv.remove hr hph hdb
  | claim hrow hrdy hdb => exact hinv.claim hrow hrdy hdb
  | work hw hdb hjob hph => exact hinv.work_quiet hw hdb hjob hph
  | slice hw => exact hinv.slice hw
  | quarantineWork hw hfls => exact hinv.quarantine_work hw hfls
  | finishWork hw hph hdb => exact hinv.finish_work hw hph hdb
  | deferWork hw hrow hdb =>
    refine hinv.end_work hw hrow hdb (.inr rfl) ?_
    rintro q ⟨⟩
    exact ⟨rfl, rfl, rfl⟩
  | reconcile hrow hprep hfree => exact hinv.reconcile hrow hprep hfree
  | quarantineTask htask hfls => exact hinv.quarantine_task htask hfls
  | quarantineEnd htask hfls => exact hinv.quarantine_end htask hfls
  | endTask htask hdb => exact (hinv.quiet hdb).endReconciliation
  | releaseTask htask hclr hdb => exact hinv.release_task htask hclr hdb
  | restart => exact hinv.restart _

end DufsRam.Delete
