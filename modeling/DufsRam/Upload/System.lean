import DufsRam.Lib.Machine
import DufsRam.Upload.Committing

/-!
# Runs of an upload session

A session lives through requests, status requests, restarts, changes of the target by other
processes, commands of other sessions and the purge of a row that has expired. A request may be cut
short by a crash at any point; after a crash nothing happens before the restart. `Moved` lists what
an event can do to the session, and invariants of whole runs are proved from it.
-/

namespace DufsRam

open Crash Session Transition Option StoredUploadSession

/-- A response, the request it answers (none for a status request) and the world it left. -/
structure UploadAnswer where
  request : Option UploadRequest
  response : UploadResponse
  world : World

structure UploadSystem where
  world : World
  down : Bool
  log : List UploadAnswer

inductive UploadEvent where
  /-- A `PUT` or `PATCH`, and what its steps meet. -/
  | request (r : UploadRequest) (script : List Answer)
  /-- A request that is turned away before it is handled. -/
  | turnAway (r : UploadRequest) (rejection : UploadRejection)
  | status (script : List Answer)
  /-- A crash, if the server is still up, and a start through `recover_database`. -/
  | restart (now : TimeMs) (tails : StoredFileIdentity → List UInt8)
  /-- Another process changes the target. -/
  | retarget (target : Option TargetObject)
  /-- A command of the store that is not about this session. -/
  | others (db : Database)
  /-- The row has expired and is purged, with or without the stage. -/
  | expire (now : TimeMs) (db : Database) (stage : Bool)

/-! ### The machine -/

/-- A new request has changed nothing yet. -/
def World.beginRequest (w : World) : World := { w with mutation := .preflight, setbacks := [] }

/-- The files after a crash, with the recovered database. -/
def World.recover (db : Database) (tails : StoredFileIdentity → List UInt8) (w : World) : World :=
  { w with
    db
    inodes := fun id => (w.inodes id).map (Inode.mapData (.crash (tails id))) }

/-- The system after a program that answers. -/
def UploadSystem.settle (x : UploadSystem) (request : Option UploadRequest) :
    Outcome Answer World Exit UploadResponse → UploadSystem
  | .done res _ w => ⟨w, false, x.log ++ [⟨request, res, w⟩]⟩
  | .raised _ _ w => ⟨w, false, x.log⟩
  | .crashed w => ⟨w, true, x.log⟩

namespace UploadSystem

def step (site : Site) (x : UploadSystem) : UploadEvent → Option UploadSystem
  | .request r script =>
    if x.down then none
    else some (x.settle (some r) (runTrackedUpload site r script x.world.beginRequest))
  | .turnAway r rejection =>
    if x.down then none
    else some { x with log := x.log ++ [⟨some r, r.rejection rejection, x.world⟩] }
  | .status script =>
    if x.down then none else some (x.settle none (handleUploadStatus site script x.world))
  | .restart now tails =>
    match recoverDatabase site.limits.ttlMs site.limits.uploadTtlMs now x.world.db with
    | .error _ => none
    | .ok db => some { x with world := x.world.recover db tails, down := false }
  | .retarget target => some { x with world := { x.world with target } }
  | .others db =>
    if db.uploadSessions.lookup site.key = x.world.db.uploadSessions.lookup site.key then
      some { x with world := { x.world with db } }
    else none
  | .expire now db gone =>
    if db.uploadSessions.lookup site.key = none ∧
        (x.world.db.uploadSessions.lookup site.key).any fun r => decide (r.expiresAtMs ≤ now) then
      some { x with world := { x.world with
        db
        stage := if gone then none else x.world.stage
        purged := true } }
    else none

/-- Before the first request nothing is staged. -/
def start (db : Database) (target : Option TargetObject) : UploadSystem where
  world := ⟨db, none, fun _ => none, target, .preflight, false, [], []⟩
  down := false
  log := []

def machine (site : Site) (db : Database) (target : Option TargetObject) :
    Machine UploadSystem UploadEvent where
  init := start db target
  step := step site

def session (site : Site) (x : UploadSystem) : Session := x.world.session site

end UploadSystem

open UploadSystem

variable {site : Site} {x y : UploadSystem} {e : UploadEvent} {s s' : Session} {w : World}
  {db : Database} {P : Session → Prop}

/-! ### What an event does -/

/-- The part of `recover_database` that concerns a session. -/
def StoredUploadSession.recover (p : StoredUploadSession) : StoredUploadSession :=
  if p.state = .commitStarted then { p with state := .unknown } else p

/-- The session after a restart: its row is recovered, and the files are what the crash left. -/
def Session.restarted (s : Session) (tails : StoredFileIdentity → List UInt8) : Session :=
  { s with
    row := s.row.map recover
    inodes := fun id => (s.inodes id).map (Inode.mapData (.crash (tails id))) }

/-- The session after its expired row was purged. -/
def Session.expired (s : Session) (gone : Bool) : Session :=
  { s with
    row := none
    stage := if gone then none else s.stage
    purged := true }

/-- What an event can do to the session. -/
inductive Moved (site : Site) (s s' : Session) : UploadEvent → Prop
  | request (r : UploadRequest) (script : List Answer)
      (h : (Session.protocol site r).Reach { s with setbacks := [] } s') :
      Moved site s s' (.request r script)
  | none (e : UploadEvent) (h : s' = s) : Moved site s s' e
  | restart (now : TimeMs) (tails : StoredFileIdentity → List UInt8)
      (h : s' = s.restarted tails) : Moved site s s' (.restart now tails)
  | expire (now : TimeMs) (db : Database) (gone : Bool)
      (h : s' = s.expired gone) : Moved site s s' (.expire now db gone)

/-- The answer is honest in the state it was given in. -/
def UploadAnswer.Honest (site : Site) (a : UploadAnswer) : Prop :=
  ∀ r, a.request = some r ∨ a.request = none → a.response.Honest r (a.world.session site)

/-- A program that answers moves the session by its protocol, and what it logs is honest. -/
lemma settle_of_runs {π : Protocol Session} {p : Io UploadResponse} {req : Option UploadRequest}
    {E : Exit → Session → Prop} {script : List Answer}
    (hp : RunsIn site π p (fun res s => ∀ r', req = some r' ∨ req = none → res.Honest r' s)
      E w) (hinv : π.Inv (w.session site)) : π.Reach (w.session site)
        ((x.settle req (p script w)).session site) ∧
      ∀ a ∈ (x.settle req (p script w)).log, a ∈ x.log ∨
        (a.world = (x.settle req (p script w)).world ∧ a.Honest site) := by
  have hwin := hp hinv script
  cases hres : p script w with
  | done res rest w' =>
    rw [hres] at hwin
    refine ⟨hwin.1, fun a ha => ?_⟩
    rcases List.mem_append.1 ha with ha | ha
    · exact .inl ha
    · cases List.mem_singleton.1 ha
      exact .inr ⟨rfl, hwin.2⟩
  | raised e rest w' =>
    rw [hres] at hwin
    exact ⟨hwin.1, fun a ha => .inl ha⟩
  | crashed w' =>
    rw [hres] at hwin
    exact ⟨hwin, fun a ha => .inl ha⟩

lemma Session.Inv.setbacks (h : s.Inv site) (bs : List Setback) :
    ({ s with setbacks := bs } : Session).Inv site :=
  ⟨h.row, h.stage, h.published, h.renamed⟩

lemma session_recover {tails : StoredFileIdentity → List UInt8} {now : TimeMs}
    (h : recoverDatabase site.limits.ttlMs site.limits.uploadTtlMs now w.db = .ok db) :
    (w.recover db tails).session site = (w.session site).restarted tails := by
  obtain ⟨_, expiresAt, -, -, -, hrcvr, -⟩ := recoverDatabase_eq_ok_iff.1 h
  have hrow : db.uploadSessions.lookup site.key =
      (w.db.uploadSessions.lookup site.key).map (UploadRow.recover now expiresAt) :=
    lookup_recoverUploadSessions hrcvr site.key
  simp only [World.recover, World.session, World.row, restarted, hrow, map_map]
  congr 2
  funext row
  exact UploadRow.session_recover now expiresAt row

/-- The protocol of a program that only looks. -/
def Session.watch (site : Site) : Protocol Session where
  Step _ _ := False
  Inv := Inv site
  inv_step _ h := h.elim

lemma Session.watch_reach (h : (watch site).Reach s s') : s' = s := by
  induction h with
  | refl => rfl
  | tail _ hstep => exact hstep.elim

/-- Every event moves the session in one of the ways listed, and logs at most an honest answer. -/
theorem moved_of_step (hinv : (x.session site).Inv site) (h : step site x e = some y) :
    Moved site (x.session site) (y.session site) e ∧
      ∀ a ∈ y.log, a ∈ x.log ∨ (a.world = y.world ∧ a.Honest site) := by
  cases e with
  | request r script =>
    simp only [step, ite_none_left_eq_some, some.injEq] at h
    obtain ⟨-, rfl⟩ := h
    have hruns : Runs site r (runTrackedUpload site r)
        (fun res s => ∀ r', some r = some r' ∨ some r = none → res.Honest r' s)
        (fun _ _ => False) x.world.beginRequest := by
      refine runTrackedUpload_runs.mono (fun res w hres r' hr' => ?_) fun _ _ h => h
      rcases hr' with hr' | hr' <;> cases hr'
      exact hres
    obtain ⟨hrch, hlog⟩ := settle_of_runs (x := x) hruns (hinv.setbacks [])
    exact ⟨.request r script hrch, hlog⟩
  | turnAway r rejection =>
    simp only [step, ite_none_left_eq_some, some.injEq] at h
    obtain ⟨-, rfl⟩ := h
    refine ⟨.none _ rfl, fun a ha => ?_⟩
    rcases List.mem_append.1 ha with ha | ha
    · exact .inl ha
    · cases List.mem_singleton.1 ha
      refine .inr ⟨rfl, fun r' hr' => ?_⟩
      rcases hr' with hr' | hr' <;> cases hr'
      cases rejection <;> exact honest_notStarted
  | status script =>
    simp only [step, ite_none_left_eq_some, some.injEq] at h
    obtain ⟨-, rfl⟩ := h
    have hruns : RunsIn site (watch site) (handleUploadStatus site)
        (fun res s => ∀ r', none = some r' ∨ (none : Option UploadRequest) = none →
          res.Honest r' s) (Fails (Quiet (x.world.session site))) x.world :=
      (handleUploadStatus_runs fun _ h => h).mono (fun res w hres r' _ => hres.2 r') fun _ _ h => h
    obtain ⟨hrch, hlog⟩ := settle_of_runs (x := x) hruns hinv
    exact ⟨.none _ (watch_reach hrch), hlog⟩
  | restart now tails =>
    simp only [step] at h
    cases hrcvr : recoverDatabase site.limits.ttlMs site.limits.uploadTtlMs now x.world.db with
    | error message => simp [hrcvr] at h
    | ok db =>
      rw [hrcvr] at h
      cases h
      exact ⟨.restart now tails (session_recover hrcvr), fun a ha => .inl ha⟩
  | retarget target =>
    cases h
    exact ⟨.none _ rfl, fun a ha => .inl ha⟩
  | others db =>
    simp only [step, ite_none_right_eq_some, some.injEq] at h
    obtain ⟨hsame, rfl⟩ := h
    refine ⟨.none _ ?_, fun a ha => .inl ha⟩
    simp only [UploadSystem.session, World.session, World.row, hsame]
  | expire now db gone =>
    simp only [step, ite_none_right_eq_some, some.injEq] at h
    obtain ⟨⟨hgone, -⟩, rfl⟩ := h
    refine ⟨.expire now db gone ?_, fun a ha => .inl ha⟩
    simp only [UploadSystem.session, World.session, World.row, expired, hgone, map_none]

/-! ### Invariants of whole runs -/

@[simp] lemma state_recover (p : StoredUploadSession) :
    p.recover.state = if p.state = .commitStarted then .unknown else p.state := by
  unfold recover
  split <;> simp_all

/-- Recovery changes nothing of a session but its state. -/
lemma recover_eq (p : StoredUploadSession) : p.recover = { p with state := p.recover.state } := by
  unfold recover
  split <;> rfl

/-- What a row relies on survives a crash, and it relies on no more after its recovery. -/
lemma StoredUploadSession.ReliesOn.recover {p : StoredUploadSession} {n : Inode} (h : p.ReliesOn n)
    (tail : List UInt8) : p.recover.ReliesOn (n.mapData (.crash tail)) where
  durable := by
    rw [recover_eq]
    simpa using h.durable
  full hst := by
    have haw : p.state = .awaitingConfirmation := by
      rw [state_recover] at hst
      split at hst <;> simp_all
    have hfull := h.full (.inr haw)
    rw [recover_eq]
    exact hfull.congr (DurableFile.crash_of_clean hfull.clean)

lemma Session.RowOk.recover {row : StoredUploadSession} (h : RowOk site s.inodes row)
    (tails : StoredFileIdentity → List UInt8) :
    RowOk site (s.restarted tails).inodes row.recover where
  targetPath := by
    rw [recover_eq]
    exact h.targetPath
  stagePath := by
    rw [recover_eq]
    exact h.stagePath
  recorded id hid := by
    rw [recover_eq] at hid
    obtain ⟨n, hn, hrel⟩ := h.recorded id hid
    exact ⟨n.mapData (.crash (tails id)), by simp [restarted, hn], hrel.recover _⟩
  unrecorded hnone := by
    rw [recover_eq] at hnone ⊢
    exact h.unrecorded hnone
  full hfull := by
    rw [state_recover] at hfull
    rw [recover_eq]
    refine h.full ?_
    split at hfull
    · simp [StoredUploadState.fullyDurable] at hfull
    · exact hfull
  owned hown := by
    rw [state_recover] at hown
    rw [recover_eq]
    refine h.owned ?_
    split at hown
    · simp [StoredUploadState.ownsStage] at hown
    · exact hown

lemma Session.Inv.restarted (h : s.Inv site) (tails : StoredFileIdentity → List UInt8) :
    (s.restarted tails).Inv site where
  row row hrow := by
    obtain ⟨row', hrow', rfl⟩ := map_eq_some_iff.1 hrow
    exact (h.row row' hrow').recover tails
  stage id hid := by
    have hne := h.stage id hid
    simpa [Session.restarted] using hne
  published hpub hpur := by
    obtain ⟨row, hrow, hset⟩ := h.published hpub hpur
    refine ⟨row.recover, by simp [Session.restarted, hrow], ?_⟩
    rw [state_recover]
    split
    · exact .inr (.inr rfl)
    · exact hset
  renamed q hq := by
    obtain ⟨hne, hstg⟩ := h.renamed q hq
    exact ⟨by simpa [Session.restarted] using hne, hstg⟩

lemma Session.Inv.expired (h : s.Inv site) (gone : Bool) : (s.expired gone).Inv site where
  row := nofun
  stage id hid := by
    cases gone with
    | true => cases hid
    | false => exact h.stage id hid
  published _ hpur := by cases hpur
  renamed q hq := by
    obtain ⟨hne, hstg⟩ := h.renamed q hq
    cases gone with
    | true => exact ⟨hne, nofun⟩
    | false => exact ⟨hne, hstg⟩

/-- A property that requests, restarts and purges keep is kept by every event. -/
lemma Moved.induct (h : Moved site s s' e) (hinv : s.Inv site) (hP : P s)
    (hbegin : P { s with setbacks := [] })
    (hstep : ∀ r script, e = .request r script → ∀ {t t' : Session}, t.Inv site → P t →
      Step site r t t' → P t') (hrst : ∀ tails, P (s.restarted tails))
    (hexpire : ∀ gone, P (s.expired gone)) : s'.Inv site ∧ P s' := by
  cases h with
  | request r script hrch =>
    exact hrch.induct (P := P) (fun hinv hP hs => hstep r script rfl hinv hP hs)
      (hinv.setbacks []) hbegin
  | none e h =>
    rw [h]
    exact ⟨hinv, hP⟩
  | restart now tails h =>
    rw [h]
    exact ⟨hinv.restarted tails, hrst tails⟩
  | expire now db gone h =>
    rw [h]
    exact ⟨hinv.expired gone, hexpire gone⟩

lemma Moved.inv (h : Moved site s s' e) (hinv : s.Inv site) : s'.Inv site :=
  (h.induct (P := fun _ => True) hinv trivial trivial (fun _ _ _ _ _ _ _ _ => trivial)
    (fun _ => trivial) fun _ => trivial).1

lemma start_inv {target : Option TargetObject}
    (hdb : db.uploadSessions.lookup site.key = none) :
    ((start db target).session site).Inv site where
  row row hrow := by simp [start, UploadSystem.session, World.session, World.row, hdb] at hrow
  stage := nofun
  published hpub := absurd rfl hpub
  renamed := nofun

/-- The runs of a session that has no row yet. -/
structure UploadRun (site : Site) where
  db : Database
  target : Option TargetObject
  schedule : ℕ → UploadEvent
  unrecorded : db.uploadSessions.lookup site.key = none

namespace UploadRun

variable {ρ : UploadRun site}

/-- The system before the `n`-th event. -/
def state (ρ : UploadRun site) (n : ℕ) : UploadSystem :=
  (machine site ρ.db ρ.target).run ρ.schedule n

/-- The session before the `n`-th event. -/
def session (ρ : UploadRun site) (n : ℕ) : Session := (ρ.state n).session site

lemma session_zero : (ρ.session 0).row = none := by
  simp [session, state, Machine.run, machine, start, UploadSystem.session, World.session, World.row,
    ρ.unrecorded]

/-- An event that is not enabled changes nothing; any other moves the session. -/
lemma step_cases (n : ℕ) (hinv : (ρ.session n).Inv site) :
    Moved site (ρ.session n) (ρ.session (n + 1)) (ρ.schedule n) ∧
      ∀ a ∈ (ρ.state (n + 1)).log, a ∈ (ρ.state n).log ∨
        (a.world = (ρ.state (n + 1)).world ∧ a.Honest site) := by
  refine Machine.exec_cases (P := fun y : UploadSystem =>
    Moved site (ρ.session n) (y.session site) (ρ.schedule n) ∧
    ∀ a ∈ y.log, a ∈ (ρ.state n).log ∨ (a.world = y.world ∧ a.Honest site)) ?_ fun y hy => ?_
  · exact ⟨.none _ rfl, fun a ha => .inl ha⟩
  · exact moved_of_step hinv hy

/-- What holds of a session without a row and is kept by the events of the run holds throughout. -/
lemma invariant (hinit : P (ρ.session 0)) (hmv : ∀ n, (ρ.session n).Inv site → P (ρ.session n) →
      Moved site (ρ.session n) (ρ.session (n + 1)) (ρ.schedule n) → P (ρ.session (n + 1))) (n : ℕ) :
    (ρ.session n).Inv site ∧ P (ρ.session n) := by
  induction n with
  | zero => exact ⟨start_inv ρ.unrecorded, hinit⟩
  | succ n ih =>
    have hstep := (step_cases n ih.1).1
    exact ⟨hstep.inv ih.1, hmv n ih.1 ih.2 hstep⟩

lemma inv (n : ℕ) : (ρ.session n).Inv site :=
  (invariant (P := fun _ => True) trivial (fun _ _ _ _ => trivial) n).1

/-- Every logged answer was given in a state of the run, and honestly. -/
lemma answered {n : ℕ} {a : UploadAnswer} (h : a ∈ (ρ.state n).log) :
    a.Honest site ∧ ∃ k, a.world.session site = ρ.session k := by
  induction n with
  | zero => cases h
  | succ n ih =>
    rcases (step_cases n (inv n)).2 a h with h | ⟨hworld, hhonest⟩
    · exact ih h
    · exact ⟨hhonest, n + 1, by rw [hworld]; rfl⟩

end UploadRun

/-! ### A small site -/

/-- A site with room for a few sessions, on which concrete runs are evaluated. -/
def smallSite : Site where
  key := ⟨0, 0⟩
  targetPath := ["a"]
  stagePath := ["s"]
  limits := ⟨9, 9, 9, 9, 9, 9, 9, 9⟩
  maxUploadSize := 9
  allocationUnit := 1
  stageAttributes := ⟨0, 0, 0o600, []⟩
  revisionDigest _ := 0

/-- A run on the small site: the given events, then status requests that find the store gone. -/
def smallRun (target : Option TargetObject) (events : List UploadEvent) : UploadRun smallSite where
  db := .empty
  target := target
  schedule n := events.getD n (.status [])
  unrecorded := rfl

/-- A fresh upload of one byte that must not replace anything. -/
def smallPut : UploadRequest := ⟨.fresh, 1, .noReplace, none, [.chunk [7]]⟩

/-- Answers with which every step succeeds. -/
def smoothly (n : ℕ) : List Answer := List.replicate n {}

/-- A regular file of another owner. -/
def smallTarget : TargetObject := ⟨⟨⟨5, 5⟩, .regularFile, 1, 3, 1000, 1000, 0o644, {}⟩, []⟩

/-- A creation is interrupted after one of two bytes, and a target appears, so that the resumed
upload is retained. -/
def retainedUpload : List UploadEvent :=
  [.request ⟨.fresh, 2, .noReplace, none, [.chunk [7]]⟩ (smoothly 60),
    .retarget (some smallTarget),
    .request ⟨.resume 1, 2, .noReplace, none, [.chunk [8]]⟩ (smoothly 60)]

/-- The replacement of the small target by the retained upload. -/
def smallConfirmation : UploadRequest := ⟨.resume 2, 2, .ifUnchanged 0, none, []⟩

end DufsRam
