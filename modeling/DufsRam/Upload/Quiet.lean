import DufsRam.Upload.Session
import DufsRam.Upload.Record

/-!
# What the steps of a request do to its session

One lemma for each step: which changes of the session it makes and what is known of its result.
Most steps are quiet. Steps that fail leave at least the row, so that the cleanup after them knows
what it works on.
-/

namespace DufsRam

open Crash Relational Ensures

variable {site : Site} {s : Session}

namespace Session

variable {s' s'' : Session}

/-- Nothing has changed. -/
def Quiet (s s' : Session) : Prop := s' = s

/-- At most the staged inodes have changed. -/
structure Kept (s s' : Session) : Prop where
  row : s'.row = s.row
  stage : s'.stage = s.stage
  published : s'.published = s.published
  setbacks : s'.setbacks = s.setbacks
  purged : s'.purged = s.purged

/-- The session may have been cleaned up in part. -/
structure Later (s s' : Session) : Prop where
  row : s'.row = s.row ∨ s'.row = none
  published : s'.published = s.published
  setbacks : s'.setbacks = s.setbacks
  purged : s'.purged = s.purged

lemma Quiet.refl (s : Session) : Quiet s s := rfl

section

variable (h : Quiet s s')

include h

lemma Quiet.trans (h' : Quiet s' s'') : Quiet s s'' := Eq.trans h' h

lemma Quiet.row : s'.row = s.row := congrArg Session.row h

lemma Quiet.stage : s'.stage = s.stage := congrArg Session.stage h

lemma Quiet.inodes : s'.inodes = s.inodes := congrArg Session.inodes h

lemma Quiet.published : s'.published = s.published :=
  congrArg Session.published h

lemma Quiet.kept : Kept s s' := by
  rw [h]
  exact ⟨rfl, rfl, rfl, rfl, rfl⟩

end

lemma Kept.refl (s : Session) : Kept s s := (Quiet.refl s).kept

lemma Kept.trans (h : Kept s s') (h' : Kept s' s'') : Kept s s'' where
  row := h'.row.trans h.row
  stage := h'.stage.trans h.stage
  published := h'.published.trans h.published
  setbacks := h'.setbacks.trans h.setbacks
  purged := h'.purged.trans h.purged

lemma Kept.later (h : Kept s s') : Later s s' := ⟨.inl h.row, h.published, h.setbacks, h.purged⟩

lemma Later.refl (s : Session) : Later s s := (Kept.refl s).later

lemma Later.trans (h : Later s s') (h' : Later s' s'') : Later s s'' where
  row := by
    rcases h'.row with hrow | hrow
    · rw [hrow]
      exact h.row
    · exact .inr hrow
  published := h'.published.trans h.published
  setbacks := h'.setbacks.trans h.setbacks
  purged := h'.purged.trans h.purged

lemma Later.of_row {row : StoredUploadSession} (h : Later s s') (hrow : s'.row = some row) :
    s.row = some row := by
  rcases h.row with heq | hnone
  · rw [← heq, hrow]
  · simp [hnone] at hrow

lemma Open.later (hopen : s.Open) (h : Later s s') : s'.Open :=
  hopen.imp (fun hpub => h.published.trans hpub) fun hpur => h.purged.trans hpur

lemma GivesUp.later (hgv : s.GivesUp) (h : Later s s') : s'.GivesUp := by
  intro row hrow hst
  rw [h.setbacks]
  exact hgv row (h.of_row hrow) hst

end Session

open Session

variable {r : UploadRequest} {w w' : World} {α β : Type}

/-- The program follows a protocol of the session, and its results are as described. -/
abbrev RunsIn (site : Site) (π : Protocol Session) (p : Io α) (Q : α → Session → Prop)
    (E : Exit → Session → Prop) (w : World) : Prop :=
  Ensures π (World.session site) p (fun a w' => Q a (w'.session site))
    (fun e w' => E e (w'.session site)) w

/-- The program follows the protocol of the requests. -/
abbrev Runs (site : Site) (r : UploadRequest) (p : Io α) (Q : α → Session → Prop)
    (E : Exit → Session → Prop) (w : World) : Prop :=
  RunsIn site (Session.protocol site r) p Q E w

/-- The program fails with an error, not with a response. -/
def Fails (P : Session → Prop) (e : Exit) (s : Session) : Prop := (∃ f, e = .error f) ∧ P s

lemma Fails.mono {P P' : Session → Prop} {e : Exit} {s : Session} (h : Fails P e s)
    (hP : P s → P' s) : Fails P' e s := ⟨h.1, hP h.2⟩

/-! ### Steps that do not change the session -/

@[simp] lemma session_meddle (a : Answer) : (w.meddle a).session site = w.session site := by
  unfold World.meddle
  split <;> rfl

section Steps

variable {π : Protocol Session}

section

variable (h : Quiet s (w.session site))

include h

lemma fsStep_runs : RunsIn site π fsStep (fun _ => Quiet s) (Fails (Quiet s)) w := by
  refine ask_bind fun a => ?_
  cases a.error with
  | some kind => exact .throw ⟨⟨_, rfl⟩, h⟩
  | none => exact .pure h

/-- A call whose answer is not looked at. -/
lemma fsStep_unit_runs :
    RunsIn site π (do let _ ← fsStep; pure () : Io Unit) (fun _ => Quiet s) (Fails (Quiet s)) w :=
  (fsStep_runs h).bind fun _ _ h => .pure h

lemma targetStep_runs : RunsIn site π targetStep (fun _ => Quiet s) (Fails (Quiet s)) w := by
  refine ask_bind fun a => .modify_bind (.of_eq (session_meddle a).symm) ?_
  have h' : Quiet s ((w.meddle a).session site) := by rwa [session_meddle]
  cases a.error with
  | some kind => exact .throw ⟨⟨_, rfl⟩, h'⟩
  | none => exact .pure h'

lemma deadlinePassed_runs {E : Exit → Session → Prop} :
    RunsIn site π deadlinePassed (fun _ => Quiet s) E w :=
  ask_bind fun _ => .pure h

end

lemma check_runs {c : Prop} [Decidable c] {msg : String} {P : Session → Prop}
    (h : P (w.session site)) : RunsIn site π (check c msg) (fun _ s => c ∧ P s) (Fails P) w := by
  unfold check
  split
  case isTrue hc => exact .pure ⟨hc, h⟩
  case isFalse => exact .throw ⟨⟨_, rfl⟩, h⟩

section

variable (h : Quiet s (w.session site))

include h

lemma openStage_runs : RunsIn site π openStage
      (fun file s' => Quiet s s' ∧ ∃ id, s.stage = some id ∧ file = ⟨id, 0, []⟩)
      (Fails (Quiet s)) w := by
  refine (fsStep_runs h).bind fun _ w h => .get_bind ?_
  cases hstg : w.stage with
  | none => exact .throw ⟨⟨_, rfl⟩, h⟩
  | some id => exact .pure ⟨h, id, h.stage.symm.trans hstg, rfl⟩

lemma stageMetadataNofollow_runs :
    RunsIn site π stageMetadataNofollow (fun stat s' => Quiet s s' ∧ s.stage = some stat.identity)
      (Fails (Quiet s)) w := by
  refine (fsStep_runs h).bind fun _ w h => .get_bind ?_
  cases hfnd : w.stage.bind fun id => (w.inodes id).map fun n => (id, n) with
  | none => exact .throw ⟨⟨_, rfl⟩, h⟩
  | some found =>
    obtain ⟨id, hstg, hn⟩ := Option.bind_eq_some_iff.1 hfnd
    obtain ⟨n, -, hfnd⟩ := Option.map_eq_some_iff.1 hn
    exact .pure ⟨h, by rw [← hfnd]; exact h.stage.symm.trans hstg⟩

lemma reserveAllocated_runs {k : ℕ} :
    RunsIn site π (reserveAllocated site k) (fun _ => Quiet s) (Fails (Quiet s)) w := by
  refine (fsStep_runs h).bind fun a w h => ?_
  dsimp only
  split
  · exact .throw ⟨⟨_, rfl⟩, h⟩
  · exact .pure h

lemma reservedSpaceIsAvailable_runs :
    RunsIn site π reservedSpaceIsAvailable (fun _ => Quiet s) (Fails (Quiet s)) w :=
  (fsStep_runs h).bind fun _ _ h => .pure h

/-! ### Looking at the target -/

lemma replacementIdentity_runs :
    RunsIn site π replacementIdentity (fun _ => Quiet s) (Fails (Quiet s)) w :=
  (targetStep_runs h).bind fun _ _ h => .get_bind (.pure h)

/-- A refusal in the middle of a look at the target. -/
lemma refuse_runs {c : Prop} [Decidable c] {e : Failure} :
    RunsIn site π (.when c (fail e)) (fun _ => Quiet s) (Fails (Quiet s)) w :=
  .when (fun _ => .throw ⟨⟨_, rfl⟩, h⟩) fun _ => h

lemma captureMetadata_runs {inspected : ExistingReplacementTarget} :
    RunsIn site π (captureMetadata inspected) (fun _ => Quiet s) (Fails (Quiet s)) w := by
  refine ask_bind fun a => .modify_bind (.of_eq (session_meddle a).symm) ?_
  have h' : Quiet s ((w.meddle a).session site) := by rwa [session_meddle]
  refine (refuse_runs h').bind fun _ w h => .get_bind ?_
  refine (refuse_runs h).bind fun _ w h => (refuse_runs h).bind fun _ w h => ?_
  refine (targetStep_runs h).bind fun _ w h => .get_bind ?_
  cases w.target with
  | none => exact .throw ⟨⟨_, rfl⟩, h⟩
  | some target =>
    exact (refuse_runs h).bind fun _ w h => (refuse_runs h).bind fun _ w h => .pure h

lemma replacementMetadata_runs :
    RunsIn site π replacementMetadata (fun _ => Quiet s) (Fails (Quiet s)) w := by
  refine (replacementIdentity_runs h).bind fun identity w h => ?_
  cases identity with
  | none => exact .pure h
  | some inspected =>
    dsimp only
    cases inspected.fileType with
    | symlink => exact .pure h
    | regularFile => exact (refuse_runs h).bind fun _ w h => captureMetadata_runs h
    | directory | other => exact .throw ⟨⟨_, rfl⟩, h⟩

lemma renderUploadTargetConflict_runs {ctx : UploadErrorContext} :
    RunsIn site π (renderUploadTargetConflict site ctx)
      (fun res s' => Quiet s s' ∧ ∃ inspection status code detail recovery,
        res = applyUploadProblem ctx status code detail recovery
          (applyTargetInspectionHeaders inspection .empty))
      (Fails (Quiet s)) w :=
  (replacementIdentity_runs h).bind fun _ _ h => .pure ⟨h, _, _, _, _, _, rfl⟩

/-! ### Commands of the store -/

/-- A store command that fails is quiet; one that runs is described by what it does to the row. -/
lemma storeStep_runs {cmd : TimeMs → Database → Result (α × Database)} {Q : α → Session → Prop}
    (hcmd : ∀ now x db, cmd now w.db = .ok (x, db) →
      π.Reach (w.session site) (({ w with db } : World).session site) ∧
      Q x (({ w with db } : World).session site)) :
    RunsIn site π (storeStep cmd) Q (Fails (Quiet s)) w := by
  refine ask_bind fun a => ?_
  cases a.error with
  | some kind => exact .throw ⟨⟨_, rfl⟩, h⟩
  | none =>
    refine .get_bind ?_
    cases hres : cmd a.now w.db with
    | error message => exact .throw ⟨⟨_, rfl⟩, h⟩
    | ok result =>
      obtain ⟨x, db⟩ := result
      obtain ⟨hrch, hQ⟩ := hcmd a.now x db hres
      exact .modify_bind hrch (.pure hQ)

lemma loadSession_runs :
    RunsIn site π (loadSession site) (fun o s' => Quiet s s' ∧ o = s.row) (Fails (Quiet s)) w := by
  refine storeStep_runs h fun now x db hload => ?_
  obtain ⟨session, hses, hx⟩ := Result.bind_eq_ok_iff.1 hload
  cases hx
  exact ⟨.refl _, h, (loadUploadSession_eq_ok hses).trans h.row⟩

end

/-- A row that has not ended is not purged when it is saved again. -/
lemma lookup_purge_of_active {now : TimeMs}
    (hactv : ∀ row, w.row site = some row → row.state.isTerminal = false) :
    (purgeExpiredUploads now w.db.uploadSessions).lookup site.key =
      w.db.uploadSessions.lookup site.key := by
  rw [lookup_purgeExpiredUploads]
  cases hrow : w.db.uploadSessions.lookup site.key with
  | none => rfl
  | some row =>
    have hst := hactv row.session (by simp [World.row, hrow])
    cases hs : row.session.state <;>
      simp_all [StoredUploadState.isTerminal, UploadRow.discardable, Option.filter]

/-- A saved session is the row; nothing else changes. -/
lemma saveSession_runs {p : StoredUploadSession} (h : Quiet s (w.session site))
    (hkey : p.key = site.key) (hnms : Names site r p) (hsaves : s.Saves r p)
    (hactv : ∀ row, s.row = some row → row.state.isTerminal = false) :
    Runs site r (saveSession site p) (fun _ => Quiet { s with row := some p })
      (Fails (Quiet s)) w := by
  unfold saveSession
  cases p.validate with
  | error message => exact .throw ⟨⟨_, rfl⟩, h⟩
  | ok =>
    refine bind (storeStep_runs (Q := fun reply s' =>
        if reply = .conflict ∨ reply = .full then Quiet s s' else Quiet { s with row := some p } s')
      h fun now reply db hsave => ?_) fun reply w h => ?_
    · -- the purge before the save leaves the row alone
      have hprg : (purgeExpiredUploads now w.db.uploadSessions).lookup site.key =
          w.db.uploadSessions.lookup site.key :=
        lookup_purge_of_active fun row hrow => hactv row (h.row.symm.trans hrow)
      rcases saveUploadSession_cases hsave with ⟨hrep, hrows⟩ | ⟨hcon, hfull, hcont,
        expiresAt, hrows⟩
      · have heq : ({ w with db } : World).session site = w.session site := by
          simp only [World.session, World.row, hrows, hprg]
        rw [heq, if_pos hrep]
        exact ⟨.refl _, h⟩
      · rw [hkey, hprg] at hcont
        have heq : ({ w with db } : World).session site =
            { w.session site with row := some p } := by
          simp only [World.session, World.row, hrows, hkey, if_true, Option.map_some]
        rw [heq, if_neg (by simp [hcon, hfull])]
        rw [← h] at hsaves ⊢
        exact ⟨.single (.save _ p hnms hcont hsaves), .refl _⟩
    · cases reply with
      | inserted | updated | unchanged => exact .pure (by simpa using h)
      | conflict | full => exact .throw ⟨⟨_, rfl⟩, by simpa using h⟩

end Steps

end DufsRam
