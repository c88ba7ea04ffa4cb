import DufsRam.Router.Requests
import DufsRam.Upload.System

/-!
# What a response says about the work behind it

A response that denies a change is final: the request changes nothing after it. A response that
comes from the deadline after the mutation boundary was crossed denies nothing.
-/

namespace DufsRam

open Crash Transition Option Machine TrackedUpload

/-! ### Uploads -/

variable {n : ℕ}

namespace TrackedUpload

namespace Run

variable {ρ : Run} {s s' : State} {e : Event} {answers : List Answer} {res : UploadResponse}

/-- The task has come to its end. -/
def Ended (ρ : Run) (answers : List Answer) : Prop := ∀ w, ρ.task answers ≠ .crashed w

/-- No later step of the request changes anything. -/
def Settled (ρ : Run) (s : State) : Prop :=
  s.waiter ≠ .waiting ∧ (s.answers = none ∨ s.mutation = .cancelledBeforeUploadMutation ∨
    ∃ answers, s.answers = some answers ∧ ρ.Ended answers)

/-- The cell and the task agree about the boundary, and an answer that leaves nothing open came
after the end of the work or has closed the boundary. -/
structure Inv (ρ : Run) (s : State) : Prop where
  unspawned : s.answers = none → s.mutation = .preflight
  boundary : ∀ answers, s.answers = some answers →
    (s.mutation = .detachedCommit ↔ (ρ.task answers).state.Crossed)
  settled : ∀ res, s.waiter = .answered res → res.state = some .unknown ∨ ρ.Settled s

lemma observe_eq_some {cell seen cell' : MutationProgress} (h : cell.observe seen = some cell') :
    (cell' = .detachedCommit ↔ seen = .detachedCommit) ∧
      (cell = .cancelledBeforeUploadMutation → cell' = .cancelledBeforeUploadMutation) := by
  revert h
  revert cell'
  cases cell <;> cases seen <;> decide

/-- What a step of the task does. -/
lemma stepTask_eq_some {a : Answer} (h : ρ.stepTask s answers a = some s') :
    ¬ ρ.Ended answers ∧ ∃ mutation,
      s.mutation.observe (ρ.task (answers ++ [a])).state.mutation = some mutation ∧
      s' = { s with answers := some (answers ++ [a]), mutation } := by
  unfold stepTask at h
  cases htask : ρ.task answers with
  | crashed w =>
    rw [htask] at h
    obtain ⟨mutation, hobs, rfl⟩ := map_eq_some_iff.mp h
    exact ⟨fun hend => hend w htask, mutation, hobs, rfl⟩
  | done | raised => rw [htask] at h; cases h

/-- Everything a step can do. -/
inductive Step (ρ : Run) (s : State) : Event → State → Prop
  | refuse (reason : UploadRejection) (hanswers : s.answers = none)
      (hwaiter : s.waiter = .waiting) :
      Step ρ s (.refuse reason) { s with waiter := .answered (ρ.request.rejection reason) }
  | spawn (hanswers : s.answers = none) (hwaiter : s.waiter = .waiting) :
      Step ρ s .spawn { s with answers := some [] }
  | task (a : Answer) (answers : List Answer) (mutation : MutationProgress)
      (hanswers : s.answers = some answers) (hrunning : ¬ ρ.Ended answers)
      (hobserve : s.mutation.observe (ρ.task (answers ++ [a])).state.mutation = some mutation) :
      Step ρ s (.task a) { s with answers := some (answers ++ [a]), mutation }
  | deadline (answers : List Answer) (hanswers : s.answers = some answers)
      (hwaiter : s.waiter = .waiting) : Step ρ s .deadline (ρ.stepDeadline s)
  | join (answers : List Answer) (res : UploadResponse) (hanswers : s.answers = some answers)
      (hwaiter : s.waiter = .waiting) (hres : ρ.joined s.mutation (ρ.task answers) = some res) :
      Step ρ s .join { s with waiter := .answered res }
  | disconnect (hwaiter : s.waiter = .waiting) : Step ρ s .disconnect { s with waiter := .gone }

lemma step_cases (h : ρ.step s e = some s') : Step ρ s e s' := by
  cases e with
  | refuse reason =>
    obtain ⟨⟨hans, hwt⟩, ⟨⟩⟩ := ite_none_right_eq_some.mp h
    exact .refuse reason (isNone_iff_eq_none.mp hans) hwt
  | spawn =>
    obtain ⟨⟨hans, hwt⟩, ⟨⟩⟩ := ite_none_right_eq_some.mp h
    exact .spawn (isNone_iff_eq_none.mp hans) hwt
  | task a =>
    obtain ⟨answers, hans, hstep⟩ := bind_eq_some_iff.mp h
    obtain ⟨hrun, mutation, hobs, rfl⟩ := stepTask_eq_some hstep
    exact .task a answers mutation hans hrun hobs
  | deadline =>
    obtain ⟨⟨hans, hwt⟩, ⟨⟩⟩ := ite_none_right_eq_some.mp h
    obtain ⟨answers, hans⟩ := isSome_iff_exists.mp hans
    exact .deadline answers hans hwt
  | join =>
    obtain ⟨hwt, hjoin⟩ := ite_none_right_eq_some.mp h
    obtain ⟨res, hres, rfl⟩ := map_eq_some_iff.mp hjoin
    obtain ⟨answers, hans, hres⟩ := bind_eq_some_iff.mp hres
    exact .join answers res hans hwt hres
  | disconnect =>
    obtain ⟨hwt, ⟨⟩⟩ := ite_none_right_eq_some.mp h
    exact .disconnect hwt

/-- A settled request stays so. -/
lemma Settled.step (h : ρ.Settled s) (hstep : Step ρ s e s') : ρ.Settled s' := by
  obtain ⟨hwt, hset⟩ := h
  cases hstep with
  | refuse reason hans hwtg | spawn hans hwtg | deadline answers hans hwtg
  | join answers res hans hwtg | disconnect hwtg => exact absurd hwtg hwt
  | task a answers mutation hans hrun hobs =>
    refine ⟨hwt, ?_⟩
    rcases hset with hnone | hcls | ⟨answers', hans', hend⟩
    · cases hnone.symm.trans hans
    · exact .inr (.inl ((observe_eq_some hobs).2 hcls))
    · cases hans.symm.trans hans'
      exact absurd hend hrun

lemma Inv.step (h : ρ.Inv s) (hstep : Step ρ s e s') : ρ.Inv s' := by
  have hkeep : s.waiter ≠ .waiting → ρ.Settled s → ρ.Settled s' := fun _ h => h.step hstep
  cases hstep with
  | refuse reason hans hwt =>
    refine ⟨h.unspawned, h.boundary, fun res hres => .inr ⟨?_, .inl hans⟩⟩
    simp
  | spawn hans hwt =>
    refine ⟨by simp, ?_, fun res hres => ?_⟩
    · rintro answers ⟨⟩
      -- the task has not taken a step, so its world is the one it starts in
      have hworld : (ρ.task []).state = ρ.world := rfl
      rw [hworld, World.Crossed, ρ.fresh, h.unspawned hans]
    · cases hwt.symm.trans hres
  | task a answers mutation hans hrun hobs =>
    refine ⟨by simp, ?_, fun res hres => ?_⟩
    · rintro answers' ⟨⟩
      exact (observe_eq_some hobs).1
    · refine (h.settled res hres).imp_right fun hset => hkeep ?_ hset
      rw [hres]
      simp
  | deadline answers hans hwt =>
    refine ⟨fun hnone => ?_, fun answers' hans' => ?_, ?_⟩
    · rw [show (ρ.stepDeadline s).answers = s.answers from rfl, hans] at hnone
      cases hnone
    · rw [← h.boundary answers' hans']
      change s.mutation.cancelUploadBeforeMutation.2 = _ ↔ _
      cases s.mutation <;> decide
    · rintro res ⟨⟩
      cases hm : s.mutation with
      | preflight =>
        refine .inr ⟨fun heq => (by cases heq), .inr (.inl ?_)⟩
        change s.mutation.cancelUploadBeforeMutation.2 = _
        rw [hm]
        rfl
      | reserved | detachedCommit | cancelledBeforeUploadMutation => exact .inl rfl
  | join answers res hans hwt hres =>
    refine ⟨h.unspawned, h.boundary, ?_⟩
    rintro res' ⟨⟩
    refine .inr ⟨by simp, .inr (.inr ⟨answers, hans, fun w hcrsh => ?_⟩)⟩
    rw [hcrsh] at hres
    cases hres
  | disconnect hwt => exact ⟨h.unspawned, h.boundary, fun res hres => by cases hres⟩

lemma inv (n : ℕ) : ρ.Inv (ρ.state n) := by
  have hinit : ρ.Inv ρ.machine.init :=
    ⟨fun _ => rfl, fun answers h => (by cases h), fun res h => (by cases h)⟩
  exact run_invariant hinit (fun s e s' h hstep => h.step (step_cases hstep)) n

section

variable (hstd : ρ.Steady)

include hstd

/-- The task has crossed the boundary or has changed nothing. -/
lemma task_ends (hans : (ρ.state n).answers = some answers) :
    (ρ.task answers).Ends (fun res w => w.Crossed ∧ res.Candid ∨ Before ρ.world w)
      (fun e w => (∃ f, e = .error f) ∧ Side ρ.world w) (Side ρ.world) := by
  refine handleUpload_ends (hstd n answers hans) fun hcr => ?_
  rw [World.Crossed, ρ.fresh] at hcr
  cases hcr

/-- As long as the cell does not say otherwise, nothing has changed. -/
lemma tracked_eq (hcell : (ρ.state n).mutation ≠ .detachedCommit) :
    ρ.tracked n = ρ.world.tracked := by
  unfold tracked
  cases hans : (ρ.state n).answers with
  | none => rfl
  | some answers =>
    have hside : Side ρ.world (ρ.task answers).state :=
      ((task_ends hstd hans).mono (fun _ _ h => h.imp_left fun h => h.1)
        (fun _ _ h => h.2) fun _ h => h).state
    rcases hside with hcr | hbef
    · exact absurd (((ρ.inv n).boundary answers hans).mpr hcr) hcell
    · exact hbef.tracked

lemma Settled.tracked_succ (h : ρ.Settled (ρ.state n)) :
    ρ.Settled (ρ.state (n + 1)) ∧ ρ.tracked (n + 1) = ρ.tracked n := by
  cases hstep : ρ.step (ρ.state n) (ρ.schedule n) with
  | none =>
    have hstay : ρ.state (n + 1) = ρ.state n := run_succ_of_none hstep
    exact ⟨hstay ▸ h, by rw [tracked, tracked, hstay]⟩
  | some s' =>
    have hnext : ρ.state (n + 1) = s' := run_succ_of_step hstep
    have hcs := step_cases hstep
    have hset := h.step hcs
    refine ⟨hnext ▸ hset, ?_⟩
    -- only the task can change anything, and it does so only if the boundary is closed
    have hcls : (ρ.state (n + 1)).answers ≠ (ρ.state n).answers →
        (ρ.state n).mutation = .cancelledBeforeUploadMutation ∧
          (ρ.state (n + 1)).mutation = .cancelledBeforeUploadMutation := by
      rw [hnext]
      intro hmv
      generalize ρ.schedule n = e at hcs
      cases hcs with
      | refuse | deadline | join | disconnect => exact absurd rfl hmv
      | spawn hans hwtg => exact absurd hwtg h.1
      | task a answers mutation hans hrun hobs =>
        rcases h.2 with hnone | hcell | ⟨answers', hans', hend⟩
        · cases hnone.symm.trans hans
        · exact ⟨hcell, (observe_eq_some hobs).2 hcell⟩
        · cases hans.symm.trans hans'
          exact absurd hend hrun
    by_cases hmv : (ρ.state (n + 1)).answers = (ρ.state n).answers
    · rw [tracked, tracked, hmv]
    · obtain ⟨hcell, hcell'⟩ := hcls hmv
      rw [tracked_eq hstd (by rw [hcell']; nofun), tracked_eq hstd (by rw [hcell]; nofun)]

/-- After an answer that leaves nothing open the request changes nothing. -/
lemma tracked_after_answer (hansd : (ρ.state n).waiter = .answered res)
    (hst : res.state ≠ some .unknown) {m : ℕ} (hle : n ≤ m) : ρ.tracked m = ρ.tracked n := by
  have hset : ρ.Settled (ρ.state n) := ((ρ.inv n).settled res hansd).resolve_left hst
  have hrun : ρ.Settled (ρ.state m) ∧ ρ.tracked m = ρ.tracked n := by
    induction m, hle using Nat.le_induction with
    | base => exact ⟨hset, rfl⟩
    | succ m hle ih =>
      obtain ⟨hset, heq⟩ := ih.1.tracked_succ hstd
      exact ⟨hset, heq.trans ih.2⟩
  exact hrun.2

/-- Across the boundary a request is answered candidly, and by the deadline with an open outcome. -/
lemma answer_of_crossed (hwtg : (ρ.state n).waiter = .waiting)
    (hansd : (ρ.state (n + 1)).waiter = .answered res)
    (hcell : (ρ.state n).mutation = .detachedCommit) :
    res.Candid ∧ (ρ.schedule n = .deadline → res.state = some .unknown) := by
  cases hstep : ρ.step (ρ.state n) (ρ.schedule n) with
  | none =>
    rw [show ρ.state (n + 1) = ρ.state n from run_succ_of_none hstep, hwtg] at hansd
    cases hansd
  | some s' =>
    rw [show ρ.state (n + 1) = s' from run_succ_of_step hstep] at hansd
    have hcs := step_cases hstep
    generalize ρ.schedule n = e at hcs
    cases hcs with
    | refuse reason hans | spawn hans =>
      rw [(ρ.inv n).unspawned hans] at hcell
      cases hcell
    | task a answers mutation hans hrun hobs =>
      cases hwtg.symm.trans hansd
    | deadline answers hans =>
      have hres : res = deadlineResponse ρ.request false := by
        rw [Run.stepDeadline, hcell] at hansd
        cases hansd
        rfl
      rw [hres]
      exact ⟨candid_problem nofun fun _ _ => .inl rfl, fun _ => rfl⟩
    | disconnect => cases hansd
    | join answers res' hans _ hres =>
      cases hansd
      refine ⟨?_, nofun⟩
      have hcr := ((ρ.inv n).boundary answers hans).mp hcell
      have hends := task_ends hstd hans
      cases htask : ρ.task answers with
      | crashed w => rw [htask] at hres; cases hres
      | done res' rest w =>
        rw [htask] at hres hends hcr
        cases hres
        rcases hends with ⟨_, hcandid⟩ | hbef
        · exact hcandid
        · exact absurd hcr hbef.outside
      | raised e rest w =>
        rw [htask] at hres hends
        obtain ⟨⟨f, rfl⟩, -⟩ := hends
        cases hres
        rw [renderUploadError, hcell]
        exact candid_problem nofun fun _ _ => .inl rfl

end

end Run

end TrackedUpload

/-! ### Tracked operations -/

namespace TrackedOperation

namespace Run

variable {χ σ ε α : Type} {ρ : Run χ σ ε α} {s s' : State χ} {e : Event χ}

/-- The commit has come to its end. -/
def Ended (ρ : Run χ σ ε α) (answers : List χ) : Prop :=
  ∀ files, ρ.commit answers ρ.files ≠ .crashed files

/-- No commit is spawned. -/
def Phase.Idle : Phase χ → Prop
  | .preflight | .reserved => True
  | .committing _ => False

/-- The cell tells whether the commit is spawned, and an answer that leaves nothing open came
without a commit or after its end. -/
structure Inv (ρ : Run χ σ ε α) (s : State χ) : Prop where
  boundary : s.mutation = .detachedCommit ↔ ¬ Phase.Idle s.phase
  settled : ∀ res, s.waiter = .answered res → res.state = .unknown ∨ Phase.Idle s.phase ∨
    ∃ answers, s.phase = .committing answers ∧ ρ.Ended answers

lemma Inv.stepHandler (h : ρ.Inv s) (hwt : s.waiter = .waiting)
    (hstep : ρ.stepHandler s e = some s') : ρ.Inv s' := by
  obtain ⟨phase, mutation, waiter⟩ := s
  obtain rfl : waiter = .waiting := hwt
  have hbdy := h.boundary
  cases e with
  | reserve =>
    cases phase <;> cases hstep
    refine ⟨?_, fun res hres => (by cases hres)⟩
    cases mutation <;> simp_all [Phase.Idle, MutationProgress.markReserved]
  | reply res | fail =>
    cases phase <;> cases hstep
    · exact ⟨hbdy, fun res hres => .inr (.inl trivial)⟩
    · exact ⟨hbdy, fun res hres => .inr (.inl trivial)⟩
  | dispatch =>
    cases phase <;> cases hstep
    exact ⟨⟨fun _ hidle => hidle, fun _ => rfl⟩, fun res hres => (by cases hres)⟩
  | commit c => cases hstep
  | join =>
    cases phase with
    | preflight | reserved => cases hstep
    | committing answers =>
      obtain ⟨res, hres, rfl⟩ := map_eq_some_iff.mp hstep
      refine ⟨hbdy, fun res' hres' => .inr (.inr ⟨answers, rfl, fun files hcrsh => ?_⟩)⟩
      rw [hcrsh] at hres
      cases hres
  | timeout =>
    cases hstep
    refine ⟨hbdy, ?_⟩
    rintro res ⟨⟩
    by_cases hcell : mutation = .detachedCommit
    · subst hcell
      exact .inl rfl
    · exact .inr (.inl (by_contra fun hidle => hcell (hbdy.mpr hidle)))
  | disconnect =>
    cases hstep
    exact ⟨hbdy, fun res hres => (by cases hres)⟩

/-- What a step of the commit does. -/
lemma stepCommit_eq_some {c : χ} (h : ρ.stepCommit s c = some s') :
    ∃ answers, s.phase = .committing answers ∧ ¬ ρ.Ended answers ∧
      s' = { s with phase := .committing (answers ++ [c]) } := by
  unfold stepCommit at h
  split at h
  · cases h
  · cases h
  · next answers hph =>
    split at h
    · next files hcrsh =>
      cases h
      exact ⟨answers, hph, fun hend => hend files hcrsh, rfl⟩
    · cases h
    · cases h

lemma step_cases (h : ρ.step s e = some s') : (∃ c, e = .commit c ∧ ρ.stepCommit s c = some s') ∨
      s.waiter = .waiting ∧ ρ.stepHandler s e = some s' := by
  cases e with
  | commit c => exact .inl ⟨c, rfl, h⟩
  | _ => exact .inr (ite_none_right_eq_some.mp h)

lemma Inv.step (h : ρ.Inv s) (hstep : ρ.step s e = some s') : ρ.Inv s' := by
  rcases step_cases hstep with ⟨c, -, hcmt⟩ | ⟨hwt, hhdl⟩
  · obtain ⟨answers, hph, hrun, rfl⟩ := stepCommit_eq_some hcmt
    refine ⟨?_, fun res hres => ?_⟩
    · rw [h.boundary, hph]
      exact Iff.rfl
    · rcases h.settled res hres with hst | hidle | ⟨answers', hph', hend⟩
      · exact .inl hst
      · rw [hph] at hidle
        exact hidle.elim
      · cases hph.symm.trans hph'
        exact absurd hend hrun
  · exact h.stepHandler hwt hhdl

lemma inv (n : ℕ) : ρ.Inv (ρ.state n) := by
  have hinit : ρ.Inv ρ.machine.init :=
    ⟨⟨fun h => (by cases h), fun h => absurd trivial h⟩, fun res h => (by cases h)⟩
  exact run_invariant hinit (fun s e s' h hstep => h.step hstep) n

/-- After an answer that leaves nothing open the operation changes nothing. -/
lemma tracked_after_answer {res : OperationResponse} (hansd : (ρ.state n).waiter = .answered res)
    (hst : res.state ≠ .unknown) {m : ℕ} (hle : n ≤ m) : ρ.tracked m = ρ.tracked n := by
  have hrun : ρ.state m = ρ.state n := by
    induction m, hle using Nat.le_induction with
    | base => rfl
    | succ m hle ih =>
      rw [← ih]
      refine run_succ_of_none ?_
      change ρ.step (ρ.state m) (ρ.schedule m) = none
      rw [ih]
      cases hstep : ρ.step (ρ.state n) (ρ.schedule m) with
      | none => rfl
      | some s' =>
        exfalso
        rcases step_cases hstep with ⟨c, -, hcmt⟩ | ⟨hwt, hhdl⟩
        · obtain ⟨answers, hph, hrunning, rfl⟩ := stepCommit_eq_some hcmt
          rcases (ρ.inv n).settled res hansd with hunk | hidle | ⟨answers', hph', hend⟩
          · exact hst hunk
          · rw [hph] at hidle
            exact hidle
          · cases hph.symm.trans hph'
            exact hrunning hend
        · cases hansd.symm.trans hwt
  rw [tracked, tracked, hrun]

/-- A timeout after the commit was spawned leaves the outcome open. -/
lemma answer_of_timeout {res : OperationResponse} (hwtg : (ρ.state n).waiter = .waiting)
    (hansd : (ρ.state (n + 1)).waiter = .answered res)
    (hcell : (ρ.state n).mutation = .detachedCommit) (htimeout : ρ.schedule n = .timeout) :
    res.state = .unknown := by
  have hstep : ρ.machine.step (ρ.state n) (ρ.schedule n) =
      some { ρ.state n with waiter := .answered (applyOperationTimeout (ρ.state n).mutation) } := by
    rw [htimeout]
    exact if_pos hwtg
  rw [show ρ.state (n + 1) = _ from run_succ_of_step hstep, hcell] at hansd
  cases hansd
  rfl

end Run

end TrackedOperation

/-! ### Both kinds of requests -/

/-- A response that denies a change is final; a deadline behind the boundary denies nothing. -/
structure TrackedUpload.Run.Honest (ρ : TrackedUpload.Run) : Prop where
  denial : ∀ n res, (ρ.state n).waiter = .answered res →
    res.state = some .notStarted ∨ res.state = some .rejected →
      ∀ m, n ≤ m → ρ.tracked m = ρ.tracked n
  deadline : ∀ n res, (ρ.state n).waiter = .waiting → (ρ.state (n + 1)).waiter = .answered res →
    (ρ.state n).mutation = .detachedCommit → res.state ≠ some .notStarted ∧
      (ρ.schedule n = .deadline ∨ res.reportsDeadline = true → res.state = some .unknown ∨
        (res.state = some .running ∨ res.state = some .awaitingConfirmation) ∧
          res.uploadOffset.isSome = true)

/-- The same for an operation, whose denial is a rejection. -/
structure TrackedOperation.Run.Honest {χ σ ε α : Type} (ρ : TrackedOperation.Run χ σ ε α) :
    Prop where
  denial : ∀ n res, (ρ.state n).waiter = .answered res → res.state = .rejected →
    ∀ m, n ≤ m → ρ.tracked m = ρ.tracked n
  deadline : ∀ n res, (ρ.state n).waiter = .waiting → (ρ.state (n + 1)).waiter = .answered res →
    (ρ.state n).mutation = .detachedCommit → ρ.schedule n = .timeout → res.state = .unknown

/-- Whatever the order of the deadline, the task, the commit and a disconnection, a response that
denies a change is final, and a deadline that comes after the mutation boundary was crossed leaves
the outcome open or repeats what is durable. -/
theorem responses_honest : (∀ ρ : TrackedUpload.Run, ρ.Steady → ρ.Honest) ∧
      ∀ (χ σ ε α : Type) (ρ : TrackedOperation.Run χ σ ε α), ρ.Honest := by
  refine ⟨fun ρ hsteady => ⟨fun n res hanswered hstate m hle => ?_,
    fun n res hwaiting hanswered hcell => ?_⟩, fun χ σ ε α ρ =>
    ⟨fun n res hanswered hstate m hle => ?_, fun n res hwaiting hanswered hcell htimeout => ?_⟩⟩
  · refine TrackedUpload.Run.tracked_after_answer hsteady hanswered ?_ hle
    rcases hstate with hstate | hstate <;> rw [hstate] <;> nofun
  · obtain ⟨hcandid, hdeadline⟩ :=
      TrackedUpload.Run.answer_of_crossed hsteady hwaiting hanswered hcell
    refine ⟨hcandid.started, fun hreports => ?_⟩
    rcases hreports with hfired | hreported
    · exact .inl (hdeadline hfired)
    · exact (hcandid.deadline hreported).imp_right fun h => ⟨.inr h.1, h.2⟩
  · exact TrackedOperation.Run.tracked_after_answer hanswered (by rw [hstate]; nofun) hle
  · exact TrackedOperation.Run.answer_of_timeout hwaiting hanswered hcell htimeout

/-- A run on the small site, whose client leaves after the given events. -/
def TrackedUpload.small (world : World) (request : UploadRequest)
    (events : List TrackedUpload.Event) : TrackedUpload.Run where
  site := smallSite
  request := request
  world := world.beginRequest
  fresh := rfl
  schedule n := events.getD n .disconnect

/-- A fresh upload is late before it has created its stage; its task goes on and ends. -/
theorem responses_honest_late_put :
    let ρ := small ((smallRun none []).state 0).world smallPut
      ([.spawn] ++ List.replicate 3 (.task {}) ++ [.deadline] ++ List.replicate 9 (.task {}))
    ρ.Steady ∧ (∃ res, (ρ.state 5).waiter = .answered res ∧ res.state = some .notStarted) ∧
      ∀ m, 5 ≤ m → ρ.tracked m = ρ.tracked 5 := by
  intro ρ
  have hsteady : ρ.Steady := by
    rintro n answers -
      (⟨x, rest, w, -, hresume, -⟩ | ⟨x, lease, rest, rest', w, w', -, -, hresume, -⟩)
    · cases hresume
    · cases hresume
  have hanswered : (ρ.state 5).waiter =
      .answered (deadlineResponse smallPut true) := by decide +kernel
  exact ⟨hsteady, ⟨_, hanswered, rfl⟩,
    (responses_honest.1 ρ hsteady).denial 5 _ hanswered (.inl rfl)⟩

/-- A confirmation that is late before its commit repeats that its stage awaits confirmation. And a
resumed upload whose deadline passes between two reads of the clock is reported as not started,
while its task goes on to store a checkpoint. -/
theorem responses_not_honest :
    (∃ (ρ : TrackedUpload.Run) (n : ℕ) (res : UploadResponse), (ρ.state n).waiter = .waiting ∧
      (ρ.state (n + 1)).waiter = .answered res ∧ (ρ.state n).mutation = .detachedCommit ∧
      res.reportsDeadline = true ∧ res.state = some .awaitingConfirmation) ∧
    ∃ (ρ : TrackedUpload.Run) (n m : ℕ) (res : UploadResponse), n ≤ m ∧
      (ρ.state n).waiter = .answered res ∧ res.state = some .notStarted ∧
      res.reportsDeadline = true ∧ ρ.tracked m ≠ ρ.tracked n := by
  constructor
  · let ρ := small ((smallRun none retainedUpload).state 3).world smallConfirmation
      ([.spawn] ++ List.replicate 25 (.task {}) ++ [.task { no := true }, .join])
    refine ⟨ρ, 27, applyAwaitingConfirmationProblem 2 .requestTimeout .requestTimeout
      "Upload timed out before durable commit", ?_⟩
    decide +kernel
  · let ρ := small ((smallRun none retainedUpload).state 1).world
      ⟨.resume 1, 2, .noReplace, none, [.chunk [8]]⟩
      ([.spawn] ++ List.replicate 16 (.task {}) ++ [.task { no := true }, .deadline] ++
        List.replicate 9 (.task { now := 5 }))
    refine ⟨ρ, 19, 28, deadlineResponse ⟨.resume 1, 2, .noReplace, none, [.chunk [8]]⟩ true,
      by decide, by decide +kernel, rfl, rfl, fun heq => ?_⟩
    have hrow : (ρ.tracked 28).db.uploadSessions.lookup smallSite.key ≠
        (ρ.tracked 19).db.uploadSessions.lookup smallSite.key := by decide +kernel
    exact hrow (by rw [heq])

end DufsRam
