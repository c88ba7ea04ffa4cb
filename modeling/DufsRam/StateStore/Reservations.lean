import DufsRam.StateStore.Holders

/-!
# No reservation leaks

The steps of the thread. A cancellation that it takes from the control channel is carried out or put
off, and so is the one of a reply that comes back; the thread waits for a command only after it has
found the control channel empty, and whoever sends a cancellation afterwards leaves a command on the
queue.
-/

namespace DufsRam

open Relational

variable {lease : Uuid}

namespace Actor

section Thread

variable {cfg : Config} {s s' : State} {c : ℕ} {r : Reservation} {fault : Bool} {now : TimeMs}

/-- The thread waits for a command only after it has found no control command. -/
lemma Safe.thread (h : Safe s) (hcals : s'.callers = s.callers) (hcmds : s'.commands ⊆ s.commands)
    (hph : s'.actor.Fits s.callers) (hcov : s'.actor ≠ .stopped → Covered s')
    (hemp : s'.actor = .receiving → s'.controls = []) : Safe s' where
  commands command hcmd := by
    rw [hcals]
    exact h.commands command (hcmds hcmd)
  phase := by
    rw [hcals]
    exact hph
  callers := by
    rw [hcals]
    exact h.callers
  covered := hcov
  awake hrcv _ sender r hr := by
    rw [hemp hrcv] at hr
    cases hr

lemma reserved_of_abandonOperation {db' : Database} {r₀ : Reservation}
    (h : s.abandonOperation cfg fault now r = some db') (hr : db'.Reserved r₀) :
    s.db.Reserved r₀ ∧ r₀ ≠ r := by
  unfold State.abandonOperation attempt at h
  split at h
  case h_2 => cases h
  case h_1 hres =>
    cases h
    split_ifs at hres
    exact hr.of_abandon hres

/-- A cancellation takes the reservation away, or it is put off. -/
lemma Covered.abandonOrDefer (h : ∀ r₀, s.db.Reserved r₀ → r₀ ≠ r → Held s r₀) :
    Covered (s.abandonOrDefer cfg fault now r) := by
  intro r₀ hr₀
  unfold State.abandonOrDefer at hr₀ ⊢
  cases haban : s.abandonOperation cfg fault now r with
  | some db' =>
    simp only [haban] at hr₀ ⊢
    obtain ⟨hold, hne⟩ := reserved_of_abandonOperation haban hr₀
    exact (h r₀ hold hne).mono rfl (fun _ h => h) id id
  | none =>
    simp only [haban] at hr₀ ⊢
    unfold State.deferAbandon at hr₀ ⊢
    split_ifs at hr₀ ⊢ with hmem
    · by_cases hr : r₀ = r
      · exact .deferred (hr ▸ hmem)
      · exact h r₀ hr₀ hr
    · by_cases hr : r₀ = r
      · exact .deferred (by simp [hr])
      · exact (h r₀ hr₀ hr).mono rfl (fun _ h => h) (List.mem_append_left _) id

@[simp] lemma State.abandonOrDefer_actor : (s.abandonOrDefer cfg fault now r).actor = s.actor := by
  unfold State.abandonOrDefer State.deferAbandon
  cases s.abandonOperation cfg fault now r with
  | some db' => rfl
  | none => dsimp only; split_ifs <;> rfl

@[simp] lemma State.abandonOrDefer_callers :
    (s.abandonOrDefer cfg fault now r).callers = s.callers := by
  unfold State.abandonOrDefer State.deferAbandon
  cases s.abandonOperation cfg fault now r with
  | some db' => rfl
  | none => dsimp only; split_ifs <;> rfl

@[simp] lemma State.abandonOrDefer_commands :
    (s.abandonOrDefer cfg fault now r).commands = s.commands := by
  unfold State.abandonOrDefer State.deferAbandon
  cases s.abandonOperation cfg fault now r with
  | some db' => rfl
  | none => dsimp only; split_ifs <;> rfl

lemma Safe.retryDeferred (h : Safe s) (hstep : s.retryDeferred cfg fault now = some s') :
    Safe s' := by
  unfold State.retryDeferred at hstep
  split at hstep
  case h_3 => cases hstep
  case h_1 hact hdef =>
    cases hstep
    refine h.thread rfl (fun _ hmem => hmem) trivial (fun _ r hr => ?_) (by rintro ⟨⟩)
    exact (h.covered (by simp [hact]) r hr).mono rfl (fun _ h => h) id (by simp [hact, Phase.armed])
  case h_2 r rest hact hdef =>
    split at hstep
    case h_1 db' haban =>
      cases hstep
      refine h.thread rfl (fun _ hmem => hmem) trivial (fun _ r₀ hr₀ => ?_) (by rintro ⟨⟩)
      obtain ⟨hold, hne⟩ := reserved_of_abandonOperation haban hr₀
      refine (h.covered (by simp [hact]) r₀ hold).mono rfl (fun _ h => h) (fun h => ?_)
        (by simp [hact, Phase.armed])
      rw [hdef] at h
      exact (List.mem_cons.1 h).resolve_left hne
    case h_2 haban =>
      cases hstep
      refine h.thread rfl (fun _ hmem => hmem) trivial (fun _ r₀ hr₀ => ?_) (by rintro ⟨⟩)
      refine (h.covered (by simp [hact]) r₀ hr₀).mono rfl (fun _ h => h) (fun h => ?_)
        (by simp [hact, Phase.armed])
      rw [hdef] at h
      simpa [or_comm] using h

lemma Safe.control (h : Safe s) (hstep : s.control cfg fault now = some s') : Safe s' := by
  unfold State.control at hstep
  split at hstep
  case h_4 => cases hstep
  case h_1 hact hctl =>
    cases hstep
    refine h.thread rfl (fun _ hmem => hmem) trivial (fun _ r hr => ?_) fun _ => hctl
    exact (h.covered (by simp [hact]) r hr).mono rfl (fun _ h => h) id (by simp [hact, Phase.armed])
  case h_2 sender r rest hact hctl =>
    cases hstep
    refine h.thread (by simp) (by simp) (by simp [hact, Phase.Fits]) (fun _ => ?_) (by simp [hact])
    refine Covered.abandonOrDefer fun r₀ hr₀ hne => ?_
    refine (h.covered (by simp [hact]) r₀ hr₀).mono rfl (fun sender' h => ?_) id id
    rw [hctl] at h
    refine (List.mem_cons.1 h).resolve_left ?_
    rintro ⟨⟩
    exact hne rfl
  case h_3 =>
    cases hstep
    exact h.thread rfl (by simp [State.stop]) trivial (fun hrun => absurd rfl hrun) (by rintro ⟨⟩)

/-- The reply reaches a guard that waits for it; once it says that the operation is completed, no
row is reserved for the guard. -/
lemma Safe.deliver {reply : Result Bool} (h : Safe s) (hact : s.actor = .controls)
    (hfits : (s.callers c).FitsGuard r) (hdone : reply = .ok true → ¬ s.db.Reserved r) :
    Safe (s.deliver c reply) := by
  unfold State.deliver
  split
  case h_2 => exact h
  case h_1 guard call hcal =>
    refine h.set ?_ (fun _ r₀ hr₀ harmed => ?_) (by simp [hact])
    · rw [hcal]
      exact .guarding guard _ _
    · rw [hcal] at harmed hfits
      have hgrd := Caller.armed_guarding harmed
      obtain rfl : guard = r := hfits
      subst hgrd
      unfold Caller.armed
      split
      case h_2 heq =>
        cases heq
        exact absurd hr₀ (hdone rfl)
      all_goals simp_all

/-- A command on a row that the reply says it has changed. -/
lemma Safe.answer {res : Result (Bool × Database)} (h : Safe s) (hact : s.actor = .controls)
    (hfits : (s.callers c).FitsGuard r) (hres : ∀ changed db', res = .ok (changed, db') →
      ∀ r₀, db'.Reserved r₀ → s.db.Reserved r₀ ∧ r₀ ≠ r) : Safe (s.answer c res) := by
  unfold State.answer
  split
  case h_1 changed db' =>
    have hdb := hres changed db' rfl
    have hsf : Safe { s with db := db' } := by
      refine h.thread rfl (fun _ hmem => hmem) h.phase (fun hrun r₀ hr₀ => ?_) (by simp [hact])
      exact (h.covered hrun r₀ (hdb r₀ hr₀).1).mono rfl (fun _ h => h) id id
    exact hsf.deliver hact hfits fun _ hr => (hdb r hr).2 rfl
  case h_2 message => exact h.deliver hact hfits (by simp)

lemma attempt_eq_ok {α : Type} {x : Result α} {a : α} (h : attempt fault x = .ok a) :
    x = .ok a := by
  unfold attempt at h
  split_ifs at h
  exact h

lemma Safe.executeBegin {key : OperationKey} {fp : Fingerprint} (h : Safe s)
    (hact : s.actor = .controls) (hfits : (s.callers c).FitsBegin key) :
    Safe (s.executeBegin cfg fault now lease c key fp) := by
  unfold State.executeBegin
  split
  case h_1 begin db' hbegin =>
    refine h.thread rfl (fun _ hmem => hmem) ⟨hfits, ?_⟩ (fun _ r₀ hr₀ => ?_) (by rintro ⟨⟩)
    · rintro envelope ⟨⟩
      exact BeginEnvelope.genuine_new begin key
    · rcases Database.Reserved.of_begin (attempt_eq_ok hbegin) hr₀ with hold | ⟨hsta, hkey⟩
      · exact (h.covered (by simp [hact]) r₀ hold).mono rfl (fun _ h => h) id
          (by simp [hact, Phase.armed])
      · exact .envelope ((BeginEnvelope.genuine_new begin key).armed_iff.2 ⟨hsta, hkey⟩)
  case h_2 message _ =>
    refine h.thread rfl (fun _ hmem => hmem) ⟨hfits, by rintro envelope ⟨⟩⟩ (fun _ r₀ hr₀ => ?_)
      (by rintro ⟨⟩)
    exact (h.covered (by simp [hact]) r₀ hr₀).mono rfl (fun _ h => h) id
      (by simp [hact, Phase.armed])

lemma Safe.execute {cmd : Command} (h : Safe s) (hact : s.actor = .controls)
    (hfits : cmd.Fits s.callers) : Safe (s.execute cfg fault now lease cmd) := by
  cases cmd with
  | wake => exact h
  | begin d key fp =>
    simp only [State.execute]
    split_ifs
    · exact h
    · exact h.executeBegin hact hfits
  | markCommitStarted d g =>
    exact h.answer hact hfits fun _ _ hres _ hr₀ => hr₀.of_mark (attempt_eq_ok hres)
  | complete d g outcome =>
    exact h.answer hact hfits fun _ _ hres _ hr₀ => hr₀.of_complete (attempt_eq_ok hres)
  | other cmd =>
    simp only [State.execute]
    split_ifs
    · exact h
    · refine h.thread rfl (fun _ hmem => hmem) h.phase (fun hrun r₀ hr₀ => ?_) (by simp [hact])
      exact (h.covered hrun r₀ (.of_other hr₀)).mono rfl (fun _ h => h) id id

lemma Safe.command (h : Safe s) (hstep : s.command cfg fault now lease = some s') : Safe s' := by
  unfold State.command at hstep
  split at hstep
  case h_2 => cases hstep
  case h_1 command rest hact hcmds =>
    cases hstep
    have htaken : Safe { s with commands := rest, actor := .controls } := by
      refine h.thread rfl (by simp [hcmds]) trivial (fun _ r₀ hr₀ => ?_) (by rintro ⟨⟩)
      exact (h.covered (by simp [hact]) r₀ hr₀).mono rfl (fun _ h => h) id
        (by simp [hact, Phase.armed])
    exact htaken.execute rfl (h.commands command (by simp [hcmds]))

/-- An envelope that comes back to the thread is abandoned by it. -/
lemma Covered.returned {key : OperationKey} {res : Result BeginEnvelope}
    (hgen : ∀ envelope, res = .ok envelope → envelope.Genuine key) (h : ∀ r₀, s.db.Reserved r₀ →
      (∀ envelope, res = .ok envelope → envelope.armed ≠ some r₀) → Held s r₀) :
    Covered (s.returned cfg fault now key res) := by
  unfold State.returned
  split
  case h_2 message => exact fun r₀ hr₀ => h r₀ hr₀ (by rintro envelope ⟨⟩)
  case h_1 envelope =>
    have harmed := hgen envelope rfl
    split
    case h_1 lease hrsv =>
      refine Covered.abandonOrDefer fun r₀ hr₀ hne => h r₀ hr₀ ?_
      rintro envelope' ⟨⟩ harmed'
      obtain ⟨hsta, hkey⟩ := harmed.armed_iff.1 harmed'
      simp only [BeginEnvelope.reservation, hsta, Option.some.injEq] at hrsv
      exact hne (by rw [← hrsv, ← hkey])
    case h_2 hrsv =>
      refine fun r₀ hr₀ => h r₀ hr₀ ?_
      rintro envelope' ⟨⟩ harmed'
      simp [BeginEnvelope.reservation, (harmed.armed_iff.1 harmed').1] at hrsv

lemma State.returned_frame (cfg : Config) (s : State) (fault : Bool) (now : TimeMs)
    (key : OperationKey) (res : Result BeginEnvelope) :
    (s.returned cfg fault now key res).actor = s.actor ∧
      (s.returned cfg fault now key res).callers = s.callers ∧
      (s.returned cfg fault now key res).commands = s.commands := by
  unfold State.returned
  split
  · split <;> simp
  · simp

lemma Safe.reply (h : Safe s) (hstep : s.reply cfg fault now = some s') : Safe s' := by
  unfold State.reply at hstep
  split at hstep
  case h_2 => cases hstep
  case h_1 c key result hact =>
    have hph : (s.callers c).FitsBegin key ∧
        ∀ envelope, result = .ok envelope → envelope.Genuine key := by
      simpa [hact, Phase.Fits] using h.phase
    have hrun : s.actor ≠ .stopped := by simp [hact]
    split at hstep
    case h_1 key' hcal =>
      cases hstep
      -- the envelope passes from the thread into the reply channel
      obtain rfl : key' = key := by simpa [hcal, Caller.FitsBegin] using hph.1
      have hadv : (s.callers c).Advance (.beginning key' (some result)) := by
        rw [hcal]
        refine ⟨fun _ hfits => hfits, fun _ hfits => hfits.elim, fun _ => ?_⟩
        rcases result with message | envelope
        · trivial
        · exact hph.2 envelope rfl
      have hset : Safe (s.set c (.beginning key' (some result))) := by
        refine h.set hadv (fun _ r₀ _ hr₀ => ?_) (by simp [hact])
        rw [hcal] at hr₀
        cases hr₀
      refine hset.thread rfl (fun _ hmem => hmem) trivial (fun _ r₀ hr₀ => ?_) (by rintro ⟨⟩)
      cases hset.covered hrun r₀ hr₀ with
      | control sender h => exact .control sender h
      | deferred h => exact .deferred h
      | envelope henv =>
        refine .caller c ?_
        change s.actor.armed = some r₀ at henv
        rw [hact] at henv
        rcases result with message | envelope
        · cases henv
        · simpa [State.set, State.goto, Phase.armed, Caller.armed] using henv
      | caller d h => exact .caller d h
    case h_2 =>
      cases hstep
      obtain ⟨hact', hcals', hcmds'⟩ :=
        State.returned_frame cfg (s.goto .controls) fault now key result
      refine h.thread hcals' (by rw [hcmds']; exact fun _ hmem => hmem)
        (by rw [hact']; trivial) (fun _ => ?_) (by rw [hact']; rintro ⟨⟩)
      refine Covered.returned hph.2 fun r₀ hr₀ hne => ?_
      refine (h.covered hrun r₀ hr₀).mono rfl (fun _ h => h) id fun henv => ?_
      rw [hact] at henv
      rcases result with message | envelope
      · cases henv
      · exact absurd henv (hne envelope rfl)

end Thread

lemma Safe.step {cfg : Config} {s s' : State} {e : Event} (h : Safe s)
    (hstep : s.step cfg e = some s') : Safe s' := by
  cases e with
  | start c key fp => exact h.start hstep
  | receive c => exact h.receive hstep
  | cancel c => exact h.cancel hstep
  | mark c => exact h.mark hstep
  | complete c outcome => exact h.complete hstep
  | wake c => exact h.wake hstep
  | submit command =>
    rw [State.send_eq_some hstep]
    exact h.push trivial
  | close => exact h.close hstep
  | closeWake => exact h.closeWake hstep
  | retryDeferred fault now => exact h.retryDeferred hstep
  | control fault now => exact h.control hstep
  | command fault now lease => exact h.command hstep
  | reply fault now => exact h.reply hstep

namespace Run

lemma safe_init (R : Run) : Safe R.init where
  commands := by simp [init]
  phase := trivial
  callers _ := trivial
  covered _ _ hr := absurd hr (Database.not_reserved_of_recovered R.recovered)
  awake := by rintro ⟨⟩

lemma safe (R : Run) (n : ℕ) : Safe (R.state n) :=
  Transition.Machine.run_invariant R.safe_init (fun _ _ _ h hstep => h.step hstep) n

/-- While the thread of the store runs, every reserved row is held: a cancellation of it is on the
control channel or put off by the thread, or an envelope or a guard is armed to send it. And the
thread does not wait on an empty queue of commands while the control channel holds a cancellation
whose sender is through with its `Wake`. -/
theorem reservations_held (R : Run) (n : ℕ) (hrunning : (R.state n).actor ≠ .stopped) :
    (∀ r, (R.state n).db.Reserved r → Held (R.state n) r) ∧
      ¬ ((R.state n).actor = .receiving ∧ (R.state n).commands = [] ∧
        ∃ sender r, .abandon sender r ∈ (R.state n).controls ∧
          (R.state n).callers sender ≠ .waking) := by
  refine ⟨(R.safe n).covered hrunning, ?_⟩
  rintro ⟨hreceiving, hempty, sender, r, hcontrol, hfinished⟩
  exact hfinished ((R.safe n).awake hreceiving hempty sender r hcontrol)

end Run

/-! ### A reply that comes back to a store that fails -/

namespace Sample

def key : OperationKey := ⟨1, 2⟩

def limits : Limits where
  capacity := 4
  perOwner := 4
  ttlMs := 1000
  uploadTtlMs := 1000
  uploadCapacity := 4
  uploadPerOwner := 4
  purgeCapacity := 4
  purgePerOwner := 4

/-- The caller is dropped between the reservation and its reply, and the cancellation fails. -/
def events : List Event :=
  [.start 0 key 3, .retryDeferred false 10, .control false 10, .command false 10 7, .cancel 0,
    .reply true 10]

def returned : Run where
  limits := limits
  commandQueueCapacity := 1
  capacity_pos := Nat.one_pos
  stored := .empty
  recoveryNow := 0
  db := .empty
  recovered := rfl
  schedule n := events.getD n (.wake 0)

def reservation : Reservation := ⟨key, 7⟩

lemma returned_reserved : (returned.state 6).db.Reserved reservation :=
  ⟨.reserve 10 7 key 3, by decide +kernel, rfl, rfl⟩

end Sample

theorem Run.reservations_held_returned : (Sample.returned.state 6).actor ≠ .stopped ∧
      (Sample.returned.state 6).db.Reserved Sample.reservation ∧
      Held (Sample.returned.state 6) Sample.reservation := by
  have hrunning : (Sample.returned.state 6).actor ≠ .stopped := by
    rw [ne_eq, ← isStopped_iff]
    decide +kernel
  exact ⟨hrunning, Sample.returned_reserved,
    (Run.reservations_held Sample.returned 6 hrunning).1 _ Sample.returned_reserved⟩

end Actor

end DufsRam
