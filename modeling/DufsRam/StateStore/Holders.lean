import DufsRam.StateStore.Actor

/-!
# Who holds a reservation

Every reserved row has a holder: an envelope that is armed, on its way or in the reply channel of
its caller, a guard that is not completed, or a cancellation on the control channel or in the queue
of those the thread has put off. Here are the holders, what the store commands do to the reserved
rows, and the steps of the callers; each of them passes on what it lets go.
-/

namespace DufsRam

open Relational Actor Database Table Function List Caller

/-! ### What the commands do to the reserved rows -/

variable {key : OperationKey} {changed : Bool} {fp : Fingerprint} {outcome : StoredOutcome}
  {envelope : BeginEnvelope} {r : Reservation} {s s' : State} {callers : ℕ → Caller}

namespace Database

/-- A row is reserved under this key and lease. -/
def Reserved (db : Database) (r : Reservation) : Prop :=
  ∃ row, db.operation r.key = some row ∧ row.leaseToken = r.lease ∧ row.state = .reserved

variable {db db' : Database} {r' : Reservation} {now : TimeMs} {limits : Limits}

lemma not_reserved_of_recovered {operationTtlMs uploadTtlMs : TimeMs}
    (h : recoverDatabase operationTtlMs uploadTtlMs now db = .ok db') : ¬ db'.Reserved r := by
  rintro ⟨row, hrow, -, hst⟩
  obtain ⟨_, _, -, -, hops, -⟩ := recoverDatabase_eq_ok_iff.1 h
  rw [operation, lookup_recoverOperations hops, Option.bind_eq_some_iff] at hrow
  obtain ⟨old, -, hold⟩ := hrow
  unfold OperationRow.recover at hold
  cases hcase : old.state with
  | reserved => simp [hcase] at hold
  | commitStarted =>
    simp only [hcase, Option.some.injEq] at hold
    subst hold
    cases hst
  | completed =>
    simp only [hcase] at hold
    split_ifs at hold
    cases hold
    unfold assign at hst
    split_ifs at hst
    · cases hcase.symm.trans hst
    · cases hcase.symm.trans hst

/-- A purge removes finished rows only. -/
lemma Reserved.of_purgeExpired (hdb : db'.operations = purgeExpired now db.operations)
    (h : db'.Reserved r) : db.Reserved r := by
  obtain ⟨row, hrow, hls, hst⟩ := h
  rw [operation, hdb, lookup_purgeExpired, Option.filter_eq_some_iff] at hrow
  exact ⟨row, hrow.1, hls, hst⟩

lemma Reserved.of_begin {lease : Uuid} {begin : StoreBegin}
    (h : beginOperation limits now lease key fp db = .ok (begin, db')) (hr : db'.Reserved r) :
    db.Reserved r ∨ begin = .started r.lease ∧ r.key = key := by
  rcases beginOperation_cases h with ⟨-, hprg⟩ | ⟨hbegin, -, hins⟩
  · exact .inl (.of_purgeExpired hprg hr)
  · obtain ⟨row, hrow, hls, hst⟩ := hr
    rw [operation, lookup_insert hins] at hrow
    split_ifs at hrow with hkey
    · cases hrow
      exact .inr ⟨by rw [hbegin, ← hls]; rfl, hkey.symm⟩
    · have hpur : { db with operations := purgeExpired now db.operations }.Reserved r :=
        ⟨row, hrow, hls, hst⟩
      exact .inl (.of_purgeExpired rfl hpur)

/-- An update that keeps the lease and reserves nothing leaves only rows that were reserved, and
none that it selected. -/
lemma Reserved.of_assign {p : OperationRow → Bool} {f : OperationRow → OperationRow}
    (hf : ∀ row, (f row).state ≠ .reserved)
    (hdb : ∀ k, db'.operations.lookup k = (db.operations.lookup k).map (assign p f))
    (h : db'.Reserved r) :
    db.Reserved r ∧ ∀ row, db.operation r.key = some row → p row = false := by
  obtain ⟨row, hrow, hls, hst⟩ := h
  rw [operation, hdb, Option.map_eq_some_iff] at hrow
  obtain ⟨old, hold, rfl⟩ := hrow
  unfold assign at hls hst
  split_ifs at hls hst with hp
  · exact absurd hst (hf old)
  · refine ⟨⟨old, hold, hls, hst⟩, fun row hrow => ?_⟩
    cases hold.symm.trans hrow
    simpa using hp

lemma Reserved.of_mark (h : markOperationCommitStarted now r'.key r'.lease db = .ok (changed, db'))
    (hr : db'.Reserved r) : db.Reserved r ∧ r ≠ r' := by
  obtain ⟨hold, hnot⟩ := Reserved.of_assign (fun row hrow => by cases hrow)
    (lookup_markOperationCommitStarted h) hr
  refine ⟨hold, ?_⟩
  rintro rfl
  obtain ⟨row, hrow, hls, hst⟩ := hold
  have hsel := hnot row hrow
  rw [leasedIn_iff.2 ⟨key_of_lookup hrow, hls, by simp [hst]⟩] at hsel
  cases hsel

lemma Reserved.of_complete
    (h : completeOperation limits now r'.key r'.lease outcome db = .ok (changed, db'))
    (hr : db'.Reserved r) : db.Reserved r ∧ r ≠ r' := by
  obtain ⟨expiresAt, -, hdb⟩ := lookup_completeOperation h
  obtain ⟨hold, hnot⟩ := Reserved.of_assign (fun row hrow => by cases hrow) hdb hr
  refine ⟨hold, ?_⟩
  rintro rfl
  obtain ⟨row, hrow, hls, hst⟩ := hold
  have hsel := hnot row hrow
  rw [leasedIn_iff.2 ⟨key_of_lookup hrow, hls, by simp [hst]⟩] at hsel
  cases hsel

lemma Reserved.of_abandon (h : abandonOperation limits now r'.key r'.lease db = .ok ((), db'))
    (hr : db'.Reserved r) : db.Reserved r ∧ r ≠ r' := by
  obtain ⟨expiresAt, -, hdb⟩ := lookup_abandonOperation h
  obtain ⟨row, hrow, hls, hst⟩ := hr
  rw [operation, hdb, Option.map_eq_some_iff] at hrow
  obtain ⟨old, hfilt, rfl⟩ := hrow
  obtain ⟨hold, hnot⟩ := Option.filter_eq_some_iff.1 hfilt
  unfold assign at hls hst
  split_ifs at hls hst
  · cases hst
  · refine ⟨⟨old, hold, hls, hst⟩, ?_⟩
    rintro rfl
    rw [leasedIn_iff.2 ⟨key_of_lookup hold, hls, by simp [hst]⟩] at hnot
    cases hnot

/-- Commands that do not concern a reservation reserve nothing. -/
lemma Reserved.of_other {command : OtherCommand}
    (h : (StoreEvent.exec limits ⟨now, command.command⟩ db).2.Reserved r) : db.Reserved r := by
  cases command with
  | status key =>
    change (OperationEvent.exec limits ⟨now, .status key⟩ db).2.Reserved r at h
    unfold OperationEvent.exec at h
    cases hstat : operationStatus now key db with
    | error message => simpa [hstat, settle] using h
    | ok result =>
      simp only [hstat, settle] at h
      exact .of_purgeExpired (operationStatus_operations hstat).2 h
  | upload command =>
    change (answer db (command.exec limits now db)).2.Reserved r at h
    rwa [Database.Reserved, operation,
      answer_operations fun _ hres => (UploadCommand.exec_frame hres).1] at h
  | purge command =>
    change (answer db (command.exec limits now db)).2.Reserved r at h
    rwa [Database.Reserved, operation,
      answer_operations fun _ hres => (PurgeCommand.exec_frame hres).1] at h

end Database

namespace Actor

/-! ### Holders -/

/-- What a caller holds: an armed envelope in its reply channel, or a guard. A guard whose
completion the store has accepted holds nothing any more. -/
def Caller.armed : Caller → Option Reservation
  | beginning _ (some (.ok envelope)) => envelope.armed
  | guarding _ (some (.complete, some (.ok true))) => none
  | guarding guard _ => some guard
  | _ => none

/-- The envelope that the thread is about to send. -/
def Phase.armed : Phase → Option Reservation
  | replying _ _ (.ok envelope) => envelope.armed
  | _ => none

/-- A cancellation of the reservation is under way, or somebody is armed to send it. -/
inductive Held (s : State) (r : Reservation) : Prop
  | control (sender : ℕ) (h : .abandon sender r ∈ s.controls)
  | deferred (h : r ∈ s.deferredAbandons)
  | envelope (h : s.actor.armed = some r)
  | caller (c : ℕ) (h : (s.callers c).armed = some r)

/-- Every reserved row is held. -/
def Covered (s : State) : Prop := ∀ r, s.db.Reserved r → Held s r

/-- What is held stays held when the callers stay and nothing is taken from the other holders. -/
lemma Held.mono (h : Held s r) (hcals : s'.callers = s.callers)
    (hctl : ∀ sender, .abandon sender r ∈ s.controls → .abandon sender r ∈ s'.controls)
    (hdef : r ∈ s.deferredAbandons → r ∈ s'.deferredAbandons)
    (henv : s.actor.armed = some r → s'.actor.armed = some r) : Held s' r := by
  cases h with
  | control sender h => exact .control sender (hctl sender h)
  | deferred h => exact .deferred (hdef h)
  | envelope h => exact .envelope (henv h)
  | caller c h => exact .caller c (hcals ▸ h)

/-! ### Commands and envelopes match their callers -/

def Caller.FitsBegin (key : OperationKey) : Caller → Prop
  | idle => False
  | beginning key' _ => key' = key
  | _ => True

def Caller.FitsGuard (r : Reservation) : Caller → Prop
  | idle | beginning _ _ => False
  | guarding guard _ => guard = r
  | _ => True

/-- The command is one that its caller may have sent. -/
def Command.Fits (callers : ℕ → Caller) : Command → Prop
  | begin c key _ => (callers c).FitsBegin key
  | markCommitStarted c r | complete c r _ => (callers c).FitsGuard r
  | wake | other _ => True

def BeginEnvelope.Genuine (key : OperationKey) (envelope : BeginEnvelope) : Prop :=
  envelope = new envelope.begin key

def Caller.Genuine : Caller → Prop
  | beginning key (some (.ok envelope)) => envelope.Genuine key
  | _ => True

/-- The reply that the thread is about to send matches its caller. -/
def Phase.Fits (callers : ℕ → Caller) : Phase → Prop
  | replying c key result =>
    (callers c).FitsBegin key ∧ ∀ envelope, result = .ok envelope → envelope.Genuine key
  | _ => True

/-- A caller moves on without taking back what it has sent. -/
structure Caller.Advance (old new : Caller) : Prop where
  fitsBegin : ∀ key, old.FitsBegin key → new.FitsBegin key
  fitsGuard : ∀ r, old.FitsGuard r → new.FitsGuard r
  genuine : old.Genuine → new.Genuine

lemma Caller.Advance.finished (old : Caller) : old.Advance .finished :=
  ⟨fun _ _ => trivial, fun _ _ => trivial, fun _ => trivial⟩

lemma Caller.Advance.waking (old : Caller) : old.Advance .waking :=
  ⟨fun _ _ => trivial, fun _ _ => trivial, fun _ => trivial⟩

/-- A guard keeps its reservation from one call to the next. -/
lemma Caller.Advance.guarding (guard : Reservation)
    (call call' : Option (Call × Option (Result Bool))) :
    (guarding guard call).Advance (.guarding guard call') :=
  ⟨fun _ _ => trivial, fun _ h => h, fun _ => trivial⟩

/-- The thread does not wait for a command while the control channel holds a cancellation whose
sender is through with its `Wake`. -/
def Awake (s : State) : Prop :=
  s.actor = .receiving → s.commands = [] →
    ∀ sender r, .abandon sender r ∈ s.controls → s.callers sender = .waking

structure Safe (s : State) : Prop where
  commands : ∀ command ∈ s.commands, command.Fits s.callers
  phase : s.actor.Fits s.callers
  callers : ∀ c, (s.callers c).Genuine
  covered : s.actor ≠ .stopped → Covered s
  awake : Awake s

lemma BeginEnvelope.genuine_new (begin : StoreBegin) (key : OperationKey) :
    (new begin key).Genuine key := rfl

/-- A genuine envelope is armed for the reservation it brings, and for nothing else. -/
lemma BeginEnvelope.Genuine.armed_iff (h : envelope.Genuine key) :
    envelope.armed = some r ↔ envelope.begin = .started r.lease ∧ r.key = key := by
  rw [h]
  cases envelope.begin with
  | started lease =>
    constructor
    · rintro ⟨⟩
      exact ⟨rfl, rfl⟩
    · rintro ⟨⟨⟩, rfl⟩
      rfl
  | _ => simp [armed, new]

variable {guard : Reservation} {command : Command} {cfg : Config} {c : ℕ}

lemma Caller.armed_guarding {call : Option (Call × Option (Result Bool))}
    (h : (guarding guard call).armed = some r) : r = guard := by
  unfold armed at h
  split at h <;> simp_all

lemma isStopped_iff : s.isStopped = true ↔ s.actor = .stopped := by
  unfold State.isStopped
  cases s.actor <;> simp

/-! ### The parts of a step -/

section Parts

variable {c' : Caller}

lemma Held.set (h : Held s r) (harmed : (s.callers c).armed = some r → c'.armed = some r) :
    Held (s.set c c') r := by
  cases h with
  | control sender h => exact .control sender h
  | deferred h => exact .deferred h
  | envelope h => exact .envelope h
  | caller d h =>
    refine .caller d ?_
    by_cases hd : d = c
    · subst hd
      simpa [State.set] using harmed h
    · simpa [State.set, hd] using h

lemma fits_update (hadv : (callers c).Advance c')
    (h : command.Fits callers) : command.Fits (update callers c c') := by
  have key : ∀ d, (∀ k, (callers d).FitsBegin k → (update callers c c' d).FitsBegin k) ∧
      ∀ g, (callers d).FitsGuard g → (update callers c c' d).FitsGuard g := by
    intro d
    by_cases hd : d = c
    · subst hd
      simpa using ⟨hadv.fitsBegin, hadv.fitsGuard⟩
    · simp [hd]
  cases command with
  | begin d k fp => exact (key d).1 k h
  | markCommitStarted d g | complete d g => exact (key d).2 g h
  | wake | other => trivial

lemma phase_fits_update (hadv : (callers c).Advance c') {phase : Phase}
    (h : phase.Fits callers) : phase.Fits (update callers c c') := by
  cases phase with
  | replying d k result =>
    refine ⟨?_, h.2⟩
    have hbegin : (Command.begin d k default).Fits (update callers c c') :=
      fits_update hadv h.1
    exact hbegin
  | _ => trivial

/-- A caller moves on, and a reservation that it held it still holds. -/
lemma Safe.set (h : Safe s) (hadv : (s.callers c).Advance c')
    (harmed : s.actor ≠ .stopped → ∀ r, s.db.Reserved r → (s.callers c).armed = some r →
      c'.armed = some r) (hawake : s.actor = .receiving → s.callers c = .waking → s.commands ≠ []) :
    Safe (s.set c c') where
  commands command hcmd := fits_update hadv (h.commands command hcmd)
  phase := phase_fits_update hadv h.phase
  callers d := by
    by_cases hd : d = c
    · subst hd
      simpa [State.set] using hadv.genuine (h.callers d)
    · simpa [State.set, hd] using h.callers d
  covered hrun r hr := (h.covered hrun r hr).set (harmed hrun r hr)
  awake hrcv hemp sender r hr := by
    have hwak := h.awake hrcv hemp sender r hr
    by_cases hsdr : sender = c
    · subst hsdr
      exact absurd hemp (hawake hrcv hwak)
    · simpa [State.set, hsdr] using hwak

/-- A message joins the queue of commands. -/
lemma Safe.push (h : Safe s) (hfits : command.Fits s.callers) :
    Safe { s with commands := s.commands ++ [command] } where
  commands d hd := by
    rcases mem_append.1 hd with hd | hd
    · exact h.commands d hd
    · rwa [mem_singleton.1 hd]
  phase := h.phase
  callers := h.callers
  covered hrun r hr := (h.covered hrun r hr).mono rfl (fun _ h => h) id id
  awake _ hemp := by simp at hemp

lemma State.trySend_eq_some (h : s.trySend cfg command = some s') :
    s' = { s with commands := s.commands ++ [command] } := by
  unfold State.trySend at h
  split_ifs at h
  exact (Option.some.inj h).symm

lemma State.send_eq_some (h : s.send cfg command = some s') :
    s' = { s with commands := s.commands ++ [command] } := by
  unfold State.send at h
  split_ifs at h
  exact trySend_eq_some h

/-- A caller hands what it holds over to the control channel. -/
lemma Safe.sendControl (h : Safe s) (hcal : s.callers c ≠ .waking)
    (harmed : ∀ r', (s.callers c).armed = some r' → r' = r) : Safe (s.sendControl c r) := by
  unfold State.sendControl
  split_ifs with hstop
  · exact h.set (.finished _) (fun hrun => absurd (isStopped_iff.1 hstop) hrun)
      fun _ hwak => absurd hwak hcal
  · have hset : ∀ d, d ≠ c → (s.set c .waking).callers d = s.callers d := by
      intro d hd
      simp [State.set, hd]
    exact
      { commands := fun command hcmd => fits_update (.waking _) (h.commands command hcmd)
        phase := phase_fits_update (.waking _) h.phase
        callers := fun d => by
          by_cases hd : d = c
          · subst hd
            simp [State.set, Caller.Genuine]
          · simpa [State.set, hd] using h.callers d
        covered := fun hrun r₀ hr₀ => by
          cases h.covered hrun r₀ hr₀ with
          | control sender h => exact .control sender (mem_append_left _ h)
          | deferred h => exact .deferred h
          | envelope h => exact .envelope h
          | caller d hd =>
            by_cases hdc : d = c
            · subst hdc
              rw [harmed r₀ hd]
              exact .control d (mem_append_right _ (mem_singleton_self _))
            · exact .caller d (by rw [← hset d hdc] at hd; exact hd)
        awake := fun hrcv hemp sender r₀ hr₀ => by
          by_cases hsdr : sender = c
          · subst hsdr
            simp [State.set]
          · rcases mem_append.1 hr₀ with hr₀ | hr₀
            · exact (hset sender hsdr).trans (h.awake hrcv hemp sender r₀ hr₀)
            · cases mem_singleton.1 hr₀
              exact absurd rfl hsdr }

lemma Safe.sendWake (h : Safe s) : Safe (s.sendWake cfg) := by
  unfold State.sendWake
  cases hsend : s.trySend cfg .wake with
  | none => exact h
  | some s' =>
    rw [Option.getD_some, State.trySend_eq_some hsend]
    exact h.push trivial

/-- After the attempt the queue is not empty, be it that the `Wake` did not fit. -/
lemma State.sendWake_commands (h : s.actor ≠ .stopped) : (s.sendWake cfg).commands ≠ [] := by
  unfold State.sendWake State.trySend
  split_ifs with hsend
  · rcases hsend with hstop | hfull
    · exact absurd (isStopped_iff.1 hstop) h
    · have hpos := cfg.capacity_pos
      rw [Option.getD_none]
      exact ne_nil_of_length_pos (by omega)
  · simp

@[simp] lemma State.sendWake_actor : (s.sendWake cfg).actor = s.actor := by
  unfold State.sendWake State.trySend
  split_ifs <;> rfl

@[simp] lemma State.sendWake_callers : (s.sendWake cfg).callers = s.callers := by
  unfold State.sendWake State.trySend
  split_ifs <;> rfl

end Parts

/-! ### The steps of the callers -/

section Callers

section

variable (h : Safe s)

include h

/-- A caller that holds nothing is done. -/
lemma Safe.finish (hwak : s.callers c ≠ .waking)
    (hnone : (s.callers c).armed = none) : Safe (s.set c .finished) := by
  refine h.set (.finished _) (fun _ r _ hr => ?_) fun _ hc => absurd hc hwak
  cases hnone.symm.trans hr

/-- A guard is dropped before it is completed. -/
lemma Safe.dropGuard {call : Option (Call × Option (Result Bool))}
    (hcal : s.callers c = .guarding guard call) : Safe (s.sendControl c guard) := by
  refine h.sendControl (by simp [hcal]) fun r hr => ?_
  rw [hcal] at hr
  exact armed_guarding hr

lemma Safe.start (hstep : s.start cfg c key fp = some s') : Safe s' := by
  unfold State.start at hstep
  split at hstep
  case h_2 => cases hstep
  case h_1 hidle =>
    have hset : ∀ c' : Caller, c'.Genuine → Safe (s.set c c') := by
      intro c' hc'
      refine h.set ⟨fun _ hfits => ?_, fun _ hfits => ?_, fun _ => hc'⟩ (fun _ r _ hr => ?_)
        fun _ hwak => ?_
      · rw [hidle] at hfits; exact hfits.elim
      · rw [hidle] at hfits; exact hfits.elim
      · rw [hidle] at hr; cases hr
      · rw [hidle] at hwak; cases hwak
    cases hsend : s.send cfg (.begin c key fp) with
    | none =>
      simp only [hsend] at hstep
      cases hstep
      exact hset _ trivial
    | some s₁ =>
      simp only [hsend] at hstep
      cases hstep
      rw [State.send_eq_some hsend]
      refine (hset (.beginning key none) trivial).push ?_
      simp [Command.Fits, State.set, Caller.FitsBegin]

/-- The caller disarms the envelope and holds the reservation itself. -/
lemma Safe.accept (hcal : s.callers c = .beginning key (some (.ok envelope))) :
    Safe (s.accept c key envelope.disarm) := by
  have hgen : envelope.Genuine key := by simpa [hcal, Caller.Genuine] using h.callers c
  have hwak : s.callers c ≠ .waking := by simp [hcal]
  unfold State.accept BeginEnvelope.disarm
  split
  case h_1 lease hbegin =>
    have hadv : (s.callers c).Advance (.guarding ⟨key, lease⟩ none) := by
      rw [hcal]
      exact ⟨fun _ _ => trivial, fun _ hfits => hfits.elim, fun _ => trivial⟩
    refine h.set hadv (fun _ r _ hr => ?_) fun _ hc => absurd hc hwak
    rw [hcal] at hr
    obtain ⟨hsta, rfl⟩ := hgen.armed_iff.1 hr
    cases hbegin.symm.trans hsta
    rfl
  case h_2 hoth =>
    refine h.finish hwak ?_
    rw [hcal]
    exact Option.eq_none_iff_forall_ne_some.2 fun r hr =>
      hoth r.lease (hgen.armed_iff.1 hr).1

lemma Safe.receive (hstep : s.receive c = some s') : Safe s' := by
  unfold State.receive at hstep
  cases hcal : s.callers c with
  | idle | waking | finished => simp [hcal] at hstep
  | beginning key reply =>
    have hwak : s.callers c ≠ .waking := by simp [hcal]
    rcases reply with _ | message | envelope
    · simp only [hcal] at hstep
      split_ifs at hstep with hstop
      cases hstep
      -- the thread has returned, and with it the sender of the reply
      have hfnd : Safe (s.set c .finished) :=
        h.set (.finished _) (fun hrun => absurd (isStopped_iff.1 hstop) hrun)
          fun _ hc => absurd hc hwak
      exact ⟨hfnd.commands, hfnd.phase, hfnd.callers,
        fun hrun => absurd (isStopped_iff.1 hstop) hrun, hfnd.awake⟩
    · simp only [hcal] at hstep
      cases hstep
      exact h.finish hwak (by rw [hcal]; rfl)
    · simp only [hcal] at hstep
      cases hstep
      exact h.accept hcal
  | guarding guard call =>
    have hwak : s.callers c ≠ .waking := by simp [hcal]
    have hkeep : Safe (s.set c (.guarding guard none)) := by
      refine h.set ?_ (fun _ r _ hr => ?_) fun _ hc => absurd hc hwak
      · rw [hcal]
        exact .guarding guard call none
      · rw [hcal] at hr
        rw [armed_guarding hr]
        rfl
    rcases call with _ | ⟨call, reply⟩
    · simp [hcal] at hstep
    · simp only [hcal] at hstep
      rcases call with _ | _ <;> rcases reply with _ | message | _ | _ <;> simp only at hstep
      case markCommitStarted.none =>
        split_ifs at hstep
        cases hstep
        exact hkeep
      case complete.none =>
        split_ifs at hstep
        cases hstep
        exact h.dropGuard hcal
      case complete.some.ok.true =>
        cases hstep
        exact h.finish hwak (by rw [hcal]; rfl)
      all_goals
        cases hstep
        first
          | exact hkeep
          | exact h.dropGuard hcal

lemma Safe.cancel (hstep : s.cancel c = some s') : Safe s' := by
  unfold State.cancel at hstep
  cases hcal : s.callers c with
  | idle | waking | finished => simp [hcal] at hstep
  | beginning key reply =>
    have hwak : s.callers c ≠ .waking := by simp [hcal]
    rcases reply with _ | message | envelope
    · simp only [hcal] at hstep
      cases hstep
      exact h.finish hwak (by rw [hcal]; rfl)
    · simp only [hcal] at hstep
      cases hstep
      exact h.finish hwak (by rw [hcal]; rfl)
    · simp only [hcal] at hstep
      have harmed : (s.callers c).armed = envelope.armed := by rw [hcal]; rfl
      cases henv : envelope.armed with
      | none =>
        simp only [henv] at hstep
        cases hstep
        exact h.finish hwak (harmed.trans henv)
      | some r =>
        simp only [henv] at hstep
        cases hstep
        refine h.sendControl hwak fun r' hr' => ?_
        rw [harmed, henv] at hr'
        exact (Option.some.inj hr').symm
  | guarding guard call =>
    simp only [hcal] at hstep
    cases hstep
    exact h.dropGuard hcal

/-- A guard sends a command and waits for its reply. -/
lemma Safe.call {call : Call} (hcal : s.callers c = .guarding guard none)
    (hfits : ∀ callers, (callers c).FitsGuard guard → command.Fits callers)
    (hsend : s.send cfg command = some s') :
    Safe (s'.set c (.guarding guard (some (call, none)))) := by
  rw [State.send_eq_some hsend]
  have hset : Safe (s.set c (.guarding guard (some (call, none)))) := by
    refine h.set ?_ (fun _ r _ hr => ?_) fun _ hc => by simp [hcal] at hc
    · rw [hcal]
      exact .guarding guard none _
    · rw [hcal] at hr
      rw [armed_guarding hr]
      cases call <;> rfl
  refine hset.push (hfits _ ?_)
  simp [State.set, Caller.FitsGuard]

lemma Safe.mark (hstep : s.mark cfg c = some s') : Safe s' := by
  unfold State.mark at hstep
  split at hstep
  case h_2 => cases hstep
  case h_1 guard hcal =>
    obtain ⟨s₁, hsend, rfl⟩ := Option.map_eq_some_iff.1 hstep
    refine h.call hcal ?_ hsend
    exact fun _ hfits => hfits

lemma Safe.complete (hstep : s.complete cfg c outcome = some s') : Safe s' := by
  unfold State.complete at hstep
  split at hstep
  case h_2 => cases hstep
  case h_1 guard hcal =>
    split at hstep
    case h_1 s₁ _ hsend =>
      cases hstep
      refine h.call hcal ?_ hsend
      exact fun _ hfits => hfits
    case h_2 =>
      cases hstep
      exact h.dropGuard hcal

lemma Safe.wake (hstep : s.wake cfg c = some s') : Safe s' := by
  unfold State.wake at hstep
  split at hstep
  case h_2 => cases hstep
  case h_1 hwak =>
    cases hstep
    refine h.sendWake.set (.finished _) (fun _ r _ hr => ?_) fun hrcv _ => ?_
    · rw [State.sendWake_callers, hwak] at hr
      cases hr
    · rw [State.sendWake_actor] at hrcv
      exact State.sendWake_commands (by simp [hrcv])

end

end Callers

/-- What does not touch the reservations, the senders or the queues keeps the state safe. -/
lemma Safe.frame (h : Safe s) (hdb : s'.db = s.db) (hcmds : s'.commands = s.commands)
    (hact : s'.actor = s.actor) (hdef : s'.deferredAbandons = s.deferredAbandons)
    (hcals : s'.callers = s.callers) (hctl : ∀ sender r,
      .abandon sender r ∈ s'.controls ↔ .abandon sender r ∈ s.controls) : Safe s' where
  commands := by
    rw [hcmds, hcals]
    exact h.commands
  phase := by
    rw [hact, hcals]
    exact h.phase
  callers := by
    rw [hcals]
    exact h.callers
  covered hrun r hr := by
    rw [hact] at hrun
    rw [hdb] at hr
    exact (h.covered hrun r hr).mono hcals (fun sender => (hctl sender r).2)
      (fun h => hdef ▸ h) fun h => hact ▸ h
  awake hrcv hemp sender r hr := by
    rw [hcals]
    exact h.awake (hact ▸ hrcv) (hcmds ▸ hemp) sender r ((hctl sender r).1 hr)

lemma Safe.close (h : Safe s) (hstep : s.close = some s') : Safe s' := by
  unfold State.close at hstep
  split at hstep
  case h_2 => cases hstep
  case h_1 =>
    cases hstep
    refine h.frame rfl rfl rfl rfl rfl fun sender r => ?_
    split_ifs <;> simp

lemma Safe.closeWake {cfg : Config} (h : Safe s) (hstep : s.closeWake cfg = some s') : Safe s' := by
  unfold State.closeWake at hstep
  split at hstep
  case h_2 => cases hstep
  case h_1 =>
    cases hstep
    exact h.sendWake.frame rfl rfl rfl rfl rfl fun _ _ => Iff.rfl

end Actor

end DufsRam
