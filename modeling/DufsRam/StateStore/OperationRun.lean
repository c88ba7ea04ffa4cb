import Mathlib.Order.Monotone.Basic
import DufsRam.StateStore.OperationRow

/-!
# Runs of the operation protocol

A run is any sequence of commands and restarts, from an empty database, in which no two
reservations draw the same lease token. The row of a key is followed through the run by the lease
it was reserved under: it only moves forward, from reserved over commit started to completed, until
it is removed, and its lease never comes back.
-/

namespace DufsRam

open OperationState OperationEvent Database OperationRow

/-- The order in which an operation passes through its states. -/
def OperationState.rank : OperationState → Nat
  | .reserved => 0
  | .commitStarted => 1
  | .completed => 2

lemma OperationState.rank_completed_le {s : OperationState} (h : completed.rank ≤ s.rank) :
    s = .completed := by
  cases s <;> simp_all [rank]

/-- The event removes the row `r` of the key `k`: an abandon with the lease of a reservation, the
recovery of a reservation, or a purge after the expiry of a finished operation. -/
def OperationEvent.Removes (e : OperationEvent) (k : OperationKey) (r : OperationRow) : Prop :=
  (e.command = .abandon k r.leaseToken ∧ r.state = .reserved) ∨
  (e.command = .restart ∧ r.state = .reserved) ∨
  (e.command.purges = true ∧ r.state = .completed ∧
    ∃ expiresAt, r.expiresAtMs = some expiresAt ∧ expiresAt ≤ e.now)

/-- The columns of the row hold the outcome. -/
def OperationRow.HasOutcome (r : OperationRow) (o : StoredOutcome) : Prop :=
  r.terminalState = some o.state ∧ r.httpStatus = some (o.status.toNat : Int) ∧ r.errorCode = o.code

variable {o o' : StoredOutcome} {l : Uuid} {r : OperationRow} {i j m : ℕ}

lemma OperationRow.HasOutcome.intoOutcome (h : r.HasOutcome o)
    (ho' : r.intoOutcome = .ok o') : o' = o :=
  intoOutcome_eq h.1 h.2.1 h.2.2 ho'

/-- The event finishes the row `r` with the outcome `o`: a completion that was accepted, or an
abandon or a recovery after the commit started, whose outcome is not known. -/
def OperationEvent.Finishes (e : OperationEvent) (reply : OperationReply) (k : OperationKey)
    (r : OperationRow) (o : StoredOutcome) : Prop :=
  (e.command = .complete k r.leaseToken o ∧ reply = .changed true) ∨
  (e.command = .abandon k r.leaseToken ∧ reply = .done ∧ r.state = .commitStarted ∧
    o = .uncertain) ∨
  (e.command = .restart ∧ reply = .done ∧ r.state = .commitStarted ∧ o = .uncertain)

/-! ### One step -/

namespace OperationStep

variable {e : OperationEvent} {reply : OperationReply} {k : OperationKey}
  {row row' : Option OperationRow} {r' : OperationRow}

/-- A row either survives a step under its lease, moving forward, or is removed; a row found after
the removal is a new reservation. -/
lemma forward_or_removed (h : OperationStep e reply k (some r) row) :
    (∃ r', row = some r' ∧ r'.leaseToken = r.leaseToken ∧ r.state.rank ≤ r'.state.rank) ∨
      (e.Removes k r ∧ ∀ r' ∈ row, e.Starts reply k r'.leaseToken) := by
  cases h with
  | kept => exact .inl ⟨r, rfl, rfl, Nat.le_refl _⟩
  | started hstart hcmd hrow =>
    have hprg : e.command.purges = true := by rw [hcmd]; rfl
    refine .inr ⟨.inr (.inr ⟨hprg, expired_iff.1 (hrow r rfl)⟩), ?_⟩
    rintro r' hr'
    cases hr'
    exact hstart
  | expired _ hprg hexp =>
    exact .inr ⟨.inr (.inr ⟨hprg, expired_iff.1 hexp⟩), by simp⟩
  | marked _ _ hst => exact .inl ⟨_, rfl, rfl, by simp [hst, rank]⟩
  | completed =>
    refine .inl ⟨_, rfl, rfl, ?_⟩
    cases r.state <;> simp [complete, rank]
  | abandonedReserved hcmd hst => exact .inr ⟨.inl ⟨hcmd, hst⟩, by simp⟩
  | abandonedCommitStarted _ _ hst | recoveredCommitStarted _ _ hst =>
    exact .inl ⟨_, rfl, rfl, by simp [hst, complete, rank]⟩
  | recoveredReserved hcmd hst => exact .inr ⟨.inr (.inl ⟨hcmd, hst⟩), by simp⟩
  | clamped _ hst => exact .inl ⟨_, rfl, rfl, Nat.le_refl _⟩

/-- A step brings in a lease only by starting the operation. -/
lemma lease (h : OperationStep e reply k row (some r')) :
    (∃ r, row = some r ∧ r.leaseToken = r'.leaseToken) ∨ e.Starts reply k r'.leaseToken := by
  cases h with
  | kept => exact .inl ⟨r', rfl, rfl⟩
  | started hst => exact .inr hst
  | marked | completed | abandonedCommitStarted | recoveredCommitStarted
  | clamped => exact .inl ⟨_, rfl, rfl⟩

/-- A completed row was completed before the step with the same outcome, or the step finished it. -/
lemma completed_or_finishes (h : OperationStep e reply k row (some r'))
    (hst : r'.state = .completed) : ∃ r, row = some r ∧ r.leaseToken = r'.leaseToken ∧
      ((r.state = .completed ∧ ∀ o, r.HasOutcome o → r'.HasOutcome o) ∨
        (r.state ≠ .completed ∧ ∃ o, e.Finishes reply k r o ∧ r'.HasOutcome o)) := by
  cases h with
  | kept => exact ⟨r', rfl, rfl, .inl ⟨hst, fun _ ho => ho⟩⟩
  | started | marked => cases hst
  | completed hcmd hrep hpend =>
    exact ⟨_, rfl, rfl, .inr ⟨hpend, _, .inl ⟨hcmd, hrep⟩, rfl, rfl, rfl⟩⟩
  | abandonedCommitStarted hcmd hrep hsta =>
    exact ⟨_, rfl, rfl, .inr ⟨by simp [hsta], _,
      .inr (.inl ⟨hcmd, hrep, hsta, rfl⟩), rfl, rfl, rfl⟩⟩
  | recoveredCommitStarted hcmd hrep hsta =>
    exact ⟨_, rfl, rfl, .inr ⟨by simp [hsta], _,
      .inr (.inr ⟨hcmd, hrep, hsta, rfl⟩), rfl, rfl, rfl⟩⟩
  | clamped _ hcmpl => exact ⟨_, rfl, rfl, .inl ⟨hcmpl, fun _ ho => ho⟩⟩

/-- A reservation leaves its own row. -/
lemma starts_row (h : OperationStep e reply k row row') (hst : e.Starts reply k l) :
    ∃ r', row' = some r' ∧ r'.leaseToken = l := by
  obtain ⟨⟨fp, hcmd⟩, hrep⟩ := hst
  cases h with
  | kept hno | expired hno => exact absurd ⟨⟨fp, hcmd⟩, hrep⟩ (hno l)
  | started _ hbegin =>
    cases hcmd.symm.trans hbegin
    exact ⟨_, rfl, rfl⟩
  | marked h | completed h | abandonedReserved h | abandonedCommitStarted h
  | recoveredReserved h | recoveredCommitStarted h | clamped h => rw [hcmd] at h; cases h

end OperationStep

/-! ### Runs -/

/-- The lease token that a command draws. -/
def OperationCommand.drawn : OperationCommand → Option Uuid
  | .begin lease _ _ => some lease
  | _ => none

/-- Any sequence of events whose reservations draw pairwise distinct lease tokens. The times the
events read from the clock are arbitrary. -/
structure OperationRun where
  limits : Limits
  events : ℕ → OperationEvent
  fresh : ∀ {i j l}, (events i).command.drawn = some l → (events j).command.drawn = some l → i = j

namespace OperationRun

/-- The database before the `n`-th event. -/
def db (R : OperationRun) : ℕ → Database
  | 0 => .empty
  | n + 1 => ((R.events n).exec R.limits (R.db n)).2

/-- The reply to the `n`-th event. -/
def reply (R : OperationRun) (n : ℕ) : OperationReply := ((R.events n).exec R.limits (R.db n)).1

/-- The row of a key before the `n`-th event. -/
def row (R : OperationRun) (n : ℕ) (k : OperationKey) : Option OperationRow := (R.db n).operation k

/-- The `n`-th event replies that `k` is reserved under the lease `l`. -/
def StartedAt (R : OperationRun) (n : ℕ) (k : OperationKey) (l : Uuid) : Prop :=
  (R.events n).Starts (R.reply n) k l

/-- The `n`-th event removes the row that `k` has under the lease `l`. -/
def DeletedAt (R : OperationRun) (n : ℕ) (k : OperationKey) (l : Uuid) : Prop :=
  ∃ r, R.row n k = some r ∧ r.leaseToken = l ∧ (R.events n).Removes k r ∧
    ∀ r' ∈ R.row (n + 1) k, r'.leaseToken ≠ l

/-- The `n`-th event finishes the row that `k` has under the lease `l`, storing the outcome `o`. -/
def FinishedAt (R : OperationRun) (n : ℕ) (k : OperationKey) (l : Uuid) (o : StoredOutcome) :
    Prop :=
  ∃ r r', R.row n k = some r ∧ R.row (n + 1) k = some r' ∧ r.leaseToken = l ∧ r'.leaseToken = l ∧
    r.state ≠ .completed ∧ r'.state = .completed ∧ r'.HasOutcome o ∧
    (R.events n).Finishes (R.reply n) k r o

variable (R : OperationRun) {k : OperationKey}

lemma step (n : ℕ) (k : OperationKey) :
    OperationStep (R.events n) (R.reply n) k (R.row n k) (R.row (n + 1) k) :=
  exec_step R.limits (R.events n) (R.db n) k

variable {n : ℕ}

/-- Every lease in the database was drawn by an earlier reservation of its key. -/
lemma lease_started (h : R.row n k = some r) : ∃ i < n, R.StartedAt i k r.leaseToken := by
  induction n generalizing r with
  | zero => simp [row, db, operation, empty] at h
  | succ n ih =>
    have hstep := R.step n k
    rw [h] at hstep
    obtain ⟨r₀, hrow, hls⟩ | hst := hstep.lease
    · obtain ⟨i, hi, hsta⟩ := ih hrow
      exact ⟨i, Nat.lt_succ_of_lt hi, hls ▸ hsta⟩
    · exact ⟨n, Nat.lt_succ_self n, hst⟩

lemma started_unique {k k' : OperationKey} (hi : R.StartedAt i k l)
    (hj : R.StartedAt j k' l) : i = j := by
  obtain ⟨⟨fp, hi⟩, -⟩ := hi
  obtain ⟨⟨fp', hj⟩, -⟩ := hj
  exact R.fresh (by rw [hi]; rfl) (by rw [hj]; rfl)

/-- A lease that was in the database and is not any more never comes back. -/
lemma lease_gone (h : R.row n k = some r) (hnm : n < m)
    (hgone : ∀ r' ∈ R.row (n + 1) k, r'.leaseToken ≠ r.leaseToken) :
    ∀ r' ∈ R.row m k, r'.leaseToken ≠ r.leaseToken := by
  obtain ⟨i, hi, hsta⟩ := R.lease_started h
  induction m, hnm using Nat.le_induction with
  | base => exact hgone
  | succ m hm ih =>
    intro r' hr' hls
    have hstep := R.step m k
    rw [Option.mem_def.1 hr'] at hstep
    obtain ⟨r₀, hrow, hls₀⟩ | hst := hstep.lease
    · exact ih r₀ hrow (hls₀.trans hls)
    · rw [hls] at hst
      have := R.started_unique hsta hst
      omega

/-- A row moves forward under its lease until an event removes it. -/
lemma forward_or_deleted (h : R.row n k = some r) (hnm : n ≤ m) :
    (∃ r', R.row m k = some r' ∧ r'.leaseToken = r.leaseToken ∧ r.state.rank ≤ r'.state.rank) ∨
    ∃ j r', n ≤ j ∧ j < m ∧ R.row j k = some r' ∧ r'.leaseToken = r.leaseToken ∧
      r.state.rank ≤ r'.state.rank ∧ (R.events j).Removes k r' ∧ R.DeletedAt j k r.leaseToken := by
  induction m, hnm using Nat.le_induction with
  | base => exact .inl ⟨r, h, rfl, Nat.le_refl _⟩
  | succ m hnm ih =>
    obtain ⟨r₁, hrow, hls, hrank⟩ | ⟨j, r₁, hj, hjm, hdel⟩ := ih
    · have hstep := R.step m k
      rw [hrow] at hstep
      obtain ⟨r₂, hrow₂, hls₂, hrank₂⟩ | ⟨hrms, hsts⟩ := hstep.forward_or_removed
      · exact .inl ⟨r₂, hrow₂, hls₂.trans hls, hrank.trans hrank₂⟩
      · refine .inr ⟨m, r₁, hnm, Nat.lt_succ_self m, hrow, hls, hrank, hrms,
          r₁, hrow, hls, hrms, ?_⟩
        -- a row found afterwards was reserved by this event, under another lease
        intro r' hr' hls'
        obtain ⟨i, hi, hsta⟩ := R.lease_started hrow
        have hnew : R.StartedAt m k r'.leaseToken := hsts r' hr'
        rw [hls', ← hls] at hnew
        have := R.started_unique hsta hnew
        omega
    · exact .inr ⟨j, r₁, hj, Nat.lt_succ_of_lt hjm, hdel⟩

/-- A completed row was finished by an earlier event, with the outcome it holds. -/
lemma completed_finished (h : R.row n k = some r) (hst : r.state = .completed) :
    ∃ i < n, ∃ o, R.FinishedAt i k r.leaseToken o ∧ r.HasOutcome o := by
  induction n generalizing r with
  | zero => simp [row, db, operation, empty] at h
  | succ n ih =>
    have hstep := R.step n k
    rw [h] at hstep
    obtain ⟨r₀, hrow, hls, ⟨hst₀, hsame⟩ | ⟨hpend, o, hfinishes, ho⟩⟩ :=
      hstep.completed_or_finishes hst
    · obtain ⟨i, hi, o, hfnd, ho⟩ := ih hrow hst₀
      exact ⟨i, Nat.lt_succ_of_lt hi, o, hls ▸ hfnd, hsame o ho⟩
    · exact ⟨n, Nat.lt_succ_self n, o, ⟨r₀, r, hrow, h, hls, rfl, hpend, hst, ho, hfinishes⟩, ho⟩

/-- After its lease was finished, a row is completed as long as it exists. -/
lemma not_finished_later (hi : R.FinishedAt i k l o) (hj : R.FinishedAt j k l o') : ¬ i < j := by
  intro hij
  obtain ⟨-, r, -, hrow, -, hls, -, hcmpl, -, -⟩ := hi
  obtain ⟨r', -, hrow', -, hls', -, hpend, -, -, -⟩ := hj
  obtain ⟨r₁, hrow₁, -, hrank⟩ | ⟨m, r₁, him, hmj, hrow₁, hls₁, -, -, hdel⟩ :=
    R.forward_or_deleted hrow hij
  · cases hrow'.symm.trans hrow₁
    rw [hcmpl] at hrank
    exact hpend (rank_completed_le hrank)
  · obtain ⟨r₂, hrow₂, hls₂, -, hgone⟩ := hdel
    rw [← hls₂] at hgone
    exact R.lease_gone hrow₂ hmj hgone r' hrow' (by rw [hls', hls₂, hls])

lemma finished_unique (hi : R.FinishedAt i k l o) (hj : R.FinishedAt j k l o') : i = j :=
  Nat.le_antisymm (Nat.le_of_not_lt (R.not_finished_later hj hi))
    (Nat.le_of_not_lt (R.not_finished_later hi hj))

/-! ### The protocol -/

/-- For every key: two reservations are separated by the removal of the first one's row; a row whose
commit started stays, and is not reserved again, until it expires after its completion; beginning
with another fingerprint is a conflict that keeps the row; an answer is the outcome stored by the
one event that finished the row; and a lease that is not the row's has no effect. -/
theorem operation_protocol (k : OperationKey) :
    (∀ i j l l', i < j → R.StartedAt i k l → R.StartedAt j k l' →
      ∃ m, i < m ∧ m ≤ j ∧ R.DeletedAt m k l) ∧
    (∀ n m r, n ≤ m → R.row n k = some r → r.state = .commitStarted →
      (∃ r', R.row m k = some r' ∧ r'.leaseToken = r.leaseToken ∧ r'.state ≠ .reserved) ∨
      ∃ j r' expiresAt, n ≤ j ∧ j < m ∧ R.row j k = some r' ∧ r'.leaseToken = r.leaseToken ∧
        r'.state = .completed ∧ r'.expiresAtMs = some expiresAt ∧
        expiresAt ≤ (R.events j).now) ∧
    (∀ n l fp r, (R.events n).command = .begin l k fp → R.row n k = some r → r.fingerprint ≠ fp →
      r.expired (R.events n).now = false →
      R.reply n = .begin .conflict ∧ R.row (n + 1) k = some r) ∧
    (∀ n o, (R.events n).Answers (R.reply n) k o → ∃ r, R.row n k = some r ∧
      ∃ i < n, R.FinishedAt i k r.leaseToken o ∧
        ∀ i' o', R.FinishedAt i' k r.leaseToken o' → i' = i) ∧
    (∀ n l, (R.events n).command.GuardedBy k l → (∀ r ∈ R.row n k, r.leaseToken ≠ l) →
      R.db (n + 1) = R.db n ∧ R.reply n ≠ .changed true) := by
  refine ⟨?_, ?_, ?_, ?_, ?_⟩
  · intro i j l l' hij hi hj
    obtain ⟨r, hrow, rfl⟩ := (R.step i k).starts_row hi
    obtain ⟨r', hrow', rfl⟩ := (R.step j k).starts_row hj
    obtain ⟨r₁, hrow₁, hlease, -⟩ | ⟨m, r₁, him, hmj, -, -, -, -, hdeleted⟩ :=
      R.forward_or_deleted hrow (Nat.le_succ_of_le hij)
    · cases hrow'.symm.trans hrow₁
      rw [hlease] at hj
      exact absurd (R.started_unique hi hj) (Nat.ne_of_lt hij)
    · exact ⟨m, him, Nat.le_of_lt_succ hmj, hdeleted⟩
  · intro n m r hnm hrow hstate
    obtain ⟨r', hrow', hlease, hrank⟩ | ⟨j, r', hnj, hjm, hrow', hlease, hrank, hremoves, -⟩ :=
      R.forward_or_deleted hrow hnm
    · refine .inl ⟨r', hrow', hlease, fun hreserved => ?_⟩
      simp [hstate, hreserved, rank] at hrank
    · have hstarted : r'.state ≠ .reserved := by
        intro hreserved
        simp [hstate, hreserved, rank] at hrank
      rcases hremoves with ⟨-, hr⟩ | ⟨-, hr⟩ | ⟨-, hcompleted, expiresAt, hexpires, hle⟩
      · exact absurd hr hstarted
      · exact absurd hr hstarted
      · exact .inr ⟨j, r', expiresAt, hnj, hjm, hrow', hlease, hcompleted, hexpires, hle⟩
  · intro n l fp r hcommand hrow hfp hlive
    exact exec_conflict hcommand hrow hfp hlive
  · intro n o hanswer
    obtain ⟨r, hrow, hstate, hinto⟩ := OperationEvent.Answers.row hanswer
    obtain ⟨i, hi, o', hfinished, ho'⟩ := R.completed_finished hrow hstate
    obtain rfl := ho'.intoOutcome hinto
    exact ⟨r, hrow, i, hi, hfinished, fun i' o'' h => R.finished_unique h hfinished⟩
  · intro n l hguard hlease
    exact exec_stale hguard hlease

/-- The run of a finite list of events, followed by status requests. -/
def ofList (limits : Limits) (events : List OperationEvent)
    (h : (events.filterMap fun e => e.command.drawn).Nodup) : OperationRun where
  limits := limits
  events n := (events[n]?).getD ⟨0, .status ⟨0, 0⟩⟩
  fresh := by
    have hlt : ∀ {n l}, ((events[n]?).getD ⟨0, .status ⟨0, 0⟩⟩).command.drawn = some l →
        n < events.length := by
      intro n l hl
      by_contra hn
      rw [List.getElem?_eq_none (Nat.le_of_not_lt hn)] at hl
      cases hl
    have hpair := List.pairwise_iff_getElem.1 (List.pairwise_filterMap.1 h)
    intro i j l hi hj
    have hi' := hlt hi
    have hj' := hlt hj
    rw [List.getElem?_eq_getElem hi', Option.getD_some] at hi
    rw [List.getElem?_eq_getElem hj', Option.getD_some] at hj
    rcases Nat.lt_trichotomy i j with hij | hij | hij
    · exact absurd rfl (hpair i j hi' hj' hij l hi l hj)
    · exact hij
    · exact absurd rfl (hpair j i hj' hi' hij l hj l hi)

/-- One operation that is reserved, abandoned, reserved again and completed, with a conflicting
request and a stale completion in between. -/
def sample : OperationRun :=
  .ofList ⟨8, 4, 60000, 60000, 8, 4, 8, 4⟩
    [⟨0, .begin 10 ⟨7, 1⟩ 1⟩, ⟨1, .abandon ⟨7, 1⟩ 10⟩, ⟨2, .begin 11 ⟨7, 1⟩ 1⟩,
      ⟨3, .markCommitStarted ⟨7, 1⟩ 11⟩, ⟨4, .begin 12 ⟨7, 1⟩ 2⟩,
      ⟨5, .complete ⟨7, 1⟩ 10 ⟨204, .succeeded, none⟩⟩,
      ⟨6, .complete ⟨7, 1⟩ 11 ⟨204, .succeeded, none⟩⟩, ⟨7, .status ⟨7, 1⟩⟩]
    (by decide)

theorem operation_protocol_sample : (sample.StartedAt 0 ⟨7, 1⟩ 10 ∧ sample.StartedAt 2 ⟨7, 1⟩ 11 ∧
      ∃ m, 0 < m ∧ m ≤ 2 ∧ sample.DeletedAt m ⟨7, 1⟩ 10) ∧
    (∃ r, sample.row 4 ⟨7, 1⟩ = some r ∧ r.state = .commitStarted ∧
      ((∃ r', sample.row 8 ⟨7, 1⟩ = some r' ∧ r'.leaseToken = r.leaseToken ∧ r'.state ≠ .reserved) ∨
        ∃ j r' expiresAt, 4 ≤ j ∧ j < 8 ∧ sample.row j ⟨7, 1⟩ = some r' ∧
          r'.leaseToken = r.leaseToken ∧ r'.state = .completed ∧
          r'.expiresAtMs = some expiresAt ∧ expiresAt ≤ (sample.events j).now) ∧
      sample.reply 4 = .begin .conflict ∧ sample.row 5 ⟨7, 1⟩ = some r) ∧
    (∃ r, sample.row 7 ⟨7, 1⟩ = some r ∧ ∃ i < 7,
      sample.FinishedAt i ⟨7, 1⟩ r.leaseToken ⟨204, .succeeded, none⟩ ∧
        ∀ i' o', sample.FinishedAt i' ⟨7, 1⟩ r.leaseToken o' → i' = i) ∧
    sample.db 6 = sample.db 5 ∧ sample.reply 5 ≠ .changed true := by
  obtain ⟨hseparated, hstays, hconflict, hanswer, hstale⟩ := sample.operation_protocol ⟨7, 1⟩
  have hstart : sample.StartedAt 0 ⟨7, 1⟩ 10 := ⟨⟨1, rfl⟩, by decide⟩
  have hrestart : sample.StartedAt 2 ⟨7, 1⟩ 11 := ⟨⟨1, rfl⟩, by decide⟩
  have hrow : sample.row 4 ⟨7, 1⟩ =
      some ⟨⟨7, 1⟩, 1, 11, .commitStarted, none, none, none, 2, 3, none⟩ := by decide
  refine ⟨⟨hstart, hrestart, hseparated 0 2 10 11 (by decide) hstart hrestart⟩, ?_, ?_, ?_⟩
  · exact ⟨_, hrow, rfl, hstays 4 8 _ (by decide) hrow rfl,
      hconflict 4 12 2 _ rfl hrow (by decide) (by decide)⟩
  · exact hanswer 7 _ (.inr ⟨rfl, by decide⟩)
  · exact hstale 5 10 (.inr (.inl ⟨_, rfl⟩)) (by decide)

end OperationRun

end DufsRam
