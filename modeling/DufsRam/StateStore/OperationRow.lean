import DufsRam.StateStore.Recovery

/-!
# What one event does to the row of an operation

An event is a command of the operation protocol, or a restart of the server through
`recover_database`, at the time the store reads from its clock. `OperationStep` lists everything an
event can do to the row of one key; every invariant of the protocol is read off that list.
-/

namespace DufsRam

open Relational Option Database Table OperationRow

inductive OperationCommand where
  /-- `begin_operation`, with the token it draws should it reserve the key. -/
  | begin (lease : Uuid) (key : OperationKey) (fp : Fingerprint)
  | status (key : OperationKey)
  | markCommitStarted (key : OperationKey) (lease : Uuid)
  | complete (key : OperationKey) (lease : Uuid) (outcome : StoredOutcome)
  | abandon (key : OperationKey) (lease : Uuid)
  | restart
  deriving DecidableEq

structure OperationEvent where
  now : TimeMs
  command : OperationCommand
  deriving DecidableEq

inductive OperationReply where
  | begin (reply : StoreBegin)
  | status (reply : StoreStatus)
  | changed (changed : Bool)
  | done
  | failed (message : String)
  deriving DecidableEq

/-- The reply and the database after a command that may fail without effect. -/
def settle {α : Type} (db : Database) (reply : α → OperationReply) :
    Result (α × Database) → OperationReply × Database
  | .ok (a, db') => (reply a, db')
  | .error message => (.failed message, db)

/-- The store takes one event. -/
def OperationEvent.exec (limits : Limits) (e : OperationEvent) (db : Database) :
    OperationReply × Database :=
  match e.command with
  | .begin lease key fp => settle db .begin (beginOperation limits e.now lease key fp db)
  | .status key => settle db .status (operationStatus e.now key db)
  | .markCommitStarted key lease =>
    settle db .changed (markOperationCommitStarted e.now key lease db)
  | .complete key lease outcome =>
    settle db .changed (completeOperation limits e.now key lease outcome db)
  | .abandon key lease => settle db (fun _ => .done) (abandonOperation limits e.now key lease db)
  | .restart =>
    settle db (fun _ => .done)
      ((fun db' => ((), db')) <$> recoverDatabase limits.ttlMs limits.uploadTtlMs e.now db)

/-- The row of a key. -/
def Database.operation (db : Database) (k : OperationKey) : Option OperationRow :=
  db.operations.lookup k

/-- The event reserved the key `k` under the lease `l`. -/
def OperationEvent.Starts (e : OperationEvent) (reply : OperationReply) (k : OperationKey)
    (l : Uuid) : Prop :=
  (∃ fp, e.command = .begin l k fp) ∧ reply = .begin (.started l)

/-- The events that run `purge_expired`. -/
def OperationCommand.purges : OperationCommand → Bool
  | .begin .. | .status .. | .restart => true
  | .markCommitStarted .. | .complete .. | .abandon .. => false

/-- Everything an event can do to the row of the key `k`. -/
inductive OperationStep (e : OperationEvent) (reply : OperationReply) (k : OperationKey) :
    Option OperationRow → Option OperationRow → Prop
  | kept {row} (h : ∀ l, ¬ e.Starts reply k l) : OperationStep e reply k row row
  | started {row l fp} (h : e.Starts reply k l) (hfp : e.command = .begin l k fp)
      (hrow : ∀ r ∈ row, r.expired e.now = true) :
      OperationStep e reply k row (some (.reserve e.now l k fp))
  | expired {r} (h : ∀ l, ¬ e.Starts reply k l) (hpurges : e.command.purges = true)
      (hexpired : r.expired e.now = true) : OperationStep e reply k (some r) none
  | marked {r} (h : e.command = .markCommitStarted k r.leaseToken)
      (hreply : reply = .changed true) (hstate : r.state = .reserved) :
      OperationStep e reply k (some r) (some (r.markCommitStarted e.now))
  | completed {r o expiresAt} (h : e.command = .complete k r.leaseToken o)
      (hreply : reply = .changed true) (hstate : r.state ≠ .completed) :
      OperationStep e reply k (some r) (some (r.complete e.now expiresAt o))
  | abandonedReserved {r} (h : e.command = .abandon k r.leaseToken)
      (hstate : r.state = .reserved) : OperationStep e reply k (some r) none
  | abandonedCommitStarted {r expiresAt} (h : e.command = .abandon k r.leaseToken)
      (hreply : reply = .done) (hstate : r.state = .commitStarted) :
      OperationStep e reply k (some r) (some (r.complete e.now expiresAt .uncertain))
  | recoveredReserved {r} (h : e.command = .restart) (hstate : r.state = .reserved) :
      OperationStep e reply k (some r) none
  | recoveredCommitStarted {r expiresAt} (h : e.command = .restart)
      (hreply : reply = .done) (hstate : r.state = .commitStarted) :
      OperationStep e reply k (some r) (some (r.complete e.now expiresAt .uncertain))
  | clamped {r expiresAt} (h : e.command = .restart) (hstate : r.state = .completed) :
      OperationStep e reply k (some r) (some (r.expireAt expiresAt))

/-! ### Every event takes one of these steps -/

variable {changed : Bool} {fp : Fingerprint} {o : StoredOutcome} {db : Database} {limits : Limits}
  {e : OperationEvent} {k : OperationKey} {l : Uuid}

section Steps

variable {db' : Database} {key : OperationKey} {lease : Uuid}

/-- A purge keeps the row of a key unless it has expired. -/
lemma purge_step {reply : OperationReply} (h : ∀ l, ¬ e.Starts reply k l)
    (hprg : e.command.purges = true) (row : Option OperationRow) :
    OperationStep e reply k row (row.filter fun r => !r.expired e.now) := by
  cases row with
  | none => exact .kept h
  | some r =>
    by_cases hexp : r.expired e.now = true
    · rw [filter_some_neg (by simp [hexp])]
      exact .expired h hprg hexp
    · rw [filter_some_pos (by simp [hexp])]
      exact .kept h

lemma begin_step {reply : StoreBegin} (hcmd : e.command = .begin lease key fp)
    (h : beginOperation limits e.now lease key fp db = .ok (reply, db')) :
    OperationStep e (.begin reply) k (db.operation k) (db'.operation k) := by
  have hprg : e.command.purges = true := by rw [hcmd]; rfl
  obtain ⟨hrep, hdb⟩ | ⟨rfl, hfree, hins⟩ := beginOperation_cases h
  · rw [operation, operation, hdb, lookup_purgeExpired]
    refine purge_step ?_ hprg _
    rintro l ⟨-, hst⟩
    exact hrep l (OperationReply.begin.inj hst)
  · rw [operation, operation, lookup_insert hins]
    by_cases hk : key = k
    · subst hk
      rw [lookup_purgeExpired, filter_eq_none_iff] at hfree
      rw [if_pos (by simp [reserve])]
      exact .started ⟨⟨fp, hcmd⟩, rfl⟩ hcmd fun r hr => by simpa using hfree r hr
    · rw [if_neg (by simpa [reserve] using hk), lookup_purgeExpired]
      refine purge_step ?_ hprg _
      rintro l ⟨⟨fp', hst⟩, -⟩
      cases hcmd.symm.trans hst
      exact hk rfl

lemma mark_step (hcmd : e.command = .markCommitStarted key lease)
    (h : markOperationCommitStarted e.now key lease db = .ok (changed, db')) :
    OperationStep e (.changed changed) k (db.operation k) (db'.operation k) := by
  have hkept : ∀ l, ¬ e.Starts (.changed changed) k l := fun _ h => nomatch h.2
  rw [operation, operation, lookup_markOperationCommitStarted h]
  cases hrow : db.operations.lookup k with
  | none => exact .kept hkept
  | some r =>
    rw [map_some, assign]
    split_ifs with hsel
    · obtain ⟨rfl, rfl, hst⟩ := leasedIn_iff.1 hsel
      obtain rfl := key_of_lookup hrow
      refine .marked hcmd ?_ (List.mem_singleton.1 hst)
      rw [(markOperationCommitStarted_changed_iff h).2 ⟨r, hrow, hsel⟩]
    · exact .kept hkept

lemma complete_step (hcmd : e.command = .complete key lease o)
    (h : completeOperation limits e.now key lease o db = .ok (changed, db')) :
    OperationStep e (.changed changed) k (db.operation k) (db'.operation k) := by
  have hkept : ∀ l, ¬ e.Starts (.changed changed) k l := fun _ h => nomatch h.2
  obtain ⟨expiresAt, -, hlook⟩ := lookup_completeOperation h
  rw [operation, operation, hlook]
  cases hrow : db.operations.lookup k with
  | none => exact .kept hkept
  | some r =>
    rw [map_some, assign]
    split_ifs with hsel
    · obtain ⟨rfl, rfl, hst⟩ := leasedIn_iff.1 hsel
      obtain rfl := key_of_lookup hrow
      refine .completed hcmd ?_ ?_
      · rw [(completeOperation_changed_iff h).2 ⟨r, hrow, hsel⟩]
      · rintro hcmpl
        simp [hcmpl] at hst
    · exact .kept hkept

lemma abandon_step (hcmd : e.command = .abandon key lease)
    (h : abandonOperation limits e.now key lease db = .ok ((), db')) :
    OperationStep e .done k (db.operation k) (db'.operation k) := by
  have hkept : ∀ l, ¬ e.Starts .done k l := fun _ h => nomatch h.2
  obtain ⟨expiresAt, -, hlook⟩ := lookup_abandonOperation h
  rw [operation, operation, hlook]
  cases hrow : db.operations.lookup k with
  | none => exact .kept hkept
  | some r =>
    by_cases hrsv : leasedIn key lease [.reserved] r = true
    · rw [filter_some_neg (by simp [hrsv]), map_none]
      obtain ⟨rfl, rfl, hst⟩ := leasedIn_iff.1 hrsv
      obtain rfl := key_of_lookup hrow
      exact .abandonedReserved hcmd (List.mem_singleton.1 hst)
    · rw [filter_some_pos (by simp [hrsv]), map_some, assign]
      split_ifs with hsel
      · obtain ⟨rfl, rfl, hst⟩ := leasedIn_iff.1 hsel
        obtain rfl := key_of_lookup hrow
        exact .abandonedCommitStarted hcmd rfl (List.mem_singleton.1 hst)
      · exact .kept hkept

lemma restart_step (hcmd : e.command = .restart)
    (h : recoverDatabase limits.ttlMs limits.uploadTtlMs e.now db = .ok db') :
    OperationStep e .done k (db.operation k) (db'.operation k) := by
  have hkept : ∀ l, ¬ e.Starts .done k l := fun _ h => nomatch h.2
  have hprg : e.command.purges = true := by rw [hcmd]; rfl
  obtain ⟨_, _, -, -, hops, -⟩ := recoverDatabase_eq_ok_iff.1 h
  rw [operation, operation, lookup_recoverOperations hops]
  cases hrow : db.operations.lookup k with
  | none => exact .kept hkept
  | some r =>
    rw [bind_some, recover]
    cases hst : r.state with
    | reserved => exact .recoveredReserved hcmd hst
    | commitStarted => exact .recoveredCommitStarted hcmd rfl hst
    | completed =>
      split_ifs with hexp
      · exact .expired hkept hprg hexp
      · rw [assign]
        split_ifs
        · exact .clamped hcmd hst
        · exact .kept hkept

/-- An event does to the row of a key one of the things `OperationStep` lists. -/
theorem OperationEvent.exec_step (limits : Limits) (e : OperationEvent) (db : Database)
    (k : OperationKey) :
    OperationStep e (e.exec limits db).1 k (db.operation k) ((e.exec limits db).2.operation k) := by
  -- a command that fails has no effect
  have hfail : ∀ msg, OperationStep e (.failed msg) k (db.operation k) (db.operation k) :=
    fun msg => .kept (by rintro l ⟨-, hst⟩; cases hst)
  unfold OperationEvent.exec
  split
  case h_1 lease key fp hcmd =>
    cases h : beginOperation limits e.now lease key fp db with
    | error msg => exact hfail msg
    | ok result => exact begin_step hcmd h
  case h_2 key hcmd =>
    cases h : operationStatus e.now key db with
    | error msg => exact hfail msg
    | ok result =>
      obtain ⟨-, hops⟩ := operationStatus_operations h
      simp only [settle, operation, hops, lookup_purgeExpired]
      exact purge_step (by rintro l ⟨-, hst⟩; cases hst) (by rw [hcmd]; rfl) _
  case h_3 key lease hcmd =>
    cases h : markOperationCommitStarted e.now key lease db with
    | error msg => exact hfail msg
    | ok result => exact mark_step hcmd h
  case h_4 key lease o hcmd =>
    cases h : completeOperation limits e.now key lease o db with
    | error msg => exact hfail msg
    | ok result => exact complete_step hcmd h
  case h_5 key lease hcmd =>
    cases h : abandonOperation limits e.now key lease db with
    | error msg => exact hfail msg
    | ok result => exact abandon_step hcmd h
  case h_6 hcmd =>
    cases h : recoverDatabase limits.ttlMs limits.uploadTtlMs e.now db with
    | error msg => exact hfail msg
    | ok db' => exact restart_step hcmd h

end Steps

/-! ### Replies -/

/-- The event answers a request for `k` with the stored outcome `o`. -/
def OperationEvent.Answers (e : OperationEvent) (reply : OperationReply) (k : OperationKey)
    (o : StoredOutcome) : Prop :=
  (∃ l fp, e.command = .begin l k fp ∧ reply = .begin (.replay o)) ∨
    (e.command = .status k ∧ reply = .status (.completed o))

/-- An answer is the outcome that the row of the key holds. -/
lemma OperationEvent.Answers.row (h : e.Answers (e.exec limits db).1 k o) :
    ∃ r, db.operation k = some r ∧ r.state = .completed ∧ r.intoOutcome = .ok o := by
  have hpur : ∀ r, (purgeExpired e.now db.operations).lookup k = some r →
      db.operation k = some r := by
    intro r hr
    rw [lookup_purgeExpired, filter_eq_some_iff] at hr
    exact hr.1
  rcases h with ⟨l, fp, hcmd, hrep⟩ | ⟨hcmd, hrep⟩
  · unfold OperationEvent.exec at hrep
    simp only [hcmd, beginOperation] at hrep
    split at hrep
    case h_1 r hrow =>
      cases hr : r.beginReply fp with
      | error message => simp [hr, settle, bind, Except.bind] at hrep
      | ok reply =>
        simp only [hr, settle, bind, Except.bind, pure, Except.pure,
          OperationReply.begin.injEq] at hrep
        rw [hrep] at hr
        exact ⟨r, hpur r hrow, beginReply_eq_replay hr⟩
    case h_2 hrow =>
      split_ifs at hrep
      · simp [settle] at hrep
      · cases hins : (purgeExpired e.now db.operations).insert (.reserve e.now l k fp) <;>
          simp [hins, settle, constrained, bind, Except.bind, pure, Except.pure] at hrep
  · unfold OperationEvent.exec at hrep
    simp only [hcmd, operationStatus] at hrep
    cases hr : statusReply ((purgeExpired e.now db.operations).lookup k) with
    | error message => simp [hr, settle, bind, Except.bind] at hrep
    | ok reply =>
      simp only [hr, settle, bind, Except.bind, pure, Except.pure,
        OperationReply.status.injEq] at hrep
      rw [hrep] at hr
      obtain ⟨r, hrow, hr⟩ := statusReply_eq_completed hr
      exact ⟨r, hpur r hrow, hr⟩

/-- Beginning with another fingerprint while the row exists is a conflict and keeps the row. -/
lemma OperationEvent.exec_conflict {r : OperationRow} (hcmd : e.command = .begin l k fp)
    (hrow : db.operation k = some r) (hfp : r.fingerprint ≠ fp) (hlive : r.expired e.now = false) :
    (e.exec limits db).1 = .begin .conflict ∧ (e.exec limits db).2.operation k = some r := by
  have hpur : (purgeExpired e.now db.operations).lookup k = some r := by
    rw [operation] at hrow
    rw [lookup_purgeExpired, hrow, filter_some_pos (by simp [hlive])]
  unfold OperationEvent.exec
  simp only [hcmd, beginOperation, hpur, beginReply, ne_eq, hfp, not_false_eq_true, ↓reduceIte]
  exact ⟨rfl, hpur⟩

/-- The event is guarded by a lease on the key `k`. -/
def OperationCommand.GuardedBy (c : OperationCommand) (k : OperationKey) (l : Uuid) : Prop :=
  c = .markCommitStarted k l ∨ (∃ o, c = .complete k l o) ∨ c = .abandon k l

lemma leasedIn_eq_false (hls : ∀ r ∈ db.operation k, r.leaseToken ≠ l)
    (states : List OperationState) : ∀ r ∈ db.operations.rows, leasedIn k l states r = false := by
  intro r hr
  by_contra hsel
  obtain ⟨hkey, hl, -⟩ := leasedIn_iff.1 (by simpa using hsel)
  exact hls r (lookup_eq_some_iff.2 ⟨hr, hkey⟩) hl

/-- A command that carries a lease which is not the row's changes nothing. -/
lemma OperationEvent.exec_stale (hgrd : e.command.GuardedBy k l)
    (hls : ∀ r ∈ db.operation k, r.leaseToken ≠ l) :
    (e.exec limits db).2 = db ∧ (e.exec limits db).1 ≠ .changed true := by
  have hnone := leasedIn_eq_false hls
  have hcount : ∀ states, db.operations.count (leasedIn k l states) = 0 := fun states =>
    List.countP_eq_zero.2 fun r hr => by simp [hnone states r hr]
  unfold OperationEvent.exec
  rcases hgrd with h | ⟨o, h⟩ | h
  · simp only [h, markOperationCommitStarted, update_eq_self (hnone _), hcount]
    exact ⟨rfl, nofun⟩
  · simp only [h, completeOperation, update_eq_self (hnone _), hcount]
    cases expirationTime e.now limits.ttlMs with
    | error message => exact ⟨rfl, nofun⟩
    | ok expiresAt => exact ⟨rfl, nofun⟩
  · simp only [h, abandonOperation, delete_eq_self (hnone _), update_eq_self (hnone _), hcount]
    cases expirationTime e.now limits.ttlMs with
    | error message => exact ⟨rfl, nofun⟩
    | ok expiresAt => exact ⟨rfl, nofun⟩

end DufsRam
