import DufsRam.StateStore.Database

/-!
# Operation reservations

The commands of `state_store/operation.rs`. Every command is one transaction: it returns its reply
with the new database, or fails and leaves the database as it was. The time a command reads from
the clock of the store and the token `begin_operation` draws are arguments.
-/

namespace DufsRam

open Relational Result OperationRow Table

/-- The selection of `purge_expired`: a finished operation whose expiry has come. -/
def OperationRow.expired (now : TimeMs) (r : OperationRow) : Bool :=
  decide (r.state = .completed) &&
    match r.expiresAtMs with
    | some expiresAt => decide (expiresAt ≤ now)
    | none => false

def purgeExpired (now : TimeMs) (T : Table operationSchema) : Table operationSchema :=
  T.delete (expired now)

/-- `LoadedOperation::into_outcome`. -/
def OperationRow.intoOutcome (r : OperationRow) : Result StoredOutcome := do
  let state ← match r.terminalState with
    | some state => .ok state
    | none => .error "Completed operation is missing its terminal state"
  let status ← match r.httpStatus with
    | some status => .ok status
    | none => .error "Completed operation is missing its HTTP status"
  ensure (0 ≤ status ∧ status < 65536) "Completed operation contains an invalid HTTP status"
  let outcome : StoredOutcome := ⟨UInt16.ofNat status.toNat, state, r.errorCode⟩
  outcome.validate
  return outcome

/-- The row that finishes `r` with an outcome. -/
def OperationRow.complete (now expiresAt : TimeMs) (o : StoredOutcome) (r : OperationRow) :
    OperationRow :=
  { r with
    state := .completed
    terminalState := some o.state
    httpStatus := some o.status.toNat
    errorCode := o.code
    updatedAtMs := now
    expiresAtMs := some expiresAt }

/-- The row that starts the commit of `r`. -/
def OperationRow.markCommitStarted (now : TimeMs) (r : OperationRow) : OperationRow :=
  { r with state := .commitStarted, updatedAtMs := now }

/-- The selection of the statements that a lease guards. -/
def leasedIn (key : OperationKey) (lease : Uuid) (states : List OperationState)
    (r : OperationRow) : Bool :=
  decide (r.key = key) && decide (r.leaseToken = lease) && decide (r.state ∈ states)

/-- A freshly reserved operation. -/
def OperationRow.reserve (now : TimeMs) (lease : Uuid) (key : OperationKey) (fp : Fingerprint) :
    OperationRow where
  key := key
  fingerprint := fp
  leaseToken := lease
  state := .reserved
  terminalState := none
  httpStatus := none
  errorCode := none
  createdAtMs := now
  updatedAtMs := now
  expiresAtMs := none

/-! ### The commands -/

/-- The reply of `begin_operation` on a key that has a row. -/
def OperationRow.beginReply (fp : Fingerprint) (r : OperationRow) : Result StoreBegin :=
  if r.fingerprint ≠ fp then .ok .conflict
  else match r.state with
    | .reserved | .commitStarted => .ok .running
    | .completed => StoreBegin.replay <$> r.intoOutcome

/-- The table is full for a new row of this owner. -/
def Limits.full (limits : Limits) (key : OperationKey) (operations : Table operationSchema) :
    Prop :=
  limits.capacity ≤ operations.count (fun _ => true) ∨
    limits.perOwner ≤ operations.count fun r => decide (r.key.owner = key.owner)

instance (limits : Limits) (key : OperationKey) (operations : Table operationSchema) :
    Decidable (limits.full key operations) :=
  inferInstanceAs (Decidable (_ ∨ _))

def beginOperation (limits : Limits) (now : TimeMs) (lease : Uuid) (key : OperationKey)
    (fp : Fingerprint) (db : Database) : Result (StoreBegin × Database) :=
  match (purgeExpired now db.operations).lookup key with
  | some existing => do
    let reply ← existing.beginReply fp
    return (reply, { db with operations := purgeExpired now db.operations })
  | none =>
    if limits.full key (purgeExpired now db.operations) then
      .ok (.full, { db with operations := purgeExpired now db.operations })
    else do
      let operations ← constrained <|
        (purgeExpired now db.operations).insert (.reserve now lease key fp)
      return (.started lease, { db with operations })

/-- The reply of `operation_status` on the row of its key. -/
def statusReply : Option OperationRow → Result StoreStatus
  | some operation => match operation.state with
    | .reserved | .commitStarted => .ok .running
    | .completed => StoreStatus.completed <$> operation.intoOutcome
  | none => .ok .notFound

def operationStatus (now : TimeMs) (key : OperationKey) (db : Database) :
    Result (StoreStatus × Database) := do
  let reply ← statusReply ((purgeExpired now db.operations).lookup key)
  return (reply, { db with operations := purgeExpired now db.operations })

def markOperationCommitStarted (now : TimeMs) (key : OperationKey) (lease : Uuid)
    (db : Database) : Result (Bool × Database) := do
  let operations ← constrained <| db.operations.update (leasedIn key lease [.reserved])
    (markCommitStarted now)
  return (decide (db.operations.count (leasedIn key lease [.reserved]) = 1),
    { db with operations })

def completeOperation (limits : Limits) (now : TimeMs) (key : OperationKey) (lease : Uuid)
    (outcome : StoredOutcome) (db : Database) : Result (Bool × Database) := do
  let expiresAt ← expirationTime now limits.ttlMs
  let operations ← constrained <|
    db.operations.update (leasedIn key lease [.reserved, .commitStarted])
      (complete now expiresAt outcome)
  return (decide (db.operations.count (leasedIn key lease [.reserved, .commitStarted]) = 1),
    { db with operations })

def abandonOperation (limits : Limits) (now : TimeMs) (key : OperationKey) (lease : Uuid)
    (db : Database) : Result (Unit × Database) := do
  let expiresAt ← expirationTime now limits.ttlMs
  if db.operations.count (leasedIn key lease [.reserved]) = 0 then
    let operations ← constrained <|
      (db.operations.delete (leasedIn key lease [.reserved])).update
        (leasedIn key lease [.commitStarted]) (complete now expiresAt .uncertain)
    return ((), { db with operations })
  else
    return ((), { db with operations := db.operations.delete (leasedIn key lease [.reserved]) })

/-! ### The commands on the row of a key -/

variable {key : OperationKey} {lease : Uuid} {r : OperationRow} {now : TimeMs} {fp : Fingerprint}
  {o : StoredOutcome} {db db' : Database} {limits : Limits} {changed : Bool}

lemma leasedIn_iff {states : List OperationState} :
    leasedIn key lease states r = true ↔ r.key = key ∧ r.leaseToken = lease ∧ r.state ∈ states := by
  simp [leasedIn, and_assoc]

lemma expired_iff :
    r.expired now = true ↔ r.state = .completed ∧ ∃ e, r.expiresAtMs = some e ∧ e ≤ now := by
  unfold expired
  cases r.expiresAtMs <;> simp

lemma lookup_purgeExpired (now : TimeMs) (T : Table operationSchema) (k : OperationKey) :
    (purgeExpired now T).lookup k = (T.lookup k).filter fun r => !r.expired now :=
  T.lookup_delete _ k

lemma OperationRow.beginReply_ne_started {l : Uuid} : r.beginReply fp ≠ .ok (.started l) := by
  unfold beginReply
  by_cases hfp : r.fingerprint = fp
  · cases r.state <;> simp [hfp, map_eq_ok_iff]
  · simp [hfp]

lemma OperationRow.beginReply_eq_replay (h : r.beginReply fp = .ok (.replay o)) :
    r.state = .completed ∧ r.intoOutcome = .ok o := by
  unfold beginReply at h
  by_cases hfp : r.fingerprint = fp
  · cases hst : r.state <;> simp_all [map_eq_ok_iff]
  · simp [hfp] at h

lemma statusReply_eq_completed {row : Option OperationRow}
    (h : statusReply row = .ok (.completed o)) :
    ∃ r, row = some r ∧ r.state = .completed ∧ r.intoOutcome = .ok o := by
  cases row with
  | none => simp [statusReply] at h
  | some r =>
    unfold statusReply at h
    cases hst : r.state <;> simp_all [map_eq_ok_iff]

/-- The outcome a finished row yields is the one it was finished with. -/
lemma OperationRow.intoOutcome_eq {o' : StoredOutcome} (hterm : r.terminalState = some o.state)
    (hstat : r.httpStatus = some (o.status.toNat : Int)) (hcode : r.errorCode = o.code)
    (h : r.intoOutcome = .ok o') : o' = o := by
  unfold intoOutcome at h
  simp only [hterm, hstat, hcode, bind_eq_ok_iff, Except.ok.injEq, exists_eq_left',
    Int.toNat_natCast] at h
  obtain ⟨-, -, -, -, h⟩ := h
  cases h
  simp

/-- Either `begin_operation` reserves its key, which has no row left, or it only purges. -/
lemma beginOperation_cases {reply : StoreBegin}
    (h : beginOperation limits now lease key fp db = .ok (reply, db')) :
    ((∀ l, reply ≠ .started l) ∧ db'.operations = purgeExpired now db.operations) ∨
    (reply = .started lease ∧ (purgeExpired now db.operations).lookup key = none ∧
      (purgeExpired now db.operations).insert (.reserve now lease key fp) =
        some db'.operations) := by
  unfold beginOperation at h
  split at h
  · obtain ⟨reply', hrep, h⟩ := bind_eq_ok_iff.1 h
    cases h
    refine .inl ⟨?_, rfl⟩
    rintro l rfl
    exact beginReply_ne_started hrep
  · split_ifs at h
    · cases h
      exact .inl ⟨by simp, rfl⟩
    · obtain ⟨operations, hins, h⟩ := bind_eq_ok_iff.1 h
      cases h
      exact .inr ⟨rfl, ‹_›, constrained_eq_ok_iff.1 hins⟩

lemma operationStatus_operations {reply : StoreStatus}
    (h : operationStatus now key db = .ok (reply, db')) :
    statusReply ((purgeExpired now db.operations).lookup key) = .ok reply ∧
      db'.operations = purgeExpired now db.operations := by
  obtain ⟨reply', hrep, h⟩ := bind_eq_ok_iff.1 h
  cases h
  exact ⟨hrep, rfl⟩

section

variable (h : markOperationCommitStarted now key lease db = .ok (changed, db'))

include h

lemma lookup_markOperationCommitStarted (k : OperationKey) :
    db'.operations.lookup k = (db.operations.lookup k).map
      (assign (leasedIn key lease [.reserved]) (markCommitStarted now)) := by
  obtain ⟨operations, hupd, h⟩ := bind_eq_ok_iff.1 h
  cases h
  exact lookup_update (constrained_eq_ok_iff.1 hupd) (fun r => rfl) k

/-- The reply of a guarded update tells whether the row of its key was selected. -/
lemma markOperationCommitStarted_changed_iff : changed = true ↔
      ∃ r, db.operations.lookup key = some r ∧ leasedIn key lease [.reserved] r = true := by
  obtain ⟨operations, -, h⟩ := bind_eq_ok_iff.1 h
  cases h
  rw [decide_eq_true_iff]
  exact count_eq_one_iff fun r hr => (leasedIn_iff.1 hr).1

end

section

variable (h : completeOperation limits now key lease o db = .ok (changed, db'))

include h

lemma lookup_completeOperation : ∃ exp, expirationTime now limits.ttlMs = .ok exp ∧
      ∀ k, db'.operations.lookup k = (db.operations.lookup k).map
        (assign (leasedIn key lease [.reserved, .commitStarted]) (complete now exp o)) := by
  obtain ⟨exp, hexp, h⟩ := bind_eq_ok_iff.1 h
  obtain ⟨operations, hupd, h⟩ := bind_eq_ok_iff.1 h
  cases h
  exact ⟨exp, hexp, fun k => lookup_update (constrained_eq_ok_iff.1 hupd) (fun r => rfl) k⟩

lemma completeOperation_changed_iff : changed = true ↔ ∃ r, db.operations.lookup key = some r ∧
      leasedIn key lease [.reserved, .commitStarted] r = true := by
  obtain ⟨expiresAt, -, h⟩ := bind_eq_ok_iff.1 h
  obtain ⟨operations, -, h⟩ := bind_eq_ok_iff.1 h
  cases h
  rw [decide_eq_true_iff]
  exact count_eq_one_iff fun r hr => (leasedIn_iff.1 hr).1

end

lemma lookup_abandonOperation (h : abandonOperation limits now key lease db = .ok ((), db')) :
    ∃ exp, expirationTime now limits.ttlMs = .ok exp ∧ ∀ k, db'.operations.lookup k =
        ((db.operations.lookup k).filter fun r => !leasedIn key lease [.reserved] r).map
          (assign (leasedIn key lease [.commitStarted]) (complete now exp .uncertain)) := by
  obtain ⟨exp, hexp, h⟩ := bind_eq_ok_iff.1 h
  refine ⟨exp, hexp, fun k => ?_⟩
  rw [← lookup_delete]
  split_ifs at h with hcount
  · obtain ⟨operations, hupd, h⟩ := bind_eq_ok_iff.1 h
    cases h
    exact lookup_update (constrained_eq_ok_iff.1 hupd) (fun r => rfl) k
  · -- the reserved row is gone, so no row of this key is left for the update to change
    cases h
    have hrsv : ∃ r, db.operations.lookup key = some r ∧
        leasedIn key lease [.reserved] r = true := by
      obtain ⟨r, hmem, hr⟩ := List.countP_pos_iff.1 (Nat.pos_of_ne_zero hcount)
      exact ⟨r, lookup_eq_some_iff.2 ⟨hmem, (leasedIn_iff.1 hr).1⟩, hr⟩
    obtain ⟨r, hrow, hr⟩ := hrsv
    cases hk : (db.operations.delete (leasedIn key lease [.reserved])).lookup k with
    | none => rfl
    | some r' =>
      have hoth : leasedIn key lease [.commitStarted] r' = false := by
        by_contra hsel
        have hkey := (leasedIn_iff.1 (by simpa using hsel)).1
        have hkk : k = key := (key_of_lookup hk).symm.trans hkey
        subst hkk
        rw [lookup_delete, hrow, Option.filter_eq_some_iff] at hk
        obtain ⟨heq, hnot⟩ := hk
        cases heq
        simp [hr] at hnot
      simp [assign, hoth]

end DufsRam
