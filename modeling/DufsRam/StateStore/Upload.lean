import DufsRam.Lib.Keyset
import DufsRam.StateStore.Recovery
import Mathlib.Data.Prod.Lex

/-!
# Upload sessions

The commands of `state_store/upload.rs` on one session. A proposed session replaces the stored one
only when it continues it: the same binding and stage, an offset that does not fall, and one of the
transitions of the session's life.
-/

namespace DufsRam

open Relational Result UploadRow Table StoreKey

/-- The rows deleted before a session is saved: a committed or unknown one, or a rejected one that
no longer names a stage, whose expiry has come. -/
def UploadRow.discardable (now : TimeMs) (r : UploadRow) : Bool :=
  decide (r.expiresAtMs ≤ now) &&
    (decide (r.session.state = .committed) || decide (r.session.state = .unknown) ||
      (decide (r.session.state = .rejected) && r.session.stageIdentity.isNone))

def purgeExpiredUploads (now : TimeMs) (T : Table uploadSchema) : Table uploadSchema :=
  T.delete (discardable now)

/-- The states whose rows own a file at their stage path. -/
def StoredUploadState.ownsStage : StoredUploadState → Bool
  | .running | .commitStarted | .awaitingConfirmation => true
  | .committed | .rejected | .unknown => false

/-- A row of another session that owns the stage path of `s`. -/
def StoredUploadSession.stageTakenBy (s : StoredUploadSession) (r : UploadRow) : Bool :=
  decide (r.session.stagePath = s.stagePath) && r.session.state.ownsStage &&
    decide (r.session.key ≠ s.key)

def Limits.uploadFull (limits : Limits) (key : UploadSessionKey) (T : Table uploadSchema) : Prop :=
  limits.uploadCapacity ≤ T.count (fun _ => true) ∨
    limits.uploadPerOwner ≤ T.count fun r => decide (r.session.key.owner = key.owner)

instance (limits : Limits) (key : UploadSessionKey) (T : Table uploadSchema) :
    Decidable (limits.uploadFull key T) :=
  inferInstanceAs (Decidable (_ ∨ _))

/-! ### Merging a proposed session into the stored one -/

/-- The changes of state that `merge_upload_session` accepts. -/
def StoredUploadState.mayBecome : StoredUploadState → StoredUploadState → Bool
  | .running, .commitStarted | .running, .rejected | .running, .unknown => true
  | .commitStarted, .committed | .commitStarted, .rejected | .commitStarted, .unknown
  | .commitStarted, .awaitingConfirmation => true
  | .awaitingConfirmation, .commitStarted | .awaitingConfirmation, .rejected => true
  | _, _ => false

def transitionAllowed (existing proposed : StoredUploadSession) : Prop :=
  if existing.state = proposed.state then
    existing.state.isTerminal = false ∨
      (existing.durableOffset = proposed.durableOffset ∧
        existing.stageIdentity = proposed.stageIdentity)
  else existing.state.mayBecome proposed.state = true

def revisionChangeAllowed (existing proposed : StoredUploadSession) : Prop :=
  existing.targetRevision = proposed.targetRevision ∨
    (existing.state = proposed.state ∧ existing.state.isTerminal = false) ∨
    existing.state = .awaitingConfirmation

/-- The proposed session is bound to the same target, stage and length and has lost nothing. -/
def continuesBinding (existing proposed : StoredUploadSession) : Prop :=
  existing.key = proposed.key ∧ existing.targetPath = proposed.targetPath ∧
    existing.stagePath = proposed.stagePath ∧ existing.uploadLength = proposed.uploadLength ∧
    existing.durableOffset ≤ proposed.durableOffset ∧
    (existing.stageIdentity = none ∨ existing.stageIdentity = proposed.stageIdentity)

instance (a b : StoredUploadSession) : Decidable (transitionAllowed a b) := by
  unfold transitionAllowed; infer_instance

instance (a b : StoredUploadSession) : Decidable (revisionChangeAllowed a b) :=
  inferInstanceAs (Decidable (_ ∨ _ ∨ _))

instance (a b : StoredUploadSession) : Decidable (continuesBinding a b) :=
  inferInstanceAs (Decidable (_ ∧ _ ∧ _ ∧ _ ∧ _ ∧ _))

def mergeUploadSession (existing proposed : StoredUploadSession) : Option StoredUploadSession :=
  if continuesBinding existing proposed ∧ transitionAllowed existing proposed ∧
      revisionChangeAllowed existing proposed then
    some proposed
  else none

/-! ### The commands -/

def loadUploadSession (key : UploadSessionKey) (db : Database) :
    Result (Option StoredUploadSession) :=
  match db.uploadSessions.lookup key with
  | none => .ok none
  | some r => do
    r.session.validate
    return some r.session

/-- The assignments of the upsert on a row that exists. -/
def UploadRow.save (now expiresAt : TimeMs) (stored : StoredUploadSession) (r : UploadRow) :
    UploadRow where
  session := { r.session with
    durableOffset := stored.durableOffset
    state := stored.state
    stageIdentity := stored.stageIdentity
    targetRevision := stored.targetRevision }
  updatedAtMs := now
  expiresAtMs := expiresAt

/-- The transaction of `save_upload_session` after its purge. -/
def upsertUploadSession (limits : Limits) (now expiresAt : TimeMs) (proposed : StoredUploadSession)
    (db : Database) : Result (StoreUploadSession × Database) := do
  let existing ← loadUploadSession proposed.key db
  if proposed.state.isTerminal = false ∧ 0 < db.uploadSessions.count proposed.stageTakenBy then
    return (.conflict, db)
  else match existing with
    | none =>
      if limits.uploadFull proposed.key db.uploadSessions then return (.full, db)
      else
        let uploadSessions ← constrained <|
          db.uploadSessions.insert ⟨proposed, now, expiresAt⟩
        return (.inserted, { db with uploadSessions })
    | some existing =>
      match mergeUploadSession existing proposed with
      | none => return (.conflict, db)
      | some stored =>
        let uploadSessions ← constrained <|
          db.uploadSessions.update (fun r => decide (r.session.key = stored.key))
            (save now expiresAt stored)
        return (if stored = existing then .unchanged else .updated, { db with uploadSessions })

def saveUploadSession (limits : Limits) (now ttlMs : TimeMs) (proposed : StoredUploadSession)
    (db : Database) : Result (StoreUploadSession × Database) := do
  let expiresAt ← expirationTime now ttlMs
  upsertUploadSession limits now expiresAt proposed
    { db with uploadSessions := purgeExpiredUploads now db.uploadSessions }

def removeUploadSessionIfMatches (expected : StoredUploadSession) (db : Database) :
    Result (Bool × Database) := do
  let loaded ← loadUploadSession expected.key db
  if loaded = some expected then
    return (true, { db with
      uploadSessions := db.uploadSessions.delete fun r => decide (r.session.key = expected.key) })
  else return (false, db)

/-- The row of an expired session that a cleanup has seen. -/
def ExpiredUploadSession.isRow (now : TimeMs) (expected : ExpiredUploadSession) (r : UploadRow) :
    Bool :=
  decide (r.session.key = expected.session.key) &&
    decide (r.expiresAtMs = expected.expiresAtMs) && decide (r.expiresAtMs ≤ now)

def removeExpiredUploadSessionIfMatches (now : TimeMs) (expected : ExpiredUploadSession)
    (db : Database) : Result (Bool × Database) := do
  let loaded ← loadUploadSession expected.session.key db
  let expiresAt := (db.uploadSessions.lookup expected.session.key).map expiresAtMs
  if now < expected.expiresAtMs ∨ loaded ≠ some expected.session ∨
      expiresAt ≠ some expected.expiresAtMs then return (false, db)
  else return (decide (db.uploadSessions.count (expected.isRow now) = 1),
    { db with uploadSessions := db.uploadSessions.delete (expected.isRow now) })

/-- The client discards a retained upload; its row keeps the stage for the cleanup. -/
def rejectUploadSession (now ttlMs : TimeMs) (key : UploadSessionKey)
    (targetPath stagePath : RelPath) (db : Database) : Result (RejectUploadSession × Database) := do
  match ← loadUploadSession key db with
  | none => return (.notFound, db)
  | some session =>
    if session.targetPath ≠ targetPath ∨ session.stagePath ≠ stagePath then
      return (.bindingConflict, db)
    else if session.state = .rejected then return (.rejected session, db)
    else if session.state ≠ .awaitingConfirmation then return (.stateConflict session, db)
    else do
      let expiresAt ← expirationTime now ttlMs
      let uploadSessions ← constrained <| db.uploadSessions.update
        (fun r => decide (r.session.key = key) && decide (r.session.state = .awaitingConfirmation))
        fun r => ⟨{ r.session with state := .rejected }, now, expiresAt⟩
      return (.rejected { session with state := .rejected }, { db with uploadSessions })

/-! ### Expired sessions -/

/-- The keys are ordered by owner and identifier. -/
def StoreKey.order (k : StoreKey) : ℕ ×ₗ ℕ := toLex (k.owner.toNat, k.id.toNat)

lemma StoreKey.order_injective : Function.Injective order := by
  rintro ⟨owner, id⟩ ⟨owner', id'⟩ h
  simp only [order, toLex_inj, Prod.mk.injEq, BitVec.toNat_inj] at h
  obtain ⟨rfl, rfl⟩ := h
  rfl

instance : LinearOrder StoreKey := LinearOrder.lift' _ order_injective

/-- The rows that the cleanup of expired sessions may see; a commit in flight is not among them. -/
def UploadRow.cleanable (now : TimeMs) (r : UploadRow) : Bool :=
  decide (r.expiresAtMs ≤ now) && decide (r.session.state ≠ .commitStarted)

def expiredUploadSessions (now : TimeMs) (after : Option UploadSessionKey) (limit : ℕ)
    (db : Database) : Result (List ExpiredUploadSession) := do
  let rows := Keyset.page after limit
    ((db.uploadSessions.rows.filter (cleanable now)).map fun r => (r.session.key, r))
  rows.forM fun r => r.2.session.validate
  return rows.map fun r => ⟨r.2.session, r.2.expiresAtMs⟩

variable {db db' : Database} {now exp : TimeMs} {proposed : StoredUploadSession} {lim : Limits}
  {reply : StoreUploadSession}

lemma state_of_mem_expiredUploadSessions {after : Option UploadSessionKey} {limit : ℕ}
    {found : List ExpiredUploadSession} (h : expiredUploadSessions now after limit db = .ok found) :
    ∀ x ∈ found, x.session.state ≠ .commitStarted := by
  obtain ⟨-, -, h⟩ := bind_eq_ok_iff.1 h
  cases h
  intro x hx
  obtain ⟨r, hr, rfl⟩ := List.mem_map.1 hx
  obtain ⟨r', hr', rfl⟩ := List.mem_map.1 (Keyset.mem_of_mem_page hr)
  have hcleanable := (List.mem_filter.1 hr').2
  simp only [cleanable, Bool.and_eq_true, decide_eq_true_eq] at hcleanable
  exact hcleanable.2

/-! ### The commands on the row of a key -/

lemma loadUploadSession_eq_ok {key : UploadSessionKey} {o : Option StoredUploadSession}
    (h : loadUploadSession key db = .ok o) : o = (db.uploadSessions.lookup key).map session := by
  unfold loadUploadSession at h
  cases hrow : db.uploadSessions.lookup key with
  | none =>
    rw [hrow] at h
    exact (Except.ok.inj h).symm
  | some r =>
    rw [hrow] at h
    obtain ⟨-, -, h⟩ := bind_eq_ok_iff.1 h
    cases h
    rfl

lemma mergeUploadSession_eq_some {existing stored : StoredUploadSession}
    (h : mergeUploadSession existing proposed = some stored) :
    stored = proposed ∧ continuesBinding existing proposed ∧
      transitionAllowed existing proposed ∧ revisionChangeAllowed existing proposed := by
  unfold mergeUploadSession at h
  split at h
  case isTrue halw => exact ⟨(Option.some.inj h).symm, halw⟩
  case isFalse => cases h

lemma lookup_purgeExpiredUploads (now : TimeMs) (T : Table uploadSchema) (k : UploadSessionKey) :
    (purgeExpiredUploads now T).lookup k = (T.lookup k).filter fun r => !r.discardable now :=
  T.lookup_delete _ k

/-- A session is stored as proposed, over nothing or over a session it continues. -/
def Continues (existing : Option StoredUploadSession) (proposed : StoredUploadSession) : Prop :=
  ∀ s, existing = some s → mergeUploadSession s proposed = some proposed

/-- A saved session is the row of its key; a refused one leaves every row. -/
lemma upsertUploadSession_cases
    (h : upsertUploadSession lim now exp proposed db = .ok (reply, db')) :
    ((reply = .conflict ∨ reply = .full) ∧ db' = db) ∨ (reply ≠ .conflict ∧ reply ≠ .full ∧
      Continues ((db.uploadSessions.lookup proposed.key).map session) proposed ∧
      ∀ k, db'.uploadSessions.lookup k =
        if proposed.key = k then some ⟨proposed, now, exp⟩
        else db.uploadSessions.lookup k) := by
  obtain ⟨existing, hload, h⟩ := bind_eq_ok_iff.1 h
  rw [loadUploadSession_eq_ok hload] at h
  split at h
  case isTrue =>
    cases h
    exact .inl ⟨.inl rfl, rfl⟩
  case isFalse =>
    cases hrow : db.uploadSessions.lookup proposed.key with
    | none =>
      simp only [hrow, Option.map_none] at h
      split at h
      case isTrue =>
        cases h
        exact .inl ⟨.inr rfl, rfl⟩
      case isFalse =>
        obtain ⟨T, hins, h⟩ := bind_eq_ok_iff.1 h
        cases h
        exact .inr ⟨by simp, by simp, by simp [Continues],
          lookup_insert (constrained_eq_ok_iff.1 hins)⟩
    | some r =>
      simp only [hrow, Option.map_some] at h
      cases hmerge : mergeUploadSession r.session proposed with
      | none =>
        simp only [hmerge] at h
        cases h
        exact .inl ⟨.inl rfl, rfl⟩
      | some stored =>
        simp only [hmerge] at h
        obtain ⟨T, hupd, h⟩ := bind_eq_ok_iff.1 h
        cases h
        obtain ⟨rfl, hbnd, -, -⟩ := mergeUploadSession_eq_some hmerge
        refine .inr ⟨by split <;> simp, by split <;> simp, ?_, fun k => ?_⟩
        · intro s hs
          cases hs
          exact hmerge
        · rw [lookup_update (constrained_eq_ok_iff.1 hupd) (fun _ => rfl)]
          split_ifs with hk
          · -- the columns the upsert leaves alone agree with the proposed ones
            obtain ⟨hkey, htgt, hstg, hlen, -, -⟩ := hbnd
            subst hk
            simp [hrow, assign, save, hkey, htgt, hstg, hlen]
          · cases hoth : db.uploadSessions.lookup k with
            | none => rfl
            | some r' =>
              have hne : r'.session.key ≠ stored.key := fun h =>
                hk (h.symm.trans (key_of_lookup hoth))
              simp [assign, hne]

lemma saveUploadSession_cases {ttlMs : TimeMs}
    (h : saveUploadSession lim now ttlMs proposed db = .ok (reply, db')) :
    ((reply = .conflict ∨ reply = .full) ∧
      db'.uploadSessions = purgeExpiredUploads now db.uploadSessions) ∨
    (reply ≠ .conflict ∧ reply ≠ .full ∧
      Continues (((purgeExpiredUploads now db.uploadSessions).lookup proposed.key).map
        session) proposed ∧
      ∃ expiresAt, ∀ k, db'.uploadSessions.lookup k =
        if proposed.key = k then some ⟨proposed, now, expiresAt⟩
        else (purgeExpiredUploads now db.uploadSessions).lookup k) := by
  obtain ⟨expiresAt, -, h⟩ := bind_eq_ok_iff.1 h
  rcases upsertUploadSession_cases h with ⟨hrep, rfl⟩ | ⟨hcon, hfull, hcont, hrows⟩
  · exact .inl ⟨hrep, rfl⟩
  · exact .inr ⟨hcon, hfull, hcont, expiresAt, hrows⟩

/-- A session is removed only when its row is the expected one. -/
lemma removeUploadSessionIfMatches_cases {expected : StoredUploadSession} {removed : Bool}
    (h : removeUploadSessionIfMatches expected db = .ok (removed, db')) :
    (removed = false ∧ db' = db) ∨ (removed = true ∧
      (db.uploadSessions.lookup expected.key).map session = some expected ∧
      ∀ k, db'.uploadSessions.lookup k =
        if expected.key = k then none else db.uploadSessions.lookup k) := by
  obtain ⟨loaded, hload, h⟩ := bind_eq_ok_iff.1 h
  split at h
  case isFalse =>
    cases h
    exact .inl ⟨rfl, rfl⟩
  case isTrue hmat =>
    cases h
    refine .inr ⟨rfl, by rw [← loadUploadSession_eq_ok hload, hmat], fun k => ?_⟩
    rw [lookup_delete]
    cases hrow : db.uploadSessions.lookup k with
    | none => split_ifs <;> rfl
    | some r =>
      have hkey : r.session.key = k := key_of_lookup hrow
      by_cases hk : expected.key = k
      · simp [Option.filter, hkey, hk]
      · simp [Option.filter, hkey, hk, Ne.symm hk]

/-- What recovery makes of the row of a session. -/
def UploadRow.recover (now expiresAt : TimeMs) (r : UploadRow) : UploadRow :=
  assign (fun r => decide (expiresAt < r.expiresAtMs))
    (fun r => { r with expiresAtMs := expiresAt })
    (assign (fun r => decide (r.session.state = .commitStarted))
      (fun r => ⟨{ r.session with state := .unknown }, now, expiresAt⟩) r)

lemma UploadRow.session_recover (now exp : TimeMs) (r : UploadRow) : (r.recover now exp).session =
      if r.session.state = .commitStarted then { r.session with state := .unknown }
      else r.session := by
  unfold recover assign
  by_cases h : r.session.state = .commitStarted <;> by_cases h' : exp < r.expiresAtMs <;>
    simp [h, h']

lemma lookup_recoverUploadSessions {T T' : Table uploadSchema}
    (h : recoverUploadSessions now exp T = .ok T') (k : UploadSessionKey) :
    T'.lookup k = (T.lookup k).map (recover now exp) := by
  obtain ⟨T₁, hunk, hclamp⟩ := bind_eq_ok_iff.1 h
  rw [lookup_update (constrained_eq_ok_iff.1 hclamp) (fun r => rfl),
    lookup_update (constrained_eq_ok_iff.1 hunk) (fun r => rfl), Option.map_map]
  rfl

end DufsRam
