import Mathlib.Data.List.TakeWhile
import DufsRam.Purge.Worker

/-!
# No claimed job is lost

A row is claimed exactly as long as the worker has its job: in its hands, among the pending tasks or
in the queue of retries. The worker takes a job only when it has room for it.
-/

namespace DufsRam.PurgeWorker

open Transition Relational List Option State PurgeTask Nat

/-! ### The queue of retries -/

/-- The retries are in the order in which they are due. -/
def Sorted (retries : List ClaimedPurgeRetry) : Prop := retries.Pairwise fun a b => a.due ≤ b.due

lemma Sorted.schedule {retries : List ClaimedPurgeRetry} (h : Sorted retries) (job : StoredPurgeJob)
    (localFailures now : ℕ) : Sorted (scheduleClaimedPurgeRetry retries job localFailures now) := by
  set due := now + purgeRetryDelay (max localFailures 1) with hdue
  have hspl := takeWhile_append_dropWhile (p := fun q : ClaimedPurgeRetry =>
    decide (q.due ≤ due)) (l := retries)
  have hsrt := h
  rw [Sorted, ← hspl, pairwise_append] at hsrt
  obtain ⟨hbef, hafter, hacross⟩ := hsrt
  have hearl : ∀ q ∈ retries.takeWhile fun q => decide (q.due ≤ due), q.due ≤ due := by
    intro q hq
    have hholds := mem_takeWhile_imp hq
    exact of_decide_eq_true hholds
  have hlater : ∀ q ∈ retries.dropWhile fun q => decide (q.due ≤ due), due ≤ q.due := by
    -- the first retry behind the new one is due later, and so are those behind it
    intro q hq
    cases hdrop : retries.dropWhile fun q => decide (q.due ≤ due) with
    | nil => rw [hdrop] at hq; cases hq
    | cons first rest =>
      have hfst : ¬ first.due ≤ due := by
        have := head_dropWhile_not (fun q : ClaimedPurgeRetry => decide (q.due ≤ due))
          (l := retries) (by rw [hdrop]; exact cons_ne_nil _ _)
        simpa only [hdrop, head_cons, decide_eq_false_iff_not] using this
      rw [hdrop] at hq hafter
      rcases mem_cons.mp hq with rfl | hrest
      · omega
      · have := rel_of_pairwise_cons hafter hrest
        omega
  refine pairwise_append.mpr ⟨hbef, pairwise_cons.mpr ⟨hlater, hafter⟩, ?_⟩
  intro a ha b hb
  rcases mem_cons.mp hb with rfl | hb
  · exact hearl a ha
  · exact hacross a ha b hb

lemma schedule_perm (retries : List ClaimedPurgeRetry) (job : StoredPurgeJob)
    (localFailures now : ℕ) : ∃ retry : ClaimedPurgeRetry, retry.job = job ∧
      (scheduleClaimedPurgeRetry retries job localFailures now).Perm (retry :: retries) := by
  refine ⟨⟨now + purgeRetryDelay (max localFailures 1), job, max localFailures 1⟩, rfl, ?_⟩
  refine perm_middle.trans ?_
  rw [takeWhile_append_dropWhile]

/-! ### What the worker has -/

def PurgeTask.key? : PurgeTask → Option PurgeJobKey
  | durable job => some job.key
  | orphan _ => none

/-- The job in the hands of the worker. -/
def Phase.key? : Phase → Option PurgeJobKey
  | reloading queued => some queued.job.key
  | opening job _ | settling _ job _ | slicing job => some job.key
  | _ => none

/-- Whether the worker has a task in its hands. -/
def Phase.busy : Phase → ℕ
  | reloading _ | opening _ _ | settling _ _ _ | slicing _ | slicingOrphan _ => 1
  | _ => 0

def Phase.Idle (phase : Phase) : Prop := phase.key? = none ∧ phase.busy = 0

/-- The worker has the job of the key in its hands. -/
def Phase.Has (phase : Phase) (k : PurgeJobKey) : Prop := phase.key? = some k ∧ phase.busy = 1

variable {fault : Bool} {task : PurgeTask} {nowMs : TimeMs}

namespace State

/-- The keys of the jobs that the worker has. -/
def items (s : State) : List PurgeJobKey :=
  s.phase.key?.toList ++ (s.pending.filterMap key? ++
    s.claimedRetries.map fun retry => retry.job.key)

/-- The number of tasks, with those that have no job. -/
def load (s : State) : ℕ := s.phase.busy + (s.pending.length + s.claimedRetries.length)

/-- The job of the key is claimed. -/
def Claimed (db : Database) (k : PurgeJobKey) : Prop :=
  ∃ r, db.purge k = some r ∧ r.job.state = .claimed

structure Inv (s : State) : Prop where
  nodup : s.items.Nodup
  claimed : ∀ k, k ∈ s.items ↔ Claimed s.db k
  bounded : s.load ≤ deletePurgeActiveCapacity
  sorted : Sorted s.claimedRetries

/-- The keys of the jobs that wait. -/
def queued (s : State) : List PurgeJobKey :=
  s.pending.filterMap key? ++ s.claimedRetries.map fun retry => retry.job.key

/-- The number of tasks that wait. -/
def waiting (s : State) : ℕ := s.pending.length + s.claimedRetries.length

variable {s s' : State} {job : StoredPurgeJob} {k key : PurgeJobKey} {phase : Phase}
  {db db' : Database} {now : TimeMs} {limits : Limits} {e : Event}

lemma length_items_le (s : State) : s.items.length ≤ s.load := by
  have hph : s.phase.key?.toList.length ≤ s.phase.busy := by
    cases s.phase <;> first | exact le_refl _ | exact zero_le _
  rw [items, length_append, length_append, length_map, load]
  have := length_filterMap_le key? s.pending
  omega

lemma queued_pushBack (s : State) (task : PurgeTask) :
    (s.pushBack task).queued.Perm (task.key?.toList ++ s.queued) := by
  have hone : [task].filterMap key? = task.key?.toList := by
    cases task <;> rfl
  rw [queued, pushBack, filterMap_append, hone, queued, ← append_assoc]
  exact perm_append_comm.append_right _

lemma queued_keep (s : State) (job : StoredPurgeJob) (localFailures now : ℕ) :
    (s.keep job localFailures now).queued.Perm (job.key :: s.queued) := by
  obtain ⟨retry, rfl, hperm⟩ := schedule_perm s.claimedRetries job localFailures now
  exact ((hperm.map _).append_left _).trans perm_middle

lemma waiting_pushBack (s : State) (task : PurgeTask) :
    (s.pushBack task).waiting = s.waiting + 1 := by
  rw [waiting, pushBack, length_append, length_singleton]
  exact add_right_comm _ _ _

lemma waiting_keep (s : State) (job : StoredPurgeJob) (localFailures now : ℕ) :
    (s.keep job localFailures now).waiting = s.waiting + 1 := by
  obtain ⟨retry, -, hperm⟩ := schedule_perm s.claimedRetries job localFailures now
  rw [waiting, keep, hperm.length_eq, length_cons]
  exact (add_assoc _ _ _).symm

/-- A step that moves jobs between the hands of the worker and its queues. -/
lemma Inv.moves {t : State} (hinv : s.Inv) (hdb : t.db = s.db)
    (hitems : (phase.key?.toList ++ t.queued).Perm (s.phase.key?.toList ++ s.queued))
    (hload : phase.busy + t.waiting ≤ deletePurgeActiveCapacity)
    (hsrt : Sorted t.claimedRetries) : (t.goto phase).Inv where
  nodup := hitems.nodup_iff.mpr hinv.nodup
  claimed k := (hitems.mem_iff.trans (hinv.claimed k)).trans (by rw [← hdb]; rfl)
  bounded := hload
  sorted := hsrt

/-- A step of the store that claims no job and gives none up. -/
lemma Inv.store {db : Database} (hinv : s.Inv) (hdb : ∀ k, Claimed db k ↔ Claimed s.db k) :
    Inv { s with db } :=
  ⟨hinv.nodup, fun k => (hinv.claimed k).trans (hdb k).symm, hinv.bounded, hinv.sorted⟩

/-! ### The phases -/

section

variable (hinv : s.Inv)

include hinv

lemma Inv.waiting_le : s.waiting ≤ deletePurgeActiveCapacity :=
  (le_add_left _ _).trans hinv.bounded

/-- The task in the worker's hands has its place. -/
lemma Inv.room (hbusy : s.phase.busy = 1) : s.waiting + 1 ≤ deletePurgeActiveCapacity := by
  have := hinv.bounded
  change s.phase.busy + s.waiting ≤ _ at this
  omega

/-- The worker goes from one phase without a job to another. -/
lemma Inv.goto_idle (hph : s.phase.key? = none) (hnext : phase.Idle) : (s.goto phase).Inv := by
  refine hinv.moves rfl ?_ ?_ hinv.sorted
  · rw [hnext.1, hph]
  · rw [hnext.2, zero_add]
    exact hinv.waiting_le

/-- The worker goes on with the job in its hands. -/
lemma Inv.goto_same (hhas : s.phase.Has k) (hnext : phase.Has k) : (s.goto phase).Inv := by
  refine hinv.moves rfl ?_ ?_ hinv.sorted
  · rw [hnext.1, hhas.1]
  · rw [hnext.2, ← hhas.2]
    exact hinv.bounded

/-- A task goes to the end of the pending tasks. -/
lemma Inv.pushBack (hkey : s.phase.key? = task.key?)
    (hroom : s.waiting + 1 ≤ deletePurgeActiveCapacity) (hnext : phase.Idle) :
    ((s.pushBack task).goto phase).Inv := by
  refine hinv.moves rfl ?_ ?_ hinv.sorted
  · rw [hnext.1, hkey]
    exact queued_pushBack s task
  · rwa [hnext.2, zero_add, waiting_pushBack]

/-- The job in the worker's hands goes to the queue of retries. -/
lemma Inv.keep (hhas : s.phase.Has job.key) (hnext : phase.Idle)
    (localFailures now : ℕ) : ((s.keep job localFailures now).goto phase).Inv := by
  refine hinv.moves rfl ?_ ?_ (hinv.sorted.schedule job localFailures now)
  · rw [hnext.1, hhas.1]
    exact queued_keep s job localFailures now
  · rw [hnext.2, zero_add, waiting_keep]
    exact hinv.room hhas.2

end

/-! ### The store -/

lemma claimed_complete (key k : PurgeJobKey) :
    Claimed (completePurgeJob key db).2 k ↔ Claimed db k ∧ k ≠ key := by
  unfold Claimed
  rw [completePurgeJob, purge_deletePurgeJob]
  constructor
  · rintro ⟨r, hr, hst⟩
    obtain ⟨hrow, hkept⟩ := filter_eq_some_iff.mp hr
    refine ⟨⟨r, hrow, hst⟩, ?_⟩
    rintro rfl
    have hkey : r.job.key = k := Table.key_of_lookup hrow
    simp [hkey, hst] at hkept
  · rintro ⟨⟨r, hrow, hst⟩, hne⟩
    have hkey : r.job.key = k := Table.key_of_lookup hrow
    refine ⟨r, filter_eq_some_iff.mpr ⟨hrow, ?_⟩, hst⟩
    simp [hkey, hne]

/-- A claimed job is there to be completed. -/
lemma completePurgeJob_changed (h : Claimed db key) : (completePurgeJob key db).1 = true := by
  obtain ⟨r, hrow, hst⟩ := h
  refine decide_eq_true ((Table.count_eq_one_iff (k := key) fun r hr => ?_).mpr
    ⟨r, hrow, ?_⟩)
  · exact of_decide_eq_true (Bool.and_eq_true_iff.mp hr).1
  · have hkey : r.job.key = key := Table.key_of_lookup hrow
    simp [hkey, hst]

lemma claimed_retry {delayMs : TimeMs} {changed : Bool} (hclm : Claimed db key)
    (h : retryPurgeJob now delayMs key db = .ok (changed, db')) :
    changed = true ∧ ∀ k, Claimed db' k ↔ Claimed db k ∧ k ≠ key := by
  obtain ⟨nextAttempt, -, h⟩ := Result.bind_eq_ok_iff.1 h
  have hrows := purge_updatePurgeJob h fun _ => rfl
  obtain ⟨r, hrow, hst⟩ := hclm
  constructor
  · rcases hrows key with ⟨-, -, -, -, hchg, -⟩ | ⟨-, hoth⟩
    · exact hchg
    · exact absurd hst ((hoth rfl).2 r hrow)
  · intro k
    rcases hrows k with ⟨r', hr', rfl, -, -, hnew⟩ | ⟨hsame, hoth⟩
    · constructor
      · rintro ⟨r'', hr'', hst''⟩
        rw [hnew] at hr''
        obtain rfl := some.inj hr''
        cases hst''
      · rintro ⟨-, hne⟩
        exact absurd rfl hne
    · have hne : k ≠ key := by
        rintro rfl
        exact (hoth rfl).2 r hrow hst
      rw [Claimed, hsame]
      exact ⟨fun h => ⟨h, hne⟩, fun h => h.1⟩

lemma claimed_claim {job : StoredPurgeJob} (h : claimDuePurgeJob now db = .ok (some job, db')) :
    ¬ Claimed db job.key ∧ ∀ k, Claimed db' k ↔ Claimed db k ∨ k = job.key := by
  obtain ⟨hnone, -⟩ | ⟨r, hrow, hdue, -, hjob, hrows⟩ := claimDuePurgeJob_cases h
  · cases hnone
  · obtain rfl := some.inj hjob
    have hlook : db.purge r.job.key = some r :=
      Table.lookup_eq_some_iff.mpr ⟨hrow, rfl⟩
    have hrdy : r.job.state = .ready := (PurgeRow.due_iff.1 hdue).1
    constructor
    · rintro ⟨r', hr', hst⟩
      obtain rfl := some.inj (hlook.symm.trans hr')
      cases hrdy.symm.trans hst
    · intro k
      unfold Claimed
      rw [hrows k]
      split
      · next hk => exact ⟨fun _ => .inr hk.symm, fun _ => ⟨r.claim now, rfl, rfl⟩⟩
      · next hk => exact ⟨.inl, fun h => h.resolve_right (Ne.symm hk)⟩

/-- The commands of others neither claim a job nor give one up. -/
lemma claimed_exec {limits : Limits} {e : StoreEvent} (h : ofOthers e.command = true)
    (k : PurgeJobKey) : Claimed (e.exec limits db).2 k ↔ Claimed db k := by
  have hstep := e.exec_purgeStep limits db k
  unfold Claimed
  revert hstep
  generalize db.purge k = row
  generalize (e.exec limits db).2.purge k = row'
  intro hstep
  cases hstep with
  | kept => exact Iff.rfl
  | prepared =>
    constructor
    · rintro ⟨r, hr, hst⟩
      obtain rfl := some.inj hr
      cases hst
    · nofun
  | readied hcmd hst =>
    constructor
    · rintro ⟨r, hr, hst'⟩
      obtain rfl := some.inj hr
      cases hst'
    · rintro ⟨r, hr, hst'⟩
      obtain rfl := some.inj hr
      cases hst.symm.trans hst'
  | claimed hcmd | retried hcmd | completed hcmd | removed hcmd | recovered hcmd =>
    rw [hcmd] at h; cases h

/-- The removal of a job that is prepared. -/
lemma claimed_remove (h : (db.purge key).any fun r => decide (r.job.state = .prepared))
    (k : PurgeJobKey) : Claimed (removePurgeJob key db).2 k ↔ Claimed db k := by
  obtain ⟨prepared, hprep, hst⟩ := (any_eq_true _ _).mp h
  unfold Claimed
  rw [removePurgeJob, purge_deletePurgeJob]
  constructor
  · rintro ⟨r, hr, hclm⟩
    exact ⟨r, (filter_eq_some_iff.mp hr).1, hclm⟩
  · rintro ⟨r, hrow, hclm⟩
    refine ⟨r, filter_eq_some_iff.mpr ⟨hrow, ?_⟩, hclm⟩
    have hkey : r.job.key = k := Table.key_of_lookup hrow
    have hne : k ≠ key := by
      rintro rfl
      obtain rfl := some.inj (hrow.symm.trans hprep)
      rw [hclm] at hst
      cases hst
    simp [hkey, hne]

/-- The job in the worker's hands is recorded. -/
lemma Inv.settled (hinv : s.Inv) (hhas : s.phase.Has key)
    (hclm : ∀ k, Claimed db k ↔ Claimed s.db k ∧ k ≠ key) (hnext : phase.Idle) :
    ({ s with db }.goto phase).Inv := by
  have hitems : ({ s with db }.goto phase).items = s.queued := by
    change phase.key?.toList ++ s.queued = _
    rw [hnext.1]
    rfl
  have hbef : s.items = key :: s.queued := by
    change s.phase.key?.toList ++ s.queued = _
    rw [hhas.1]
    rfl
  have hnd := hinv.nodup
  rw [hbef, nodup_cons] at hnd
  refine ⟨hitems ▸ hnd.2, fun k => ?_, ?_, hinv.sorted⟩
  · change _ ↔ Claimed db k
    rw [hitems, hclm k, ← hinv.claimed k, hbef, mem_cons]
    constructor
    · intro hk
      refine ⟨.inr hk, ?_⟩
      rintro rfl
      exact hnd.1 hk
    · rintro ⟨hk, hne⟩
      exact hk.resolve_left hne
  · change phase.busy + s.waiting ≤ _
    rw [hnext.2, zero_add]
    exact hinv.waiting_le

/-- The worker has claimed a job. -/
lemma Inv.claims (hinv : s.Inv) (hidle : s.phase.key? = none)
    (hroom : s.waiting + 1 ≤ deletePurgeActiveCapacity) (hfree : ¬ Claimed s.db job.key)
    (hclm : ∀ k, Claimed db k ↔ Claimed s.db k ∨ k = job.key) :
    ({ s with db }.goto (.opening job .claim)).Inv := by
  have hitems : ({ s with db }.goto (.opening job .claim)).items = job.key :: s.items := by
    change job.key :: s.queued = job.key :: (s.phase.key?.toList ++ s.queued)
    rw [hidle]
    rfl
  refine ⟨?_, fun k => ?_, ?_, hinv.sorted⟩
  · rw [hitems, nodup_cons]
    exact ⟨fun h => hfree ((hinv.claimed _).mp h), hinv.nodup⟩
  · change _ ↔ Claimed db k
    rw [hitems, mem_cons, hinv.claimed k, hclm k, or_comm]
  · change 1 + s.waiting ≤ _
    rwa [add_comm]

/-! ### Steps -/

/-- The worker has returned, or it has what it claimed. -/
def Safe (s : State) : Prop := s.phase = .stopped ∨ s.Inv

lemma Inv.begin (hinv : s.Inv) (h : s.begin = some s') : s'.Safe := by
  unfold State.begin at h
  split at h
  · next hph =>
    obtain rfl := some.inj h
    split
    · exact .inl rfl
    · exact .inr (hinv.goto_idle (hph ▸ rfl) ⟨rfl, rfl⟩)
  · cases h

lemma hasRoom_iff : s.hasRoom = true ↔ s.waiting + 1 ≤ deletePurgeActiveCapacity :=
  decide_eq_true_iff

lemma Inv.receive {signal : Signal} (hinv : s.Inv) (h : s.receive signal = some s') : s'.Safe := by
  unfold State.receive at h
  split at h
  · next hph =>
    have hidle : s.phase.key? = none := hph ▸ rfl
    split at h
    · next hroom =>
      cases signal with
      | wake =>
        cases h
        exact .inr hinv
      | orphan trash =>
        cases h
        have hpush : ((s.pushBack (.orphan trash)).goto .drain).Inv :=
          hinv.pushBack hidle (hasRoom_iff.mp hroom) ⟨rfl, rfl⟩
        have hstay : (s.pushBack (.orphan trash)).goto .drain = s.pushBack (.orphan trash) := by
          rw [goto, State.pushBack, hph]
        exact .inr (hstay ▸ hpush)
      | empty =>
        cases h
        exact .inr (hinv.goto_idle hidle ⟨rfl, rfl⟩)
      | disconnected =>
        cases h
        exact .inl rfl
    · cases h
      exact .inr (hinv.goto_idle hidle ⟨rfl, rfl⟩)
  · next hph =>
    have hst : (s.goto .start).Safe := .inr (hinv.goto_idle (hph ▸ rfl) ⟨rfl, rfl⟩)
    split at h
    · cases h
      exact .inl rfl
    · cases signal with
      | wake =>
        obtain ⟨-, ⟨⟩⟩ := ite_none_right_eq_some.mp h
        exact hst
      | orphan trash =>
        obtain ⟨hroom, ⟨⟩⟩ := ite_none_right_eq_some.mp h
        exact .inr (hinv.pushBack (hph ▸ rfl) (hasRoom_iff.mp hroom) ⟨rfl, rfl⟩)
      | empty =>
        cases h
        exact hst
      | disconnected =>
        obtain ⟨-, ⟨⟩⟩ := ite_none_right_eq_some.mp h
        exact .inl rfl
  · cases h

lemma Inv.checkRetry {now : ℕ} (hinv : s.Inv) (h : s.checkRetry now = some s') : s'.Safe := by
  unfold State.checkRetry at h
  split at h
  · next retry rest hph hretr =>
    split at h
    · cases h
      have hsrt := hinv.sorted
      have hload := hinv.waiting_le
      rw [hretr] at hsrt
      rw [waiting, hretr, length_cons] at hload
      refine .inr (hinv.moves (t := { s with claimedRetries := rest }) rfl ?_ ?_
        (pairwise_cons.mp hsrt).2)
      · change (retry.job.key :: (_ ++ rest.map _)).Perm (_ ++ (_ ++ s.claimedRetries.map _))
        rw [hph, hretr]
        exact perm_middle.symm
      · change 1 + (s.pending.length + rest.length) ≤ _
        omega
    · cases h
      exact .inr (hinv.goto_idle (hph ▸ rfl) ⟨rfl, rfl⟩)
  · next hph hretr =>
    cases h
    exact .inr (hinv.goto_idle (hph ▸ rfl) ⟨rfl, rfl⟩)
  · cases h

/-- The job in the worker's hands is claimed. -/
lemma Inv.claimed_of_key (hinv : s.Inv) (hkey : s.phase.key? = some key) : Claimed s.db key := by
  refine (hinv.claimed key).mp (mem_append_left _ ?_)
  rw [hkey]
  exact mem_singleton_self key

lemma Inv.reload {now : ℕ} (hinv : s.Inv) (h : s.reload fault now = some s') : s'.Safe := by
  unfold State.reload at h
  split at h
  · next retry hph =>
    have hhas : s.phase.Has retry.job.key := hph ▸ ⟨rfl, rfl⟩
    have hfail : ∀ failures, ((s.keep retry.job failures now).goto .claim).Safe :=
      fun failures => .inr (hinv.keep hhas ⟨rfl, rfl⟩ failures now)
    obtain ⟨r, hrow, hclm⟩ := hinv.claimed_of_key hhas.1
    split at h
    · cases h
      exact hfail _
    · split at h
      · cases h
        exact hfail _
      · next hload =>
        have hnone := loadPurgeJob_eq_ok hload
        rw [hrow] at hnone
        cases hnone
      · next current hload =>
        have hcurr := loadPurgeJob_eq_ok hload
        rw [hrow] at hcurr
        obtain rfl := some.inj hcurr
        have hsame : r.job.key = retry.job.key := Table.key_of_lookup hrow
        rw [if_pos hclm] at h
        cases h
        exact .inr (hinv.goto_same hhas ⟨congrArg some hsame, rfl⟩)
  · cases h

lemma next_idle (origin : Origin) : origin.next.Idle := by
  cases origin <;> exact ⟨rfl, rfl⟩

lemma Inv.openWork {found : Opened} {now : ℕ} (hinv : s.Inv) (h : s.openWork found now = some s') :
    s'.Safe := by
  unfold State.openWork at h
  split at h
  · next job origin hph =>
    have hhas : s.phase.Has job.key := hph ▸ ⟨rfl, rfl⟩
    have hstl : ∀ how, (s.goto (.settling how job origin)).Safe := fun how =>
      .inr (hinv.goto_same hhas ⟨rfl, rfl⟩)
    split at h
    · cases h
      exact .inr (hinv.keep hhas (next_idle origin) _ _)
    · split at h
      · cases h
        exact hstl _
      · split at h
        · cases h
          exact .inr (hinv.pushBack hhas.1 (hinv.room hhas.2) (next_idle origin))
        · cases h
          exact hstl _
        · cases h
          exact hstl _
        · cases h
          exact hstl _
  · cases h

/-- A command that records a job takes it away from the worker, or it has no effect. -/
lemma record_cases (how : Settlement) (nowMs : TimeMs) (hclm : Claimed s.db job.key) :
    ((s.record how job nowMs).1 = true ∧
      ∀ k, Claimed (s.record how job nowMs).2 k ↔ Claimed s.db k ∧ k ≠ job.key) ∨
    ((s.record how job nowMs).1 = false ∧ (s.record how job nowMs).2 = s.db) := by
  cases how with
  | complete => exact .inl ⟨rfl, claimed_complete job.key⟩
  | quarantine => exact .inl ⟨completePurgeJob_changed hclm, claimed_complete job.key⟩
  | defer =>
    unfold record
    dsimp only
    split
    · next result hretry => exact .inl (claimed_retry hclm hretry)
    · exact .inr ⟨rfl, rfl⟩

lemma Inv.settle {fault : Option Fault} {now : ℕ} (hinv : s.Inv)
    (h : s.settle fault now nowMs = some s') : s'.Safe := by
  unfold State.settle at h
  split at h
  · next how job origin hph =>
    have hhas : s.phase.Has job.key := hph ▸ ⟨rfl, rfl⟩
    have hkept := hinv.keep hhas (next_idle origin) origin.failures now
    split at h
    · obtain ⟨-, ⟨⟩⟩ := ite_none_right_eq_some.mp h
      exact .inr hkept
    · cases h
      exact .inr hkept
    · dsimp only at h
      obtain ⟨hrecd, hclm⟩ | ⟨hrecd, hdb⟩ :=
        record_cases how nowMs (hinv.claimed_of_key hhas.1)
      · rw [if_pos hrecd] at h
        cases h
        exact .inr (hinv.settled hhas hclm (next_idle origin))
      · rw [hrecd, hdb] at h
        cases h
        exact .inr hkept
  · cases h

lemma Inv.claimNext (hinv : s.Inv) (h : s.claimNext fault nowMs = some s') : s'.Safe := by
  unfold State.claimNext at h
  split at h
  · next hph =>
    have hidle : s.phase.key? = none := hph ▸ rfl
    have hserve : (s.goto .serve).Safe := .inr (hinv.goto_idle hidle ⟨rfl, rfl⟩)
    split at h
    · next hroom =>
      split at h
      · cases h
        exact .inl rfl
      · split at h
        · cases h
          exact hserve
        · split at h
          · cases h
            exact hserve
          · cases h
            exact hserve
          · next job db hclaim =>
            cases h
            obtain ⟨hfree, hclm⟩ := claimed_claim hclaim
            exact .inr (hinv.claims hidle (hasRoom_iff.mp hroom) hfree hclm)
    · cases h
      exact hserve
  · cases h

/-- The first of the pending tasks goes into the worker's hands. -/
lemma Inv.takes {rest : List PurgeTask} (hinv : s.Inv) (hph : s.phase = .serve)
    (hpend : s.pending = task :: rest) (hkey : phase.key? = task.key?) (hbusy : phase.busy = 1) :
    Inv { s with pending := rest, phase } := by
  have hload := hinv.waiting_le
  rw [waiting, hpend, length_cons] at hload
  refine hinv.moves (t := { s with pending := rest }) rfl ?_ ?_ hinv.sorted
  · rw [hph, hkey, queued, queued, hpend]
    cases task <;> exact List.Perm.refl _
  · rw [hbusy]
    change 1 + (rest.length + s.claimedRetries.length) ≤ _
    omega

lemma Inv.take (hinv : s.Inv) (h : s.take = some s') : s'.Safe := by
  unfold State.take at h
  split at h
  · next hph hpend =>
    cases h
    exact .inr (hinv.goto_idle (hph ▸ rfl) ⟨rfl, rfl⟩)
  · next job rest hph hpend =>
    cases h
    exact .inr (hinv.takes hph hpend rfl rfl)
  · next trash rest hph hpend =>
    cases h
    exact .inr (hinv.takes hph hpend rfl rfl)
  · cases h

lemma Inv.slice {progress : Progress} (hinv : s.Inv) (h : s.slice progress = some s') :
    s'.Safe := by
  unfold State.slice at h
  split at h
  · next job hph =>
    have hhas : s.phase.Has job.key := hph ▸ ⟨rfl, rfl⟩
    have hstl : ∀ how, (s.goto (.settling how job .slice)).Safe := fun how =>
      .inr (hinv.goto_same hhas ⟨rfl, rfl⟩)
    cases progress with
    | complete | invalidData | failed => cases h; exact hstl _
    | pending => cases h; exact .inr (hinv.pushBack hhas.1 (hinv.room hhas.2) ⟨rfl, rfl⟩)
  · next trash hph =>
    split at h
    · cases h
      exact .inr (hinv.pushBack (hph ▸ rfl) (hinv.room (hph ▸ rfl)) ⟨rfl, rfl⟩)
    · cases h
      exact .inr (hinv.goto_idle (hph ▸ rfl) ⟨rfl, rfl⟩)
  · cases h

/-- A worker that has returned takes no step of its own. -/
lemma step_stopped (hph : s.phase = .stopped) (h : s.step limits e = some s') :
    s'.phase = .stopped := by
  cases e with
  | shutdown =>
    cases h
    exact hph
  | store | reconcile =>
    obtain ⟨-, ⟨⟩⟩ := ite_none_right_eq_some.mp h
    exact hph
  | _ =>
    simp only [step, begin, receive, checkRetry, reload,
      openWork, settle, claimNext, State.take, slice, hph] at h
    cases h

lemma Inv.step (hinv : s.Inv) (h : s.step limits e = some s') : s'.Safe := by
  cases e with
  | begin => exact hinv.begin h
  | receive signal => exact hinv.receive h
  | checkRetry now => exact hinv.checkRetry h
  | reload fault now => exact hinv.reload h
  | openWork found now => exact hinv.openWork h
  | settle fault now nowMs => exact hinv.settle h
  | claimNext fault nowMs => exact hinv.claimNext h
  | take => exact hinv.take h
  | slice progress => exact hinv.slice h
  | shutdown =>
    cases h
    exact .inr ⟨hinv.nodup, hinv.claimed, hinv.bounded, hinv.sorted⟩
  | store event =>
    obtain ⟨hoth, ⟨⟩⟩ := ite_none_right_eq_some.mp h
    exact .inr (hinv.store (claimed_exec hoth))
  | reconcile key =>
    obtain ⟨hprep, ⟨⟩⟩ := ite_none_right_eq_some.mp h
    exact .inr (hinv.store (claimed_remove hprep))

lemma Safe.step (hsf : s.Safe) (h : s.step limits e = some s') : s'.Safe := by
  obtain hph | hinv := hsf
  · exact .inl (step_stopped hph h)
  · exact hinv.step h

end State

namespace Run

lemma safe (ρ : Run) (n : ℕ) : (ρ.state n).Safe := by
  refine Machine.run_invariant (P := State.Safe) ?_ (fun s e s' hsf hstep => hsf.step hstep) n
  refine .inr ⟨nodup_nil, fun k => ⟨nofun, ?_⟩, zero_le _, List.Pairwise.nil⟩
  rintro ⟨r, hrow, hclm⟩
  exact absurd hclm (ρ.recovered k r hrow)

/-- As long as the worker runs, each claimed job is with it exactly once, and it has no other; it
never has more jobs than its capacity, and its retries are in the order in which they are due. -/
theorem claims_conserved (ρ : Run) (n : ℕ) (hruns : (ρ.state n).phase ≠ .stopped) :
    (∀ k r, (ρ.state n).db.purge k = some r → r.job.state = .claimed →
      (ρ.state n).items.count k = 1) ∧
    (∀ k ∈ (ρ.state n).items, ∃ r, (ρ.state n).db.purge k = some r ∧ r.job.state = .claimed) ∧
    (ρ.state n).items.length ≤ 64 ∧
    (ρ.state n).claimedRetries.Pairwise fun a b => a.due ≤ b.due := by
  have hinv := (ρ.safe n).resolve_left hruns
  refine ⟨fun k r hrow hclaimed => ?_, fun k hk => (hinv.claimed k).mp hk, ?_, hinv.sorted⟩
  · exact List.count_eq_one_of_mem hinv.nodup ((hinv.claimed k).mpr ⟨r, hrow, hclaimed⟩)
  · exact (State.length_items_le _).trans hinv.bounded

/-- A slice fails, and so does the command that would defer the job. -/
def unrecorded : Run where
  limits := ⟨8, 4, 60000, 60000, 8, 4, 8, 4⟩
  db := Database.empty
  recovered k r hrow := by simp [Database.purge, Database.empty, Table.empty,
    Table.lookup] at hrow
  schedule n := [.store ⟨0, .purge (.prepare
      ⟨⟨7, 1⟩, ["a"], ["trash", "a"], ⟨1, 2⟩, none, false, .prepared, 0⟩)⟩,
    .store ⟨1, .purge (.markReady ⟨7, 1⟩ 5)⟩, .begin, .receive .empty, .checkRetry 0,
    .claimNext false 2, .openWork .matching 0, .claimNext false 3, .take, .slice .failed,
    .settle (some .store) 4 5].getD n .shutdown

theorem claims_conserved_unrecorded :
    (unrecorded.state 11).items = [⟨7, 1⟩] ∧ (unrecorded.state 11).items.count ⟨7, 1⟩ = 1 := by
  obtain ⟨hcount, -, -, -⟩ := claims_conserved unrecorded 11 (by decide +kernel)
  have hrow : ((unrecorded.state 11).db.purge ⟨7, 1⟩).map (fun r => r.job.state) =
      some .claimed := by decide +kernel
  obtain ⟨r, hrow, hclaimed⟩ := map_eq_some_iff.mp hrow
  exact ⟨by decide +kernel, hcount _ r hrow hclaimed⟩

end Run

end DufsRam.PurgeWorker
