import DufsRam.PathCoordinator.Steps
import Mathlib.Data.List.Dedup

/-!
# Invariants of the coordinator

What holds of the requests, the waiter map and the lease map in every reachable state. The epoch
counts the released leases, one behind while a drop is between the removal of its lease and the
advance of the epoch.
-/

namespace DufsRam.PathCoordinator

open Nat AList

variable {r' r : Request} {j i : ℕ} {s s' s₀ : System} {a : Action} {root : FileIdentity} {β : Type}

namespace System

variable (s : System) (i : ℕ) (r : Request)

@[simp] lemma setRequest_leases : (s.setRequest i r).leases = s.leases := rfl

@[simp] lemma setRequest_changes : (s.setRequest i r).changes = s.changes := rfl

@[simp] lemma setRequest_dropping : (s.setRequest i r).dropping = s.dropping := rfl

lemma setRequest_requests (j : ℕ) :
    (s.setRequest i r).requests j = if j = i then some r else s.requests j := by
  simp [setRequest, Function.update_apply]

/-- The requests after one of them moved on. -/
lemma setRequest_cases {s : System} {i : ℕ} {r : Request}
    (h : (s.setRequest i r).requests j = some r') :
    (j = i ∧ r' = r) ∨ (j ≠ i ∧ s.requests j = some r') := by
  rw [setRequest_requests] at h
  split_ifs at h with hj
  · exact .inl ⟨hj, (Option.some.inj h).symm⟩
  · exact .inr ⟨hj, h⟩

end System

/-! ### Counters -/

section Counters

/-- No counter goes back. -/
lemma Step.counters_le (h : Step root s a s') :
    s.changes ≤ s'.changes ∧ s.leaseEpoch ≤ s'.leaseEpoch ∧ s.released ≤ s'.released := by
  cases h with
  | register | insert | request | eligible | cancel =>
    exact ⟨le_rfl, le_rfl, le_rfl⟩
  | blocked =>
    refine ⟨?_, le_rfl, le_rfl⟩
    simp only [System.setRequest_changes]
    split_ifs <;> omega
  | acquired | cancelNotify => exact ⟨le_succ _, le_rfl, le_rfl⟩
  | dropRemove _ hdrp => exact ⟨le_rfl, le_rfl, by simp [System.released, hdrp]⟩
  | dropAdvance hdrp =>
    exact ⟨le_rfl, le_succ _, by simp [System.released, hdrp]⟩
  | dropNotify hdrp => exact ⟨le_succ _, le_rfl, by simp [System.released, hdrp]⟩

/-- The removal of a lease counts as its release. -/
lemma Step.released_lt {lease : ℕ} (h : Step root s (.dropRemove lease) s') :
    s.released < s'.released := by
  cases h with
  | request _ hlocal => cases hlocal
  | dropRemove _ hdrp => simp [System.released, hdrp]

end Counters

/-! ### Requests -/

/-- What a request knows is consistent with the coordinator. -/
structure Request.Wf (s : System) (r : Request) : Prop where
  lexical_ne : r.lexical ≠ []
  seen_le : r.seen ≤ s.changes
  since_le : r.since ≤ s.released
  resolved_keys : ∀ e keys, r.resolved = some (e, keys) →
    keys.map LeaseKey.lexical = r.lexical ∧ e ≤ r.since
  loaded_le : ∀ e, r.phase = .loaded e → e ≤ s.leaseEpoch
  resolving_keys : ∀ e keys inFlight, r.phase = .resolving e keys inFlight →
    e ≤ s.leaseEpoch ∧ keys.map LeaseKey.lexical = r.lexical.take keys.length ∧
      (keys ≠ [] ∨ inFlight = true → e ≤ r.since)
  ready_keys : ∀ e, r.phase = .ready e → ∃ keys, r.resolved = some (e, keys)

lemma Request.Wf.mono (h : r.Wf s) (hchgs : s.changes ≤ s'.changes)
    (hepoch : s.leaseEpoch ≤ s'.leaseEpoch) (hrel : s.released ≤ s'.released) : r.Wf s' where
  lexical_ne := h.lexical_ne
  seen_le := h.seen_le.trans hchgs
  since_le := h.since_le.trans hrel
  resolved_keys := h.resolved_keys
  loaded_le e he := (h.loaded_le e he).trans hepoch
  resolving_keys e keys inFlight hph :=
    ⟨(h.resolving_keys e keys inFlight hph).1.trans hepoch,
      (h.resolving_keys e keys inFlight hph).2⟩
  ready_keys := h.ready_keys

lemma Request.Wf.step (h : r.Wf s) (hstep : Step root s a s') : r.Wf s' :=
  h.mono hstep.counters_le.1 hstep.counters_le.2.1 hstep.counters_le.2.2

/-- A phase that carries no data puts no condition on the request. -/
lemma Request.Wf.setPhase (h : r.Wf s) {phase : Phase} {seen : ℕ} (hseen : seen ≤ s.changes)
    (hloaded : ∀ e, phase ≠ .loaded e)
    (hresolving : ∀ e keys inFlight, phase ≠ .resolving e keys inFlight)
    (hrdy : ∀ e, phase ≠ .ready e) : Request.Wf s { r with phase := phase, seen := seen } where
  lexical_ne := h.lexical_ne
  seen_le := hseen
  since_le := h.since_le
  resolved_keys := h.resolved_keys
  loaded_le e he := absurd he (hloaded e)
  resolving_keys e keys inFlight hph := absurd hph (hresolving e keys inFlight)
  ready_keys e he := absurd he (hrdy e)

lemma LocalStep.wf (hstep : LocalStep root s i r a r') (h : r.Wf s) : r'.Wf s := by
  cases hstep with
  | observe | wake => exact h.setPhase le_rfl (by simp) (by simp) (by simp)
  | loadEpoch =>
    exact { h with
      loaded_le := fun e he => by cases he; exact le_rfl
      resolving_keys := by simp
      ready_keys := by simp }
  | reuse _ hrsl =>
    exact { h with
      loaded_le := by simp
      resolving_keys := by simp
      ready_keys := fun e he => by cases he; exact ⟨_, hrsl⟩ }
  | ineligible | stale => exact h.setPhase h.seen_le (by simp) (by simp) (by simp)
  | startResolve hph hlen =>
    obtain ⟨hle, hkeys, hsince⟩ := h.resolving_keys _ _ _ hph
    exact {
      lexical_ne := h.lexical_ne
      seen_le := h.seen_le
      since_le := by
        split_ifs
        · exact le_rfl
        · exact h.since_le
      resolved_keys := by
        intro e keys hrsl
        obtain ⟨hlex, hle⟩ := h.resolved_keys e keys hrsl
        refine ⟨hlex, ?_⟩
        split_ifs
        · exact hle.trans h.since_le
        · exact hle
      loaded_le := by simp
      resolving_keys := by
        rintro e keys inFlight ⟨⟩
        refine ⟨hle, hkeys, fun _ => ?_⟩
        split_ifs with hfst
        · -- the first resolution starts after the epoch was loaded
          exact hle.trans (le_add_right _ _)
        · exact hsince (.inl hfst)
      ready_keys := by simp }
  | finishResolve hph hlex =>
    obtain ⟨hle, hkeys, hsince⟩ := h.resolving_keys _ _ _ hph
    exact { h with
      loaded_le := by simp
      resolving_keys := by
        rintro e keys inFlight ⟨⟩
        refine ⟨hle, ?_, fun _ => hsince (.inr rfl)⟩
        obtain ⟨hlt, hget⟩ := List.getElem?_eq_some_iff.1 hlex
        simp [hkeys, List.take_add_one, hlex]
      ready_keys := by simp }
  | conclude hph hlen =>
    obtain ⟨hle, hkeys, hsince⟩ := h.resolving_keys _ _ _ hph
    exact { h with
      resolved_keys := by
        rintro e keys ⟨⟩
        rw [hlen, List.take_length] at hkeys
        refine ⟨hkeys, hsince (.inl ?_)⟩
        rintro rfl
        exact h.lexical_ne (List.length_eq_zero_iff.1 hlen.symm)
      loaded_le := by simp
      resolving_keys := by simp
      ready_keys := fun e he => by cases he; exact ⟨_, rfl⟩ }

/-- Every request is well formed and has drawn its identifier. -/
def RequestsInv (s : System) : Prop :=
  ∀ i r, s.requests i = some r → i < s.nextWaiterId ∧ r.Wf s

lemma sortPaths_ne_nil {paths : List RelPath} (h : paths ≠ []) : sortPaths paths ≠ [] := by
  obtain ⟨p, hp⟩ := List.exists_mem_of_ne_nil paths h
  have hmem : p ∈ sortPaths paths := by
    rw [sortPaths, List.mem_dedup, List.mem_insertionSort]
    exact hp
  exact List.ne_nil_of_mem hmem

/-- A request that just registered. -/
lemma Request.wf_registering {lexical : List RelPath} (h : lexical ≠ []) :
    Request.Wf s ⟨lexical, .registering, 0, none, 0⟩ where
  lexical_ne := h
  seen_le := zero_le _
  since_le := zero_le _
  resolved_keys := by simp
  loaded_le := by simp
  resolving_keys := by simp
  ready_keys := by simp

/-- The requests are well formed after a step when the one that moved is. -/
lemma RequestsInv.setRequest (hinv : RequestsInv s)
    (hwf : ∀ {j r'}, s.requests j = some r' → r'.Wf (s₀.setRequest i r))
    (hreqs : s₀.requests = s.requests) (hnext : s.nextWaiterId ≤ s₀.nextWaiterId)
    (hi : i < s₀.nextWaiterId) (hr : r.Wf (s₀.setRequest i r)) :
    RequestsInv (s₀.setRequest i r) := by
  intro j r' hj
  obtain ⟨rfl, rfl⟩ | ⟨hji, hj⟩ := System.setRequest_cases hj
  · exact ⟨hi, hr⟩
  · rw [hreqs] at hj
    exact ⟨(hinv j r' hj).1.trans_le hnext, hwf hj⟩

theorem RequestsInv.step (hinv : RequestsInv s) (hstep : Step root s a s') : RequestsInv s' := by
  have hwf : ∀ {i r}, s.requests i = some r → r.Wf s' := fun hr => (hinv _ _ hr).2.step hstep
  cases hstep with
  | register h =>
    exact hinv.setRequest hwf rfl (le_succ _) (lt_succ_self _)
      (Request.wf_registering (sortPaths_ne_nil h))
  | insert hr h =>
    exact hinv.setRequest hwf rfl le_rfl (hinv _ _ hr).1
      ((hwf hr).setPhase le_rfl (by simp) (by simp) (by simp))
  | request hr h =>
    exact hinv.setRequest hwf rfl le_rfl (hinv _ _ hr).1
      ((h.wf (hinv _ _ hr).2).step (.request hr h))
  | eligible hr h =>
    refine hinv.setRequest hwf rfl le_rfl (hinv _ _ hr).1 { hwf hr with
      loaded_le := by simp
      resolving_keys := ?_
      ready_keys := by simp }
    rintro e keys inFlight ⟨⟩
    exact ⟨(hinv _ _ hr).2.loaded_le _ h, by simp, by simp⟩
  | blocked hr | acquired hr | cancelNotify hr =>
    exact hinv.setRequest hwf rfl le_rfl (hinv _ _ hr).1
      ((hwf hr).setPhase (hwf hr).seen_le (by simp) (by simp) (by simp))
  | cancel hr h =>
    refine hinv.setRequest hwf rfl le_rfl (hinv _ _ hr).1
      ((hwf hr).setPhase (hwf hr).seen_le ?_ ?_ ?_)
    all_goals intros; split_ifs <;> simp
  | dropRemove | dropAdvance | dropNotify => exact fun i r hr => ⟨(hinv i r hr).1, hwf hr⟩

/-! ### Maps -/

lemma lookup_of_lookup_insert {m : AList fun _ : ℕ => β} {b b' : β}
    (h : (m.insert i b).lookup j = some b') :
    (j = i ∧ b' = b) ∨ (j ≠ i ∧ m.lookup j = some b') := by
  by_cases hj : j = i
  · subst hj
    rw [lookup_insert] at h
    exact .inl ⟨rfl, (Option.some.inj h).symm⟩
  · rw [lookup_insert_ne hj] at h
    exact .inr ⟨hj, h⟩

lemma lookup_of_lookup_erase {m : AList fun _ : ℕ => β} {b : β}
    (h : (m.erase i).lookup j = some b) : j ≠ i ∧ m.lookup j = some b := by
  have hj : j ≠ i := by
    rintro rfl
    rw [lookup_erase] at h
    cases h
  exact ⟨hj, by rwa [lookup_erase_ne hj] at h⟩

/-! ### Waiters -/

/-- The entry of a waiter is about the paths of its request. -/
def WaiterState.Describes (lexical : List RelPath) : WaiterState → Prop
  | .resolving paths => paths = lexical
  | .resolved keys => keys.map LeaseKey.lexical = lexical

/-- Every waiter belongs to a request and is about its paths. -/
def WaitersInv (s : System) : Prop :=
  ∀ i w, s.waiters.lookup i = some w → ∃ r, s.requests i = some r ∧ w.Describes r.lexical

lemma System.lookup_setWaiter {w w' : WaiterState} (h : (s.setWaiter i w).lookup j = some w') :
    (j = i ∧ w' = w ∧ i ∈ s.waiters) ∨ (j ≠ i ∧ s.waiters.lookup j = some w') := by
  unfold System.setWaiter at h
  split_ifs at h with hmem
  · obtain ⟨hj, hw⟩ | h := lookup_of_lookup_insert h
    · exact .inl ⟨hj, hw, hmem⟩
    · exact .inr h
  · refine .inr ⟨?_, h⟩
    rintro rfl
    rw [lookup_eq_none.2 hmem] at h
    cases h

/-- The waiters still match after a step of the request `i` when its own entry does. -/
lemma WaitersInv.setRequest (hinv : WaitersInv s)
    (hr : s.requests i = some r) (hlex : r'.lexical = r.lexical) (hreqs : s₀.requests = s.requests)
    (hwtrs : ∀ j w, s₀.waiters.lookup j = some w →
      (j = i ∧ w.Describes r.lexical) ∨ s.waiters.lookup j = some w) :
    WaitersInv (s₀.setRequest i r') := by
  intro j w hw
  rw [System.setRequest_requests, hreqs]
  obtain ⟨rfl, hdesc⟩ | hw := hwtrs j w hw
  · exact ⟨r', if_pos rfl, hlex ▸ hdesc⟩
  · obtain ⟨r₀, hr₀, hdesc⟩ := hinv j w hw
    split_ifs with hj
    · subst hj
      cases hr.symm.trans hr₀
      exact ⟨r', rfl, hlex ▸ hdesc⟩
    · exact ⟨r₀, hr₀, hdesc⟩

lemma LocalStep.lexical_eq (h : LocalStep root s i r a r') : r'.lexical = r.lexical := by
  cases h <;> rfl

theorem WaitersInv.step (hreq : RequestsInv s)
    (hinv : WaitersInv s) (hstep : Step root s a s') : WaitersInv s' := by
  cases hstep with
  | register h =>
    intro j w hw
    obtain ⟨r, hr, hdesc⟩ := hinv j w hw
    rw [System.setRequest_requests, if_neg (hreq j r hr).1.ne]
    exact ⟨r, hr, hdesc⟩
  | insert hr h =>
    refine hinv.setRequest hr rfl rfl fun j w hw => ?_
    obtain ⟨rfl, rfl⟩ | ⟨-, hw⟩ := lookup_of_lookup_insert hw
    · exact .inl ⟨rfl, rfl⟩
    · exact .inr hw
  | request hr h => exact hinv.setRequest hr h.lexical_eq rfl fun j w hw => .inr hw
  | eligible hr h =>
    refine hinv.setRequest hr rfl rfl fun j w hw => ?_
    obtain ⟨rfl, rfl, -⟩ | ⟨-, hw⟩ := System.lookup_setWaiter hw
    · exact .inl ⟨rfl, rfl⟩
    · exact .inr hw
  | blocked hr h hrsl =>
    refine hinv.setRequest hr rfl rfl fun j w hw => ?_
    obtain ⟨rfl, rfl, -⟩ | ⟨-, hw⟩ := System.lookup_setWaiter hw
    · exact .inl ⟨rfl, ((hreq _ _ hr).2.resolved_keys _ _ hrsl).1⟩
    · exact .inr hw
  | acquired hr | cancel hr =>
    exact hinv.setRequest hr rfl rfl fun j w hw => .inr (lookup_of_lookup_erase hw).2
  | cancelNotify hr h => exact hinv.setRequest hr rfl rfl fun j w hw => .inr hw
  | dropRemove | dropAdvance | dropNotify => exact hinv

/-! ### Leases -/

/-- The leases in the map, and one that is being dropped, do not conflict with each other. -/
structure LeasesInv (s : System) : Prop where
  lease_lt : ∀ l keys, s.leases.lookup l = some keys → l < s.nextId
  exclusive : ∀ l l' keys keys', l ≠ l' → s.leases.lookup l = some keys →
    s.leases.lookup l' = some keys' → ¬ pathsConflict keys keys'
  exclusive_drop : ∀ d l keys, s.dropping = some d → s.leases.lookup l = some keys →
    ¬ pathsConflict d.keys keys

/-- Granting a lease to a request that is not blocked keeps the leases exclusive. -/
lemma LeasesInv.grant {keys : List LeaseKey} (hinv : LeasesInv s) (hfree : ¬ s.blocked i keys)
    (hdrp : s.dropping = none) (hlss : s'.leases = s.leases.insert s.nextId keys)
    (hnext : s'.nextId = s.nextId + 1) (hdrp' : s'.dropping = s.dropping) : LeasesInv s' := by
  have hcs : ∀ l keys', s'.leases.lookup l = some keys' →
      (l = s.nextId ∧ keys' = keys) ∨ s.leases.lookup l = some keys' := by
    intro l keys' hl
    rw [hlss] at hl
    exact (lookup_of_lookup_insert hl).imp_right And.right
  have hnew : ∀ l keys', s.leases.lookup l = some keys' → ¬ pathsConflict keys' keys :=
    fun l keys' hl hcon => hfree (.inl ⟨⟨l, keys'⟩, mem_lookup_iff.1 hl, hcon⟩)
  refine ⟨?_, ?_, ?_⟩
  · intro l keys' hl
    rw [hnext]
    obtain ⟨rfl, -⟩ | hl := hcs l keys' hl
    · exact lt_succ_self _
    · exact lt_succ_of_lt (hinv.lease_lt l keys' hl)
  · intro l l' k k' hne hl hl'
    obtain ⟨rfl, rfl⟩ | hl := hcs l k hl
    · obtain ⟨rfl, -⟩ | hl' := hcs l' k' hl'
      · exact absurd rfl hne
      · exact fun hcon => hnew l' k' hl' (pathsConflict_comm.1 hcon)
    · obtain ⟨rfl, rfl⟩ | hl' := hcs l' k' hl'
      · exact hnew l k hl
      · exact hinv.exclusive l l' k k' hne hl hl'
  · intro d l k hd hl
    rw [hdrp', hdrp] at hd
    cases hd

theorem LeasesInv.step (hinv : LeasesInv s) (hstep : Step root s a s') : LeasesInv s' := by
  cases hstep with
  | acquired _ _ _ _ hdrp hfree => exact hinv.grant hfree hdrp rfl rfl rfl
  | dropRemove hls hdrp =>
    refine ⟨?_, ?_, ?_⟩
    · exact fun l keys hl => hinv.lease_lt l keys (lookup_of_lookup_erase hl).2
    · exact fun l l' keys keys' hne hl hl' => hinv.exclusive l l' keys keys' hne
        (lookup_of_lookup_erase hl).2 (lookup_of_lookup_erase hl').2
    · rintro d l keys ⟨⟩ hl
      obtain ⟨hne, hl⟩ := lookup_of_lookup_erase hl
      exact hinv.exclusive _ l _ keys hne.symm hls hl
  | dropAdvance hdrp =>
    refine ⟨hinv.lease_lt, hinv.exclusive, ?_⟩
    rintro d l keys ⟨⟩ hl
    exact hinv.exclusive_drop (.removed _) l keys hdrp hl
  | dropNotify => exact ⟨hinv.lease_lt, hinv.exclusive, by simp⟩
  | _ => exact ⟨hinv.lease_lt, hinv.exclusive, hinv.exclusive_drop⟩

end DufsRam.PathCoordinator
