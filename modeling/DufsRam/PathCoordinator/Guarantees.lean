import DufsRam.PathCoordinator.Invariants

/-!
# What the path coordinator guarantees

Along every schedule: leases that are held at the same time do not conflict, the keys of a lease
were resolved after the last release before its grant, no request overtakes an earlier one whose
paths overlap, and no waiter stays parked while nothing holds it back.
-/

namespace DufsRam.PathCoordinator

open Transition.Machine Option AList List

/-! ### Wakeups -/

/-- A lease is held: it is in the map, or its drop has not returned yet. -/
def System.Held (s : System) : Prop := (∃ l, l ∈ s.leases) ∨ s.dropping ≠ none

def System.EarlierWaiting (s : System) (i : ℕ) : Prop := ∃ j < i, j ∈ s.waiters

/-- A registration drop is between the removal of its waiter and its version bump. -/
def System.Cancelling (s : System) : Prop :=
  ∃ j r, s.requests j = some r ∧ r.phase = .cancelling

/-- A request is parked and has seen the current change version. -/
def System.Parked (s : System) (i : ℕ) : Prop :=
  ∃ r, s.requests i = some r ∧ r.phase = .parked ∧ r.seen = s.changes

/-- A request that is parked on the current version has something to wait for. -/
def WakeInv (s : System) : Prop :=
  ∀ i, s.Parked i → s.Held ∨ s.EarlierWaiting i ∨ s.Cancelling

variable {i j l n : ℕ} {s s' s₀ : System} {keys : List LeaseKey} {r r' : Request} {a : Action}
  {root : FileIdentity}

lemma System.EarlierWaiting.of_earlierWaiter {p : WaiterState → Prop} (h : s.earlierWaiter i p) :
    s.EarlierWaiting i := by
  obtain ⟨⟨j, w⟩, hmem, hlt, -⟩ := h
  refine ⟨j, hlt, lookup_isSome.1 ?_⟩
  rw [mem_def.1 (mem_lookup_iff.2 hmem), isSome_some]

lemma System.EarlierWaiting.of_blockedByEarlier {lexical : List RelPath}
    {prev : Option (List LeaseKey)} (h : s.blockedByEarlier i lexical prev) :
    s.EarlierWaiting i := by
  cases prev with
  | none => exact .of_earlierWaiter (p := fun w => waiterLexicallyConflicts w lexical) h
  | some keys => exact .of_earlierWaiter (p := fun w => waiterConflicts w keys) h

lemma System.Held.of_blocked (h : s.blocked i keys) : s.Held ∨ s.EarlierWaiting i := by
  obtain ⟨⟨l, held⟩, hmem, -⟩ | h := h
  · refine .inl (.inl ⟨l, lookup_isSome.1 ?_⟩)
    rw [mem_def.1 (mem_lookup_iff.2 hmem), isSome_some]
  · exact .inr (.of_earlierWaiter h)

/-- A version bump wakes every parked request. -/
lemma not_parked_of_bump (hreq : RequestsInv s) (hr : s.requests i = some r)
    (hbump : s'.changes = s.changes + 1) : r.seen ≠ s'.changes := by
  have := (hreq i r hr).2.seen_le
  omega

/-- A step of one request that parks nobody, removes no waiter and no lease keeps the reasons the
other requests have to wait. -/
lemma WakeInv.setRequest (hinv : WakeInv s) (hr : s.requests i = some r)
    (hph : r.phase ≠ .cancelling) (hreqs : s₀.requests = s.requests)
    (hchgs : s₀.changes = s.changes) (hlss : s₀.leases = s.leases)
    (hdrp : s₀.dropping = s.dropping) (hwtrs : ∀ j, j ∈ s.waiters → j ∈ s₀.waiters)
    (hself : r'.phase = .parked → s₀.Held ∨ s₀.EarlierWaiting i) :
    WakeInv (s₀.setRequest i r') := by
  rintro j ⟨rj, hj, hprk, hseen⟩
  obtain ⟨rfl, rfl⟩ | ⟨hji, hj⟩ := System.setRequest_cases hj
  · exact (hself hprk).imp_right .inl
  · rw [hreqs] at hj
    rw [System.setRequest_changes, hchgs] at hseen
    obtain hheld | ⟨k, hk, hmem⟩ | ⟨k, rk, hrk, hcanc⟩ := hinv j ⟨rj, hj, hprk, hseen⟩
    · left
      rw [System.Held] at hheld ⊢
      rwa [System.setRequest_leases, System.setRequest_dropping, hlss, hdrp]
    · exact .inr (.inl ⟨k, hk, hwtrs k hmem⟩)
    · refine .inr (.inr ⟨k, rk, ?_, hcanc⟩)
      rw [System.setRequest_requests, hreqs, if_neg, hrk]
      rintro rfl
      cases hr.symm.trans hrk
      exact hph hcanc

lemma LocalStep.phase_ne (h : LocalStep root s i r a r') : r.phase ≠ .cancelling := by
  cases h <;> simp [*]

/-- A local step parks a request only behind an earlier waiter. -/
lemma LocalStep.parked (h : LocalStep root s i r a r')
    (hprk : r'.phase = .parked) : s.EarlierWaiting i := by
  cases h with
  | ineligible _ hblk => exact .of_blockedByEarlier hblk
  | _ => simp_all

lemma System.mem_setWaiter {w : WaiterState} (h : j ∈ s.waiters) : j ∈ s.setWaiter i w := by
  unfold System.setWaiter
  split_ifs
  · exact (mem_insert _).2 (.inr h)
  · exact h

theorem WakeInv.step (hreq : RequestsInv s) (hinv : WakeInv s)
    (hstep : Step root s a s') : WakeInv s' := by
  cases hstep with
  | register h =>
    rintro j ⟨rj, hj, hprk, hseen⟩
    obtain ⟨rfl, rfl⟩ | ⟨hji, hj⟩ := System.setRequest_cases hj
    · cases hprk
    · obtain hheld | hearl | ⟨k, rk, hrk, hcanc⟩ := hinv j ⟨rj, hj, hprk, hseen⟩
      · exact .inl hheld
      · exact .inr (.inl hearl)
      · refine .inr (.inr ⟨k, rk, ?_, hcanc⟩)
        rw [System.setRequest_requests, if_neg (hreq k rk hrk).1.ne]
        exact hrk
  | insert hr h =>
    exact hinv.setRequest hr (by simp [h]) rfl rfl rfl rfl
      (fun j hj => (mem_insert _).2 (.inr hj)) (by simp)
  | request hr h =>
    exact hinv.setRequest hr h.phase_ne rfl rfl rfl rfl (fun j hj => hj) fun hp =>
      .inr (h.parked hp)
  | eligible hr h =>
    exact hinv.setRequest hr (by simp [h]) rfl rfl rfl rfl (fun j hj => System.mem_setWaiter hj)
      (by simp)
  | @blocked i r epoch e keys waiter becameResolved hr h hrsl hwt hblk =>
    have hrsn : ({ s with waiters := s.setWaiter i (.resolved keys) } : System).Held ∨
        ({ s with waiters := s.setWaiter i (.resolved keys) } : System).EarlierWaiting i := by
      obtain hheld | ⟨j, hj, hmem⟩ := System.Held.of_blocked hblk
      · exact .inl hheld
      · exact .inr ⟨j, hj, System.mem_setWaiter hmem⟩
    cases becameResolved with
    | false =>
      exact hinv.setRequest hr (by simp [h]) rfl rfl rfl rfl (fun j hj => System.mem_setWaiter hj)
        fun _ => hrsn
    | true =>
      -- every other request has seen an older version
      rintro j ⟨rj, hj, hprk, hseen⟩
      obtain ⟨rfl, rfl⟩ | ⟨hji, hj⟩ := System.setRequest_cases hj
      · exact hrsn.imp_right .inl
      · exact absurd hseen (not_parked_of_bump hreq hj rfl)
  | acquired | cancelNotify =>
    rintro j ⟨rj, hj, hprk, hseen⟩
    obtain ⟨rfl, rfl⟩ | ⟨hji, hj⟩ := System.setRequest_cases hj
    · cases hprk
    · exact absurd hseen (not_parked_of_bump hreq hj rfl)
  | @cancel i r hr h =>
    by_cases hmem : i ∈ s.waiters
    · -- the version bump of this drop is outstanding
      rintro j -
      refine .inr (.inr ⟨i, { r with phase := .cancelling }, ?_, rfl⟩)
      rw [System.setRequest_requests, if_pos rfl, if_pos hmem]
    · refine hinv.setRequest hr ?_ rfl rfl rfl rfl ?_ ?_
      · intro hcanc
        simp [hcanc, Phase.cancellable] at h
      · intro j hj
        refine mem_erase.2 ⟨?_, hj⟩
        rintro rfl
        exact hmem hj
      · rw [if_neg hmem]
        simp
  | dropRemove | dropAdvance => exact fun i _ => .inl (.inr (by simp))
  | dropNotify =>
    rintro j ⟨rj, hj, hprk, hseen⟩
    exact absurd hseen (not_parked_of_bump hreq hj rfl)

/-! ### Reachable states -/

/-- All invariants together. -/
structure Inv (s : System) : Prop where
  requests : RequestsInv s
  waiters : WaitersInv s
  leases : LeasesInv s
  wake : WakeInv s

lemma inv_new : Inv System.new where
  requests i r h := by cases h
  waiters i w h := by cases h
  leases := {
    lease_lt l keys h := by cases h
    exclusive l l' keys keys' _ h := by cases h
    exclusive_drop d l keys h := by cases h }
  wake i h := by
    obtain ⟨r, hr, -⟩ := h
    cases hr

lemma Inv.step (h : Inv s) (hstep : Step root s a s') : Inv s' where
  requests := h.requests.step hstep
  waiters := h.waiters.step h.requests hstep
  leases := h.leases.step hstep
  wake := h.wake.step h.requests hstep

theorem run_inv (root : FileIdentity) (schedule : ℕ → Action) (n : ℕ) :
    Inv ((machine root).run schedule n) :=
  run_invariant inv_new (fun _ _ _ h hstep => h.step (step_cases hstep)) n

/-! ### Grants -/

/-- The next attempt of the request `i` is granted the lease `l` with the given keys. -/
def Grants (root : FileIdentity) (s : System) (i l : ℕ) (keys : List LeaseKey) : Prop :=
  ∃ s' r', step root s (.tryAcquire i) = some s' ∧ s'.requests i = some r' ∧
    r'.phase = .granted l ∧ s'.leases.lookup l = some keys

/-- A grant can be read off the state after the attempt. -/
lemma Grants.of_step
    (h : ((step root s (.tryAcquire i)).bind fun s' => (s'.requests i).map fun r' =>
      (r'.phase, s'.leases.lookup l)) = some (.granted l, some keys)) : Grants root s i l keys := by
  obtain ⟨s', hstep, h⟩ := bind_eq_some_iff.1 h
  obtain ⟨r', hr', h⟩ := map_eq_some_iff.1 h
  cases hph : r'.phase <;> simp_all [Grants]

/-- What `try_acquire` has checked when it grants a lease. -/
lemma Grants.checked (h : Grants root s i l keys) :
    ∃ r e, s.requests i = some r ∧ r.phase = .ready s.leaseEpoch ∧
      r.resolved = some (e, keys) ∧ s.dropping = none ∧ ¬ s.blocked i keys := by
  obtain ⟨s', r', hstep, hr', hph, hls⟩ := h
  cases step_cases hstep with
  | request hr h =>
    cases h with
    | stale =>
      rw [System.setRequest_requests, if_pos rfl] at hr'
      cases hr'
      cases hph
  | blocked hr h hrsl hwt hblk =>
    rw [System.setRequest_requests, if_pos rfl] at hr'
    cases hr'
    cases hph
  | acquired hr h hrsl hepoch hdrp hfree =>
    rw [System.setRequest_requests, if_pos rfl] at hr'
    cases hr'
    cases hph
    rw [System.setRequest_leases, lookup_insert] at hls
    cases hls
    exact ⟨_, _, hr, hepoch ▸ h, hrsl, hdrp, hfree⟩

/-! ### Freshness of the keys -/

/-- The request has keys, or has begun to resolve the first one. -/
def Request.HasStarted (r : Request) : Prop :=
  r.resolved ≠ none ∨
    ∃ e keys inFlight, r.phase = .resolving e keys inFlight ∧ (keys ≠ [] ∨ inFlight = true)

/-- The request `i` begins to resolve the first of its keys. -/
def StartsFirst (s : System) (i : ℕ) : Prop :=
  ∃ r epoch, s.requests i = some r ∧ r.phase = .resolving epoch [] false

lemma LocalStep.since (h : LocalStep root s i r a r') (hwf : r.Wf s)
    (hsta : r'.HasStarted) : (a = .startResolve i ∧ (∃ epoch, r.phase = .resolving epoch [] false) ∧
      r'.since = s.released) ∨ (r.HasStarted ∧ r'.since = r.since ∧
      ¬ (a = .startResolve i ∧ ∃ epoch, r.phase = .resolving epoch [] false)) := by
  cases h with
  | @startResolve epoch keys hph hlen =>
    by_cases hfst : keys = []
    · subst hfst
      exact .inl ⟨rfl, ⟨epoch, hph⟩, by simp⟩
    · refine .inr ⟨.inr ⟨epoch, keys, false, hph, .inl hfst⟩, by simp [hfst], ?_⟩
      rintro ⟨-, epoch', hph'⟩
      cases hph.symm.trans hph'
      exact hfst rfl
  | finishResolve hph =>
    exact .inr ⟨.inr ⟨_, _, true, hph, .inr rfl⟩, rfl, by simp⟩
  | conclude hph hlen =>
    refine .inr ⟨.inr ⟨_, _, false, hph, .inl ?_⟩, rfl, by simp⟩
    rintro rfl
    exact hwf.lexical_ne (length_eq_zero_iff.1 hlen.symm)
  | _ => exact .inr ⟨.inl (by simpa [Request.HasStarted] using hsta), rfl, by simp⟩

/-- A request that moves on with the keys it has keeps their age, and so do all others. -/
lemma kept_since {r₁ : Request} (hr : s.requests j = some r)
    (hr' : (s₀.setRequest j r₁).requests i = some r') (hsta : r'.HasStarted)
    (hreqs : s₀.requests = s.requests) (hsince : r₁.since = r.since)
    (hsts : r₁.HasStarted → r.HasStarted) :
    ∃ r, s.requests i = some r ∧ r.HasStarted ∧ r'.since = r.since := by
  obtain ⟨rfl, rfl⟩ | ⟨-, hri⟩ := System.setRequest_cases hr'
  · exact ⟨r, hr, hsts hsta, hsince⟩
  · exact ⟨r', hreqs ▸ hri, hsta, rfl⟩

/-- A phase without keys leaves only the resolved ones. -/
lemma Request.HasStarted.of_resolved (h : r'.HasStarted)
    (hph : ∀ e keys inFlight, r'.phase = .resolving e keys inFlight →
      keys = [] ∧ inFlight = false) (hrsl : r'.resolved = r.resolved) : r.HasStarted := by
  obtain h | ⟨e, keys, inFlight, hr, h⟩ := h
  · exact .inl (hrsl ▸ h)
  · obtain ⟨rfl, rfl⟩ := hph e keys inFlight hr
    simp at h

/-- A step starts the first resolution of `i`, or the keys of `i` are as old as before. -/
lemma Step.since (hstep : Step root s a s') (hinv : Inv s) (hr' : s'.requests i = some r')
    (hsta : r'.HasStarted) : (a = .startResolve i ∧ StartsFirst s i ∧ r'.since = s.released) ∨
    ((∃ r, s.requests i = some r ∧ r.HasStarted ∧ r'.since = r.since) ∧
      ¬ (a = .startResolve i ∧ StartsFirst s i)) := by
  cases hstep with
  | @request j r a r₁ hr h =>
    obtain ⟨rfl, rfl⟩ | ⟨hij, hri⟩ := System.setRequest_cases hr'
    · obtain ⟨ha, ⟨epoch, hph⟩, hsince⟩ | ⟨hs, hsince, hnot⟩ :=
        h.since (hinv.requests _ _ hr).2 hsta
      · exact .inl ⟨ha, ⟨r, epoch, hr, hph⟩, hsince⟩
      · refine .inr ⟨⟨r, hr, hs, hsince⟩, ?_⟩
        rintro ⟨ha, r₀, epoch, hr₀, hph⟩
        cases hr.symm.trans hr₀
        exact hnot ⟨ha, epoch, hph⟩
    · refine .inr ⟨⟨r', hri, hsta, rfl⟩, ?_⟩
      rintro ⟨rfl, -⟩
      cases h
      exact hij rfl
  | register =>
    obtain ⟨rfl, rfl⟩ | ⟨-, hri⟩ := System.setRequest_cases hr'
    · simp [Request.HasStarted] at hsta
    · exact .inr ⟨⟨r', hri, hsta, rfl⟩, by simp⟩
  | insert hr | blocked hr | acquired hr | cancelNotify hr =>
    exact .inr ⟨kept_since hr hr' hsta rfl rfl fun h => h.of_resolved (by simp) rfl, by simp⟩
  | eligible hr =>
    refine .inr ⟨kept_since hr hr' hsta rfl rfl fun h => h.of_resolved ?_ rfl, by simp⟩
    rintro e keys inFlight ⟨⟩
    exact ⟨rfl, rfl⟩
  | cancel hr =>
    refine .inr ⟨kept_since hr hr' hsta rfl rfl fun h => h.of_resolved ?_ rfl, by simp⟩
    intro e keys inFlight hph
    split_ifs at hph
  | dropRemove | dropAdvance | dropNotify => exact .inr ⟨⟨r', hr', hsta, rfl⟩, by simp⟩

section Run

variable (root : FileIdentity) (schedule : ℕ → Action)

/-- The `m`-th action starts the first key resolution of the request `i`. -/
def StartsFirstAt (m i : ℕ) : Prop :=
  schedule m = .startResolve i ∧ StartsFirst ((machine root).run schedule m) i

/-- The `m`-th action releases a lease. -/
def ReleasesAt (m : ℕ) : Prop :=
  ∃ lease s', schedule m = .dropRemove lease ∧
    step root ((machine root).run schedule m) (.dropRemove lease) = some s'

/-- The last start of a first resolution of `i` before the `n`-th action, when `count` leases had
been released. -/
def ResolvedSince (n i count : ℕ) : Prop :=
  ∃ m < n, StartsFirstAt root schedule m i ∧ count = ((machine root).run schedule m).released ∧
    ∀ m', m < m' → m' < n → ¬ StartsFirstAt root schedule m' i

variable {root schedule}

lemma ResolvedSince.succ {count : ℕ} (h : ResolvedSince root schedule n i count)
    (hnot : ¬ StartsFirstAt root schedule n i) : ResolvedSince root schedule (n + 1) i count := by
  obtain ⟨m, hm, hfst, hcount, hlast⟩ := h
  refine ⟨m, Nat.lt_succ_of_lt hm, hfst, hcount, fun m' hmm' hm' => ?_⟩
  obtain hm' | rfl := Nat.lt_succ_iff_lt_or_eq.1 hm'
  · exact hlast m' hmm' hm'
  · exact hnot

/-- Starting the first resolution is always possible in the phase for it. -/
lemma StartsFirst.enabled (root : FileIdentity) (h : StartsFirst s i) (hinv : Inv s) :
    ∃ s', step root s (.startResolve i) = some s' := by
  obtain ⟨r, epoch, hr, hph⟩ := h
  have hlen : ([] : List LeaseKey).length < r.lexical.length :=
    length_pos_of_ne_nil (hinv.requests i r hr).2.lexical_ne
  simp only [step, System.startResolve, System.onRequest, hr, bind_some, hph, hlen, ↓reduceIte]
  exact ⟨_, rfl⟩

/-- The keys of a request began to resolve at the last start of a first resolution. -/
lemma resolvedSince (hr : ((machine root).run schedule n).requests i = some r)
    (hsta : r.HasStarted) : ResolvedSince root schedule n i r.since := by
  induction n generalizing r with
  | zero => cases hr
  | succ n ih =>
    have hinv := run_inv root schedule n
    cases hstep : step root ((machine root).run schedule n) (schedule n) with
    | none =>
      have hsame : (machine root).run schedule (n + 1) = (machine root).run schedule n := by
        simp only [run, exec, machine] at hstep ⊢
        rw [hstep, getD_none]
      rw [hsame] at hr
      refine (ih hr hsta).succ ?_
      rintro ⟨hact, hfst⟩
      obtain ⟨s', hs'⟩ := hfst.enabled root hinv
      rw [hact, hs'] at hstep
      cases hstep
    | some s' =>
      rw [run_succ_of_step (M := machine root) hstep] at hr
      obtain ⟨hact, hfst, hsince⟩ | ⟨⟨r₀, hr₀, hs, hsince⟩, hnot⟩ :=
        (step_cases hstep).since hinv hr hsta
      · exact ⟨n, Nat.lt_succ_self n, ⟨hact, hfst⟩, hsince, fun m' h h' => by omega⟩
      · exact hsince ▸ (ih hr₀ hs).succ hnot

/-- Between two moments with the same count no lease was released. -/
lemma not_releasesAt {m : ℕ} (hmj : m ≤ j) (hjn : j < n)
    (h : ((machine root).run schedule m).released = ((machine root).run schedule n).released) :
    ¬ ReleasesAt root schedule j := by
  rintro ⟨lease, s', hact, hstep⟩
  have hmono : Monotone fun k => ((machine root).run schedule k).released :=
    run_monotone fun _ _ _ hs => (step_cases hs).counters_le.2.2
  have hlt := (step_cases hstep).released_lt
  have hnext : (machine root).run schedule (j + 1) = s' :=
    run_succ_of_step (by rw [hact]; exact hstep)
  have h1 := hmono hmj
  have h2 := hmono (Nat.succ_le_of_lt hjn)
  simp only [Nat.succ_eq_add_one, hnext] at h1 h2
  omega

end Run

/-! ### A sample schedule -/

/-- The key of an entry of the root that is not a directory. -/
def rootEntry (name : String) : ResolvedPathKey := ⟨⟨1, 2⟩, [name], [⟨1, 2⟩], none⟩

/-- The steps of the request `i` from its registration into the waiter map on. -/
def registerSteps (i : ℕ) (name : String) : List Action := [.register [[name]], .insert i]

/-- The steps of the request `i` through its first attempt. -/
def attemptSteps (i : ℕ) (name : String) : List Action :=
  [.observe i, .loadEpoch i, .markResolving i, .startResolve i,
    .finishResolve i (some (rootEntry name)), .conclude i, .tryAcquire i]

/-- The second request gets its lease while the first one waits, then the first one does, and a
third one parks behind it, until both leases are dropped. -/
def sampleActions : List Action :=
  registerSteps 1 "a" ++ registerSteps 2 "b" ++ attemptSteps 2 "b" ++ attemptSteps 1 "a" ++
    registerSteps 3 "a" ++ attemptSteps 3 "a" ++
    [.wake 3, .observe 3, .loadEpoch 3, .markResolving 3, .tryAcquire 3,
      .dropRemove 1, .dropAdvance, .dropNotify, .dropRemove 2, .dropAdvance, .dropNotify]

/-- The sample, followed by actions that are not enabled. -/
def sampleRun (n : ℕ) : System :=
  (machine ⟨1, 2⟩).run (fun n => sampleActions.getD n .dropNotify) n

/-! ### The guarantees -/

section Guarantees

variable (root : FileIdentity) (schedule : ℕ → Action)

/-- Leases that are held at the same time, one that is being dropped included, have no conflicting
keys; and no lease was released since the first key of a granted lease began to resolve. -/
theorem leases_exclusive_and_fresh (n : ℕ) : (∀ l l' keys keys', l ≠ l' →
      ((machine root).run schedule n).leases.lookup l = some keys →
      ((machine root).run schedule n).leases.lookup l' = some keys' →
      ∀ k ∈ keys, ∀ k' ∈ keys', ¬ pathKeysConflict k k') ∧
    (∀ d l keys, ((machine root).run schedule n).dropping = some d →
      ((machine root).run schedule n).leases.lookup l = some keys →
      ∀ k ∈ d.keys, ∀ k' ∈ keys, ¬ pathKeysConflict k k') ∧
    (∀ i l keys, Grants root ((machine root).run schedule n) i l keys →
      ∃ m < n, StartsFirstAt root schedule m i ∧
        (∀ m', m < m' → m' < n → ¬ StartsFirstAt root schedule m' i) ∧
        ∀ j, m ≤ j → j < n → ¬ ReleasesAt root schedule j) := by
  have hinv := run_inv root schedule n
  refine ⟨?_, ?_, ?_⟩
  · intro l l' keys keys' hne hl hl' k hk k' hk' hconflict
    exact hinv.leases.exclusive l l' keys keys' hne hl hl' ⟨k, hk, k', hk', hconflict⟩
  · intro d l keys hd hl k hk k' hk' hconflict
    exact hinv.leases.exclusive_drop d l keys hd hl ⟨k, hk, k', hk', hconflict⟩
  · intro i l keys hgrants
    obtain ⟨r, e, hr, hphase, hresolved, hdropping, -⟩ := hgrants.checked
    have hwf := (hinv.requests i r hr).2
    obtain ⟨keys', hready⟩ := hwf.ready_keys _ hphase
    -- the epoch that the keys were resolved under is the number of all releases
    have hall : ((machine root).run schedule n).released =
        ((machine root).run schedule n).leaseEpoch := by
      simp [System.released, hdropping]
    have hsince : r.since = ((machine root).run schedule n).released :=
      le_antisymm hwf.since_le (hall ▸ (hwf.resolved_keys _ _ hready).2)
    obtain ⟨m, hm, hfirst, hcount, hlast⟩ := resolvedSince hr (.inl (by simp [hresolved]))
    exact ⟨m, hm, hfirst, hlast, fun j hmj hjn => not_releasesAt hmj hjn (hcount ▸ hsince)⟩

theorem leases_exclusive_and_fresh_sample :
    ((sampleRun 18).leases.lookup 2 = some [⟨["a"], rootEntry "a"⟩] ∧
      (sampleRun 18).leases.lookup 1 = some [⟨["b"], rootEntry "b"⟩] ∧
      ¬ pathKeysConflict ⟨["a"], rootEntry "a"⟩ ⟨["b"], rootEntry "b"⟩) ∧
    Grants ⟨1, 2⟩ (sampleRun 17) 1 2 [⟨["a"], rootEntry "a"⟩] ∧
    ∃ m < 17, StartsFirstAt ⟨1, 2⟩ (fun n => sampleActions.getD n .dropNotify) m 1 ∧
      ∀ j, m ≤ j → j < 17 → ¬ ReleasesAt ⟨1, 2⟩ (fun n => sampleActions.getD n .dropNotify) j := by
  obtain ⟨hexclusive, -, -⟩ :=
    leases_exclusive_and_fresh ⟨1, 2⟩ (fun n => sampleActions.getD n .dropNotify) 18
  obtain ⟨-, -, hfresh⟩ :=
    leases_exclusive_and_fresh ⟨1, 2⟩ (fun n => sampleActions.getD n .dropNotify) 17
  have h1 : (sampleRun 18).leases.lookup 2 = some [⟨["a"], rootEntry "a"⟩] := by decide
  have h2 : (sampleRun 18).leases.lookup 1 = some [⟨["b"], rootEntry "b"⟩] := by decide
  have hgrants : Grants ⟨1, 2⟩ (sampleRun 17) 1 2 [⟨["a"], rootEntry "a"⟩] :=
    .of_step (by decide)
  refine ⟨⟨h1, h2, ?_⟩, hgrants, ?_⟩
  · exact hexclusive 2 1 _ _ (by decide) h1 h2 _ (mem_singleton_self _) _
      (mem_singleton_self _)
  · obtain ⟨m, hm, hfirst, -, hnone⟩ := hfresh 1 2 _ hgrants
    exact ⟨m, hm, hfirst, hnone⟩

/-- A lease is granted only when no earlier waiter has an overlapping path, and no earlier waiter
whose keys are resolved has a conflicting key. -/
theorem no_overtaking (n i l : ℕ) (keys : List LeaseKey) (r : Request)
    (hgrants : Grants root ((machine root).run schedule n) i l keys)
    (hr : ((machine root).run schedule n).requests i = some r) :
    ∀ j < i, ∀ w, ((machine root).run schedule n).waiters.lookup j = some w →
      (∃ r', ((machine root).run schedule n).requests j = some r' ∧
        ∀ p ∈ r'.lexical, ∀ q ∈ r.lexical, ¬ lexicalOverlap p q) ∧
      ∀ keys', w = .resolved keys' → ∀ k' ∈ keys', ∀ k ∈ keys, ¬ pathKeysConflict k' k := by
  have hinv := run_inv root schedule n
  intro j hj w hw
  obtain ⟨r₀, e, hr₀, -, hresolved, -, hfree⟩ := hgrants.checked
  cases hr.symm.trans hr₀
  -- the keys that were resolved are those of the paths
  have hlexical := ((hinv.requests i r hr).2.resolved_keys e keys hresolved).1
  have hnot : ¬ waiterConflicts w keys := fun hconflict =>
    hfree (.inr ⟨⟨j, w⟩, mem_lookup_iff.1 hw, hj, hconflict⟩)
  obtain ⟨r', hr', hdescribes⟩ := hinv.waiters j w hw
  refine ⟨⟨r', hr', ?_⟩, ?_⟩
  · intro p hp q hq hoverlap
    rw [← hlexical] at hq
    obtain ⟨k, hk, rfl⟩ := mem_map.1 hq
    cases w with
    | resolving paths =>
      subst hdescribes
      exact hnot ⟨p, hp, k, hk, hoverlap⟩
    | resolved keys' =>
      rw [← hdescribes] at hp
      obtain ⟨k', hk', rfl⟩ := mem_map.1 hp
      exact hnot ⟨k', hk', k, hk, .inl hoverlap⟩
  · rintro keys' rfl k' hk' k hk hconflict
    exact hnot ⟨k', hk', k, hk, hconflict⟩

theorem no_overtaking_sample :
    Grants ⟨1, 2⟩ (sampleRun 10) 2 1 [⟨["b"], rootEntry "b"⟩] ∧ 1 ∈ (sampleRun 10).waiters ∧
    ∃ r', (sampleRun 10).requests 1 = some r' ∧ ∀ p ∈ r'.lexical, ¬ lexicalOverlap p ["b"] := by
  have hgrants : Grants ⟨1, 2⟩ (sampleRun 10) 2 1 [⟨["b"], rootEntry "b"⟩] :=
    .of_step (by decide)
  have hr : (sampleRun 10).requests 2 =
      some ⟨[["b"]], .ready 0, 0, some (0, [⟨["b"], rootEntry "b"⟩]), 0⟩ := by decide
  have hw : (sampleRun 10).waiters.lookup 1 = some (.resolving [["a"]]) := by decide
  obtain ⟨⟨r', hr', hnone⟩, -⟩ := no_overtaking ⟨1, 2⟩
    (fun n => sampleActions.getD n .dropNotify) 10 2 1 _ _ hgrants hr 1 (by decide) _ hw
  exact ⟨hgrants, by decide, r', hr', fun p hp => hnone p hp _ (mem_singleton_self _)⟩

/-- A request that is parked on the current version, while no registration drop is outstanding,
waits for a lease that is held or for an earlier waiter; the first waiter waits for a lease. -/
theorem no_lost_wakeup (n i : ℕ) (hparked : ((machine root).run schedule n).Parked i)
    (hsettled : ¬ ((machine root).run schedule n).Cancelling) :
    (((machine root).run schedule n).Held ∨ ((machine root).run schedule n).EarlierWaiting i) ∧
    ((∀ j ∈ ((machine root).run schedule n).waiters, i ≤ j) →
      ((machine root).run schedule n).Held) := by
  have hreason : ((machine root).run schedule n).Held ∨
      ((machine root).run schedule n).EarlierWaiting i := by
    obtain hheld | hearlier | hcancelling := (run_inv root schedule n).wake i hparked
    · exact .inl hheld
    · exact .inr hearlier
    · exact absurd hcancelling hsettled
  refine ⟨hreason, fun hfirst => ?_⟩
  obtain hheld | ⟨j, hj, hmem⟩ := hreason
  · exact hheld
  · exact absurd (hfirst j hmem) (Nat.not_le_of_lt hj)

/-- The requests of the sample draw the identifiers below four. -/
lemma not_cancelling_sampleRun {n : ℕ} (hnext : (sampleRun n).nextWaiterId = 4)
    (hnone : ∀ j < 4, ((sampleRun n).requests j).map Request.phase ≠ some .cancelling) :
    ¬ (sampleRun n).Cancelling := by
  rintro ⟨j, r, hr, hphase⟩
  refine hnone j (((run_inv ⟨1, 2⟩ _ n).requests j r hr).1.trans_eq hnext) ?_
  rw [hr, map_some, hphase]

theorem no_lost_wakeup_sample :
    (sampleRun 32).Parked 3 ∧ ¬ (sampleRun 32).Cancelling ∧ (sampleRun 32).Held := by
  have hparked : (sampleRun 32).Parked 3 :=
    ⟨⟨[["a"]], .parked, 3, some (0, [⟨["a"], rootEntry "a"⟩]), 0⟩, by decide, rfl, by decide⟩
  have hsettled : ¬ (sampleRun 32).Cancelling :=
    not_cancelling_sampleRun (by decide) (by decide)
  refine ⟨hparked, hsettled, ?_⟩
  exact (no_lost_wakeup ⟨1, 2⟩ (fun n => sampleActions.getD n .dropNotify) 32 3 hparked
    hsettled).2 (by decide)

end Guarantees

end DufsRam.PathCoordinator
