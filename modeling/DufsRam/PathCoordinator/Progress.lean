import DufsRam.PathCoordinator.Guarantees

/-!
# The first waiter gets through

Requests that do not move hold nobody up: while no lease is held, the first waiter is granted its
lease by moves of its own.
-/

namespace DufsRam.PathCoordinator

open AList PathCoordinator.System

/-- What the call does next; only the end of a resolution depends on its result. -/
def Request.move (i : ℕ) (r : Request) (result : Option ResolvedPathKey) : Option Action :=
  match r.phase with
  | .registering => some (.insert i)
  | .polling => some (.observe i)
  | .observed => some (.loadEpoch i)
  | .loaded _ => some (.markResolving i)
  | .resolving _ keys false =>
    some (if keys.length < r.lexical.length then .startResolve i else .conclude i)
  | .resolving _ _ true => some (.finishResolve i result)
  | .ready _ => some (.tryAcquire i)
  | .parked => some (.wake i)
  | .granted _ | .cancelling | .finished => none

/-- The call moves on by itself. -/
def advance (root : FileIdentity) (i : ℕ) (s : System) (result : Option ResolvedPathKey) : System :=
  (((s.requests i).bind (·.move i result)).bind (step root s)).getD s

def Granted (s : System) (i : ℕ) : Prop := ∃ r l, s.requests i = some r ∧ r.phase = .granted l

/-- The call holds a lease after so many moves, whatever its resolutions give. -/
def GrantedAfter (root : FileIdentity) (i n : ℕ) (s : System) : Prop :=
  ∀ results : List (Option ResolvedPathKey), n ≤ results.length →
    Granted (results.foldl (advance root i) s) i

/-- The request is the first waiter, and no lease is held. -/
structure First (s : System) (i : ℕ) (r : Request) : Prop where
  request : s.requests i = some r
  mem : i ∈ s.waiters
  first : ∀ j ∈ s.waiters, i ≤ j
  free : ¬ s.Held

variable {s : System} {i n : ℕ} {r : Request} {root : FileIdentity}

lemma Granted.after (h : Granted s i) : GrantedAfter root i n s := by
  rintro results -
  induction results with
  | nil => exact h
  | cons result results ih =>
    obtain ⟨r, l, hr, hph⟩ := h
    simpa [advance, hr, Request.move, hph] using ih

lemma GrantedAfter.move (h : ∀ result, GrantedAfter root i n (advance root i s result)) :
    GrantedAfter root i (n + 1) s
  | [], hle => by simp at hle
  | result :: results, hle => h result results (Nat.le_of_succ_le_succ hle)

namespace First

lemma setRequest (h : First s i r) (r' : Request) : First (s.setRequest i r') i r' :=
  ⟨by simp [setRequest_requests], h.mem, h.first, h.free⟩

lemma insert (h : First s i r) (w : WaiterState) :
    First { s with waiters := s.waiters.insert i w } i r where
  __ := h
  mem := (mem_insert _).2 (.inl rfl)
  first j hj := ((mem_insert _).1 hj).elim (fun heq => Nat.le_of_eq heq.symm) (h.first j)

lemma not_earlierWaiting (h : First s i r) : ¬ s.EarlierWaiting i := by
  rintro ⟨j, hj, hmem⟩
  exact absurd (h.first j hmem) (Nat.not_le_of_lt hj)

lemma ready {e : ℕ} {keys : List LeaseKey} (h : First s i r) (hph : r.phase = .ready s.leaseEpoch)
    (hres : r.resolved = some (e, keys)) : GrantedAfter root i (n + 1) s := by
  obtain ⟨w, hw⟩ := Option.isSome_iff_exists.1 (lookup_isSome.2 h.mem)
  have hdrp : s.dropping = none := by_contra fun hdrp => h.free (.inr hdrp)
  have hblk : ¬ s.blocked i keys := fun hblk =>
    (Held.of_blocked hblk).elim h.free h.not_earlierWaiting
  refine .move fun _ => Granted.after ?_
  simp [Granted, advance, Request.move, h.request, hph, step, acquire, onRequest, hres, hdrp,
    tryAcquire, hw, hblk, afterAttempt, setRequest_requests]

/-- By induction on the paths that are left. -/
lemma resolving {k : ℕ} {keys : List LeaseKey} (h : First s i r)
    (hph : r.phase = .resolving s.leaseEpoch keys false)
    (hlen : keys.length + k = r.lexical.length) : GrantedAfter root i (2 * k + 2) s := by
  induction k generalizing s r keys with
  | zero =>
    refine .move fun _ => ?_
    simp only [advance, Request.move, h.request, hph, ← hlen, step, conclude, onRequest,
      Option.bind_some, Nat.add_zero, lt_irrefl, if_true, if_false, Option.getD_some]
    exact (h.setRequest _).ready rfl rfl
  | succ k ih =>
    refine .move fun _ => .move fun result => ?_
    have hlt : keys.length < r.lexical.length := by omega
    simp only [advance, Request.move, h.request, hph, hlt, step, startResolve, finishResolve,
      onRequest, Option.bind_some, if_true, Option.getD_some, setRequest_requests,
      List.getElem?_eq_getElem hlt, Option.map_some]
    exact ih ((h.setRequest _).setRequest _) rfl (by simp; omega)

lemma loaded (h : First s i r) (hph : r.phase = .loaded s.leaseEpoch) :
    GrantedAfter root i (2 * r.lexical.length + 3) s := by
  have hblk : ¬ s.blockedByEarlier i r.lexical (r.resolved.map Prod.snd) := fun hblk =>
    h.not_earlierWaiting (.of_blockedByEarlier hblk)
  refine .move fun _ => ?_
  simp only [advance, Request.move, h.request, hph, step, markResolving, onRequest, hblk, setWaiter,
    h.mem, Option.bind_some, if_true, if_false]
  split_ifs with hres
  · -- the keys at hand are of this epoch
    obtain ⟨⟨e, keys⟩, hres, -⟩ := Option.map_eq_some_iff.1 hres
    exact (h.setRequest _).ready rfl hres
  · exact ((h.insert _).setRequest _).resolving rfl (Nat.zero_add _)

lemma polling (h : First s i r) (hph : r.phase = .polling) :
    GrantedAfter root i (2 * r.lexical.length + 5) s := by
  refine .move fun _ => .move fun _ => ?_
  simp only [advance, Request.move, h.request, hph, step, observe, loadEpoch, onRequest,
    Option.bind_some, if_true, Option.getD_some, setRequest_requests]
  exact ((h.setRequest _).setRequest
    { r with phase := .loaded s.leaseEpoch, seen := s.changes }).loaded rfl

end First

section Run

variable (root : FileIdentity) (schedule : ℕ → Action)

/-- While no lease is held and no registration drop is outstanding, the first waiter, parked or at
the top of its loop, is granted its lease after so many moves, whatever its resolutions give. -/
theorem first_waiter_granted (n i : ℕ) (h : First ((machine root).run schedule n) i r)
    (hph : r.phase = .parked ∨ r.phase = .polling)
    (hsettled : ¬ ((machine root).run schedule n).Cancelling) :
    GrantedAfter root i (2 * r.lexical.length + 6) ((machine root).run schedule n) := by
  obtain hph | hph := hph
  · -- it is not parked on this version
    have hseen : r.seen ≠ ((machine root).run schedule n).changes := fun hseen => by
      obtain hheld | hearlier | hcancelling := (run_inv root schedule n).wake i
        ⟨r, h.request, hph, hseen⟩
      · exact h.free hheld
      · exact h.not_earlierWaiting hearlier
      · exact hsettled hcancelling
    refine .move fun _ => ?_
    simp only [advance, Request.move, h.request, hph, step, wake, onRequest, hseen, ne_eq,
      not_false_eq_true, Option.bind_some, if_true, Option.getD_some]
    exact (h.setRequest { r with phase := .polling, seen := _ }).polling rfl
  · exact fun results hle => h.polling hph results (Nat.le_of_succ_le hle)

/-- The third request is parked when both leases are dropped. -/
theorem first_waiter_granted_sample : GrantedAfter ⟨1, 2⟩ 3 8 (sampleRun 38) := by
  have hstate : (sampleRun 38).leases.keys = [] ∧ (sampleRun 38).dropping = none ∧
      3 ∈ (sampleRun 38).waiters ∧ ∀ j ∈ (sampleRun 38).waiters.keys, 3 ≤ j := by decide +kernel
  obtain ⟨hleases, hdropping, hmem, hfirst⟩ := hstate
  refine first_waiter_granted (r := ⟨[["a"]], .parked, 3, some (0, [⟨["a"], rootEntry "a"⟩]), 0⟩)
    ⟨1, 2⟩ _ 38 3 ⟨by decide +kernel, hmem, hfirst, ?_⟩ (.inl rfl) ?_
  · rintro (⟨l, hl⟩ | hdrop)
    · have hkeys : l ∈ (sampleRun 38).leases.keys := mem_keys.1 hl
      simp [hleases] at hkeys
    · exact hdrop hdropping
  · exact not_cancelling_sampleRun (by decide +kernel) (by decide +kernel)

end Run

end DufsRam.PathCoordinator
