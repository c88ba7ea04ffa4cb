import DufsRam.PathCoordinator.Basic

/-!
# What a step of the coordinator can do

`Step` lists every enabled step with its guard. The steps that only move one request on, without
touching the maps and counters, are grouped in `LocalStep`.
-/

namespace DufsRam.PathCoordinator

/-- The steps that change nothing but the request that takes them. -/
inductive LocalStep (root : FileIdentity) (s : System) (i : ℕ) (r : Request) :
    Action → Request → Prop
  | observe (h : r.phase = .polling) :
      LocalStep root s i r (.observe i) { r with phase := .observed, seen := s.changes }
  | loadEpoch (h : r.phase = .observed) :
      LocalStep root s i r (.loadEpoch i) { r with phase := .loaded s.leaseEpoch }
  | reuse {epoch keys} (h : r.phase = .loaded epoch) (hresolved : r.resolved = some (epoch, keys)) :
      LocalStep root s i r (.markResolving i) { r with phase := .ready epoch }
  | ineligible {epoch} (h : r.phase = .loaded epoch)
      (hblocked : s.blockedByEarlier i r.lexical (r.resolved.map Prod.snd)) :
      LocalStep root s i r (.markResolving i) { r with phase := .parked }
  | startResolve {epoch keys} (h : r.phase = .resolving epoch keys false)
      (hlength : keys.length < r.lexical.length) :
      LocalStep root s i r (.startResolve i)
        { r with
          phase := .resolving epoch keys true
          since := if keys = [] then s.released else r.since }
  | finishResolve {epoch keys lexical result} (h : r.phase = .resolving epoch keys true)
      (hlexical : r.lexical[keys.length]? = some lexical) :
      LocalStep root s i r (.finishResolve i result)
        { r with phase :=
            .resolving epoch (keys ++ [⟨lexical, result.getD (conservativePathKey root)⟩]) false }
  | conclude {epoch keys} (h : r.phase = .resolving epoch keys false)
      (hlength : keys.length = r.lexical.length) :
      LocalStep root s i r (.conclude i)
        { r with phase := .ready epoch, resolved := some (epoch, keys) }
  | stale {epoch} (h : r.phase = .ready epoch) :
      LocalStep root s i r (.tryAcquire i) { r with phase := .polling }
  | wake (h : r.phase = .parked) (hseen : r.seen ≠ s.changes) :
      LocalStep root s i r (.wake i) { r with phase := .polling, seen := s.changes }

/-- The enabled steps of the system. -/
inductive Step (root : FileIdentity) (s : System) : Action → System → Prop
  | register {paths} (h : paths ≠ []) :
      Step root s (.register paths)
        ({ s with nextWaiterId := s.nextWaiterId + 1 }.setRequest s.nextWaiterId
          ⟨sortPaths paths, .registering, 0, none, 0⟩)
  | insert {i r} (hr : s.requests i = some r) (h : r.phase = .registering) :
      Step root s (.insert i)
        ({ s with waiters := s.waiters.insert i (.resolving r.lexical) }.setRequest i
          { r with phase := .polling, seen := s.changes })
  | request {i r a r'} (hr : s.requests i = some r) (h : LocalStep root s i r a r') :
      Step root s a (s.setRequest i r')
  | eligible {i r epoch} (hr : s.requests i = some r) (h : r.phase = .loaded epoch) :
      Step root s (.markResolving i)
        ({ s with waiters := s.setWaiter i (.resolving r.lexical) }.setRequest i
          { r with phase := .resolving epoch [] false })
  | blocked {i r epoch e keys waiter} {becameResolved : Bool} (hr : s.requests i = some r)
      (h : r.phase = .ready epoch) (hresolved : r.resolved = some (e, keys))
      (hwaiter : s.waiters.lookup i = some waiter) (hblocked : s.blocked i keys) :
      Step root s (.tryAcquire i)
        ({ s with
          waiters := s.setWaiter i (.resolved keys)
          changes := if becameResolved then s.changes + 1 else s.changes }.setRequest i
            { r with phase := .parked })
  | acquired {i r epoch e keys} (hr : s.requests i = some r) (h : r.phase = .ready epoch)
      (hresolved : r.resolved = some (e, keys)) (hepoch : s.leaseEpoch = epoch)
      (hdropping : s.dropping = none) (hfree : ¬ s.blocked i keys) :
      Step root s (.tryAcquire i)
        ({ s with
          nextId := s.nextId + 1
          waiters := s.waiters.erase i
          leases := s.leases.insert s.nextId keys
          changes := s.changes + 1 }.setRequest i { r with phase := .granted s.nextId })
  | cancel {i r} (hr : s.requests i = some r) (h : r.phase.cancellable = true) :
      Step root s (.cancel i)
        ({ s with waiters := s.waiters.erase i }.setRequest i
          { r with phase := if i ∈ s.waiters then .cancelling else .finished })
  | cancelNotify {i r} (hr : s.requests i = some r) (h : r.phase = .cancelling) :
      Step root s (.cancelNotify i)
        ({ s with changes := s.changes + 1 }.setRequest i { r with phase := .finished })
  | dropRemove {lease keys} (hlease : s.leases.lookup lease = some keys)
      (hdropping : s.dropping = none) :
      Step root s (.dropRemove lease)
        { s with leases := s.leases.erase lease, dropping := some (.removed keys) }
  | dropAdvance {keys} (hdropping : s.dropping = some (.removed keys)) :
      Step root s .dropAdvance
        { s with leaseEpoch := s.leaseEpoch + 1, dropping := some (.advanced keys) }
  | dropNotify {keys} (hdropping : s.dropping = some (.advanced keys)) :
      Step root s .dropNotify { s with changes := s.changes + 1, dropping := none }

/-! ### Every enabled step is listed -/

section Inversion

variable {root : FileIdentity} {s s' : System} {i : ℕ}

lemma onRequest_eq_some {f : Request → Option System} (h : s.onRequest i f = some s') :
    ∃ r, s.requests i = some r ∧ f r = some s' :=
  Option.bind_eq_some_iff.1 h

lemma markResolving_cases (h : s.markResolving i = some s') :
    Step root s (.markResolving i) s' := by
  obtain ⟨r, hr, h⟩ := onRequest_eq_some h
  split at h
  case h_1 epoch hph =>
    split_ifs at h with hreuse hblk
    · cases h
      obtain ⟨⟨e, keys⟩, hrsl, rfl⟩ := Option.map_eq_some_iff.1 hreuse
      exact .request hr (.reuse hph hrsl)
    · cases h
      exact .request hr (.ineligible hph hblk)
    · cases h
      exact .eligible hr hph
  case h_2 => cases h

lemma startResolve_cases (h : s.startResolve i = some s') : Step root s (.startResolve i) s' := by
  obtain ⟨r, hr, h⟩ := onRequest_eq_some h
  split at h
  case h_1 epoch keys hph =>
    split at h
    case isTrue hlen => cases h; exact .request hr (.startResolve hph hlen)
    case isFalse => cases h
  case h_2 => cases h

lemma finishResolve_cases {res : Option ResolvedPathKey}
    (h : s.finishResolve root i res = some s') :
    Step root s (.finishResolve i res) s' := by
  obtain ⟨r, hr, h⟩ := onRequest_eq_some h
  split at h
  case h_1 epoch keys hph =>
    obtain ⟨lexical, hlex, rfl⟩ := Option.map_eq_some_iff.1 h
    exact .request hr (.finishResolve hph hlex)
  case h_2 => cases h

lemma conclude_cases (h : s.conclude i = some s') : Step root s (.conclude i) s' := by
  obtain ⟨r, hr, h⟩ := onRequest_eq_some h
  split at h
  case h_1 epoch keys hph =>
    split_ifs at h with hlen
    cases h
    exact .request hr (.conclude hph hlen)
  case h_2 => cases h

lemma acquire_cases (h : s.acquire i = some s') : Step root s (.tryAcquire i) s' := by
  obtain ⟨r, hr, h⟩ := onRequest_eq_some h
  split at h
  case h_1 epoch e keys hph hdrp hrsl =>
    cases h
    by_cases hepoch : s.leaseEpoch = epoch
    · cases hwt : s.waiters.lookup i with
      | none =>
        simp only [System.tryAcquire, hepoch, hwt, ne_eq, not_true_eq_false, ↓reduceIte]
        exact .request hr (.stale hph)
      | some waiter =>
        by_cases hblk : s.blocked i keys
        · simp only [System.tryAcquire, hepoch, hwt, hblk, ne_eq, not_true_eq_false, ↓reduceIte]
          exact .blocked hr hph hrsl hwt hblk
        · simp only [System.tryAcquire, hepoch, hwt, hblk, ne_eq, not_true_eq_false, ↓reduceIte]
          exact .acquired hr hph hrsl hepoch hdrp hblk
    · simp only [System.tryAcquire, hepoch, ne_eq, not_false_eq_true, ↓reduceIte]
      exact .request hr (.stale hph)
  case h_2 => cases h

lemma wake_cases (h : s.wake i = some s') : Step root s (.wake i) s' := by
  obtain ⟨r, hr, h⟩ := onRequest_eq_some h
  split at h
  case h_1 hph =>
    split_ifs at h with hseen
    cases h
    exact .request hr (.wake hph hseen)
  case h_2 => cases h

lemma cancel_cases (h : s.cancel i = some s') : Step root s (.cancel i) s' := by
  obtain ⟨r, hr, h⟩ := onRequest_eq_some h
  split at h
  case isTrue hph => cases h; exact .cancel hr hph
  case isFalse => cases h

/-- An action that is enabled takes one of the listed steps. -/
theorem step_cases {a : Action} (h : step root s a = some s') : Step root s a s' := by
  cases a with
  | register paths =>
    simp only [step, System.register] at h
    split_ifs at h with hpths
    cases h
    exact .register hpths
  | insert i =>
    obtain ⟨r, hr, h⟩ := onRequest_eq_some h
    split at h
    case h_1 hph => cases h; exact .insert hr hph
    case h_2 => cases h
  | observe i =>
    obtain ⟨r, hr, h⟩ := onRequest_eq_some h
    split at h
    case h_1 hph => cases h; exact .request hr (.observe hph)
    case h_2 => cases h
  | loadEpoch i =>
    obtain ⟨r, hr, h⟩ := onRequest_eq_some h
    split at h
    case h_1 hph => cases h; exact .request hr (.loadEpoch hph)
    case h_2 => cases h
  | markResolving i => exact markResolving_cases h
  | startResolve i => exact startResolve_cases h
  | finishResolve i result => exact finishResolve_cases h
  | conclude i => exact conclude_cases h
  | tryAcquire i => exact acquire_cases h
  | wake i => exact wake_cases h
  | cancel i => exact cancel_cases h
  | cancelNotify i =>
    obtain ⟨r, hr, h⟩ := onRequest_eq_some h
    split at h
    case h_1 hph => cases h; exact .cancelNotify hr hph
    case h_2 => cases h
  | dropRemove lease =>
    simp only [step, System.dropRemove] at h
    split at h
    case h_1 keys hls hdrp => cases h; exact .dropRemove hls hdrp
    case h_2 => cases h
  | dropAdvance =>
    simp only [step, System.dropAdvance] at h
    split at h
    case h_1 keys hdrp => cases h; exact .dropAdvance hdrp
    case h_2 => cases h
  | dropNotify =>
    simp only [step, System.dropNotify] at h
    split at h
    case h_1 keys hdrp => cases h; exact .dropNotify hdrp
    case h_2 => cases h

end Inversion

end DufsRam.PathCoordinator
