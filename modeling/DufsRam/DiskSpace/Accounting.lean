import DufsRam.DiskSpace.Basic

/-!
# The accounting of disk space

The amount tracked for a device is what the handles on this device still hold: bytes that are
reserved, bytes that wait to be given back and bytes that a flush is about to give back.
-/

namespace DufsRam.DiskSpace

open Transition Option Function Reservation Ledger Inv

/-- What a reservation holds of a device. -/
def Reservation.held (d : Device) (r : Reservation) : ℕ :=
  if r.device = d then r.remaining + r.pendingRelease + r.releasing.getD 0 else 0

variable {r r' : Reservation} {e : Event} {avail minimumFree : ℕ}

lemma Reservation.held_congr {d : Device} (hdev : r'.device = r.device)
    (hsum : r'.remaining + r'.pendingRelease + r'.releasing.getD 0 =
      r.remaining + r.pendingRelease + r.releasing.getD 0) : r'.held d = r.held d := by
  rw [held, held, hdev, hsum]

/-- What all live reservations hold of a device. -/
def State.heldOn (s : State) (d : Device) : ℕ :=
  Ledger.total (held d) s.opened s.reservations

/-- Some reservation on the device is live. -/
def State.Live (s : State) (d : Device) : Prop := ∃ h r, s.reservations h = some r ∧ r.device = d

namespace State

variable {s s' : State} {d device : Device} {bytes h t : ℕ}

/-! ### What a step can do -/

/-- Everything a step can do, with the calls and handles it is about. -/
inductive Step (s : State) : Event → State → Prop
  | begin (t : ℕ) (device : Device) (requested minimumFree : ℕ) :
      Step s (.begin t device requested minimumFree)
        (s.setAttempt t ⟨device, requested, minimumFree, maxCapacitySnapshotRetries, .start⟩)
  | wouldBlock (t : ℕ) (a : Attempt) (ha : s.attempts t = some a) :
      Step s (.observe t) (s.setAttempt t { a with phase := .wouldBlock })
  | observe (t : ℕ) (a : Attempt) (ha : s.attempts t = some a) :
      Step s (.observe t) (s.setAttempt t
        { a with rounds := a.rounds - 1, phase := .observed (s.revisionOf a.device) })
  | failed (t : ℕ) (fault : Bool) (a : Attempt) (ha : s.attempts t = some a) :
      Step s (.probe t fault) (s.setAttempt t { a with phase := .failed })
  | probe (t : ℕ) (fault : Bool) (a : Attempt) (revision : ℕ) (ha : s.attempts t = some a)
      (hphase : a.phase = .observed revision) :
      Step s (.probe t fault)
        (s.setAttempt t { a with phase := .probed revision (s.available a.device) })
  | stale (t : ℕ) (a : Attempt) (ha : s.attempts t = some a) :
      Step s (.reserve t) (s.setAttempt t { a with phase := .start })
  | refused (t : ℕ) (a : Attempt) (ha : s.attempts t = some a) :
      Step s (.reserve t) (s.setAttempt t { a with phase := .refused })
  | granted (t : ℕ) (a : Attempt) (available : ℕ) (s' : State) (ha : s.attempts t = some a)
      (hphase : a.phase = .probed (s.revisionOf a.device) available)
      (hlocked : s.reserveLocked a.device available a.requested a.minimumFree = some s') :
      Step s (.reserve t) (s'.setAttempt t { a with phase := .granted s.opened })
  | consume (h bytes : ℕ) (r : Reservation) (hr : s.reservations h = some r)
      (hidle : r.releasing = none) : Step s (.consume h bytes) (s.consume h bytes r)
  | flush (h : ℕ) (r : Reservation) (hr : s.reservations h = some r) (hidle : r.releasing = none) :
      Step s (.flush h) (s.setReservation h (some r.takePending))
  | release (h : ℕ) (r : Reservation) (bytes : ℕ) (hr : s.reservations h = some r)
      (hbytes : r.releasing = some bytes) :
      Step s (.release h)
        ((s.setReservation h (some { r with releasing := none })).giveBack r.device bytes)
  | drop (h : ℕ) (r : Reservation) (hr : s.reservations h = some r) (hidle : r.releasing = none) :
      Step s (.drop h) (s.drop h r)
  | write (h bytes lowered : ℕ) (r : Reservation) (hr : s.reservations h = some r)
      (hidle : r.releasing = none) : Step s (.write h bytes lowered) (s.write h bytes lowered r)
  | elsewhere (device : Device) (available : ℕ) :
      Step s (.elsewhere device available)
        { s with available := Function.update s.available device available }

lemma onIdle_eq_some {f : Reservation → Option State} (hstep : s.onIdle h f = some s') :
    ∃ r, s.reservations h = some r ∧ r.releasing = none ∧ f r = some s' := by
  obtain ⟨r, hr, hstep⟩ := bind_eq_some_iff.mp hstep
  obtain ⟨hidle, hstep⟩ := ite_none_right_eq_some.mp hstep
  exact ⟨r, hr, isNone_iff_eq_none.mp hidle, hstep⟩

lemma step_cases (hstep : s.step e = some s') : Step s e s' := by
  cases e with
  | begin t device requested minimumFree =>
    simp only [step, State.begin] at hstep
    split at hstep
    · cases hstep
    · cases hstep
      exact .begin t device requested minimumFree
  | observe t =>
    obtain ⟨a, ha, hstep⟩ := bind_eq_some_iff.mp hstep
    unfold State.observe at hstep
    split at hstep
    · split at hstep
      · cases hstep
        exact .wouldBlock t a ha
      · cases hstep
        exact .observe t a ha
    · cases hstep
  | probe t fault =>
    obtain ⟨a, ha, hstep⟩ := bind_eq_some_iff.mp hstep
    unfold State.probe at hstep
    split at hstep
    · next revision hph =>
      split at hstep
      · cases hstep
        exact .failed t fault a ha
      · cases hstep
        exact .probe t fault a revision ha hph
    · cases hstep
  | reserve t =>
    obtain ⟨a, ha, hstep⟩ := bind_eq_some_iff.mp hstep
    unfold State.reserve at hstep
    split at hstep
    · next revision available hph =>
      split at hstep
      · cases hstep
        exact .stale t a ha
      · next hrev =>
        rw [not_not] at hrev
        split at hstep
        · next s'' hlck =>
          cases hstep
          exact .granted t a available s'' ha (hrev ▸ hph) hlck
        · cases hstep
          exact .refused t a ha
    · cases hstep
  | consume h bytes =>
    obtain ⟨r, hr, hidle, ⟨⟩⟩ := onIdle_eq_some hstep
    exact .consume h bytes r hr hidle
  | flush h =>
    obtain ⟨r, hr, hidle, ⟨⟩⟩ := onIdle_eq_some hstep
    exact .flush h r hr hidle
  | release h =>
    obtain ⟨r, hr, hstep⟩ := bind_eq_some_iff.mp hstep
    obtain ⟨bytes, hbyt, rfl⟩ := map_eq_some_iff.mp hstep
    exact .release h r bytes hr hbyt
  | drop h =>
    obtain ⟨r, hr, hidle, ⟨⟩⟩ := onIdle_eq_some hstep
    exact .drop h r hr hidle
  | write h bytes lowered =>
    obtain ⟨r, hr, hidle, ⟨⟩⟩ := onIdle_eq_some hstep
    exact .write h bytes lowered r hr hidle
  | elsewhere device available =>
    cases hstep
    exact .elsewhere device available

/-! ### The invariant -/

/-- The tracker agrees with the handles, keeps no empty bucket and has never failed. -/
structure Inv (s : State) : Prop where
  closed : ∀ h, s.opened ≤ h → s.reservations h = none
  balance : ∀ d, s.reservedOn d = s.heldOn d
  occupied : ∀ d, s.reserved d ≠ some 0
  bounded : ∀ d, s.reservedOn d ≤ u64Max
  sound : s.faulted = false

/-- A step that touches neither the tracker nor a handle. -/
lemma Inv.frame (hinv : s.Inv) (hrsv : s'.reserved = s.reserved)
    (hrsvs : s'.reservations = s.reservations) (hopn : s'.opened = s.opened)
    (hfaulted : s'.faulted = s.faulted) : s'.Inv where
  closed := by
    rw [hopn, hrsvs]
    exact hinv.closed
  balance d := by
    rw [reservedOn, heldOn, hrsv, hrsvs, hopn]
    exact hinv.balance d
  occupied := by
    rw [hrsv]
    exact hinv.occupied
  bounded d := by
    rw [reservedOn, hrsv]
    exact hinv.bounded d
  sound := hfaulted.trans hinv.sound

lemma lt_opened (hcls : ∀ h, s.opened ≤ h → s.reservations h = none)
    (hr : s.reservations h = some r) : h < s.opened := by
  by_contra hle
  rw [hcls h (not_lt.mp hle)] at hr
  cases hr

section

variable (hinv : s.Inv) (hr : s.reservations h = some r)

include hinv hr

lemma closed_setReservation (x : Option Reservation) (i : ℕ) (hi : s.opened ≤ i) :
    (s.setReservation h x).reservations i = none := by
  have hne : i ≠ h := ((lt_opened hinv.closed hr).trans_le hi).ne'
  change update s.reservations h x i = none
  rw [update_of_ne hne]
  exact hinv.closed i hi

/-- A total moves with the handle that changes. -/
lemma total_setReservation (μ : Reservation → ℕ) (x : Option Reservation) :
    total μ s.opened (s.setReservation h x).reservations + μ r =
      total μ s.opened s.reservations + amount μ x := by
  have hmove := total_update (μ := μ) (f := s.reservations) (x := x) (lt_opened hinv.closed hr)
  rwa [hr] at hmove

lemma heldOn_setReservation
    (x : Option Reservation) (d : Device) : (s.setReservation h x).heldOn d + r.held d =
      s.heldOn d + amount (held d) x :=
  total_setReservation hinv hr (held d) x

lemma held_le (d : Device) : r.held d ≤ s.reservedOn d := by
  rw [hinv.balance d]
  exact le_total (lt_opened hinv.closed hr) hr

/-- A handle that moves bytes within itself. -/
lemma Inv.moves (hheld : ∀ d, r'.held d = r.held d) : (s.setReservation h (some r')).Inv where
  closed := closed_setReservation hinv hr _
  balance d := by
    have hmove := heldOn_setReservation hinv hr (some r') d
    rw [amount_some, hheld d] at hmove
    rw [show (s.setReservation h (some r')).reservedOn d = s.reservedOn d from rfl, hinv.balance d]
    omega
  occupied := hinv.occupied
  bounded := hinv.bounded
  sound := hinv.sound

end

/-- Giving back bytes that no handle holds any more. -/
lemma Inv.giveBack (hcls : ∀ h, s.opened ≤ h → s.reservations h = none)
    (hoccupied : ∀ d, s.reserved d ≠ some 0) (hbdd : ∀ d, s.reservedOn d ≤ u64Max)
    (hsound : s.faulted = false)
    (hbal : ∀ d, s.reservedOn d = s.heldOn d + if device = d then bytes else 0) :
    (s.giveBack device bytes).Inv := by
  by_cases hzero : bytes = 0
  · have hstay : s.giveBack device bytes = s := if_pos hzero
    rw [hstay]
    refine ⟨hcls, fun d => ?_, hoccupied, hbdd, hsound⟩
    rw [hbal d, hzero, ite_self, Nat.add_zero]
  · have hdev := hbal device
    rw [if_pos rfl] at hdev
    cases hrsv : s.reserved device with
    | none =>
      rw [reservedOn, hrsv, getD_none] at hdev
      omega
    | some reserved =>
      rw [reservedOn, hrsv, getD_some] at hdev
      have hgive : s.giveBack device bytes = { s with
          reserved := update s.reserved device
            (if reserved - bytes = 0 then none else some (reserved - bytes))
          faulted := s.faulted || decide (reserved < bytes) }.bumpRevision device := by
        rw [State.giveBack, if_neg hzero, hrsv]
      rw [hgive]
      have hoth : ∀ d, d ≠ device → update s.reserved device
          (if reserved - bytes = 0 then none else some (reserved - bytes)) d = s.reserved d :=
        fun d hd => update_of_ne hd _ _
      have hself : (update s.reserved device
          (if reserved - bytes = 0 then none else some (reserved - bytes)) device).getD 0 =
            reserved - bytes := by
        rw [update_self]
        split
        · next hnone => rw [getD_none, hnone]
        · rfl
      refine ⟨hcls, fun d => ?_, fun d => ?_, fun d => ?_, ?_⟩
      · change (update s.reserved device _ d).getD 0 = s.heldOn d
        by_cases hd : d = device
        · rw [hd, hself]
          omega
        · have hrest := hbal d
          rw [if_neg (Ne.symm hd), Nat.add_zero] at hrest
          rw [hoth d hd]
          exact hrest
      · change update s.reserved device _ d ≠ some 0
        by_cases hd : d = device
        · rw [hd, update_self]
          split
          · nofun
          · next hne => exact fun heq => hne (some.inj heq)
        · rw [hoth d hd]
          exact hoccupied d
      · change (update s.reserved device _ d).getD 0 ≤ u64Max
        by_cases hd : d = device
        · have hle := hbdd device
          rw [reservedOn, hrsv, getD_some] at hle
          rw [hd, hself]
          omega
        · rw [hoth d hd]
          exact hbdd d
      · change (s.faulted || decide (reserved < bytes)) = false
        rw [hsound, Bool.false_or, decide_eq_false]
        omega

lemma checkedAdd_eq {a b : ℕ} (h : a + b ≤ u64Max) : checkedAdd a b = some (a + b) := if_pos h

lemma held_self (r : Reservation) :
    r.held r.device = r.remaining + r.pendingRelease + r.releasing.getD 0 := if_pos rfl

section

variable (hinv : s.Inv) (hr : s.reservations h = some r)

include hinv hr

/-- What an idle handle holds fits into 64 bits. -/
lemma idle_le (hidle : r.releasing = none) : r.remaining + r.pendingRelease ≤ u64Max := by
  have hheld := (held_le hinv hr r.device).trans (hinv.bounded r.device)
  rwa [held_self, hidle, getD_none, Nat.add_zero] at hheld

/-- The addition in `consume` does not overflow. -/
lemma consume_eq
    (hidle : r.releasing = none) (bytes : ℕ) : ∃ r' : Reservation, s.consume h bytes r =
      s.setReservation h (some r') ∧ r'.device = r.device ∧
      r'.remaining = r.remaining - min bytes r.remaining ∧ r'.written = r.written - bytes ∧
      r'.pendingRelease + r'.releasing.getD 0 = r.pendingRelease + min bytes r.remaining := by
  have hadd : checkedAdd r.pendingRelease (min bytes r.remaining) =
      some (r.pendingRelease + min bytes r.remaining) := by
    have := idle_le hinv hr hidle
    exact checkedAdd_eq (by omega)
  rw [State.consume, hadd]
  refine ⟨_, rfl, ?_⟩
  split
  · refine ⟨rfl, rfl, rfl, ?_⟩
    simp only [takePending, getD_some]
    omega
  · refine ⟨rfl, rfl, rfl, ?_⟩
    simp only [hidle, getD_none]
    omega

lemma Inv.consume (hidle : r.releasing = none) : (s.consume h bytes r).Inv := by
  obtain ⟨r', heq, hdev, hrem, -, hpend⟩ := consume_eq hinv hr hidle bytes
  rw [heq]
  refine hinv.moves hr fun d => held_congr hdev ?_
  rw [hidle, getD_none]
  omega

lemma Inv.flush (hidle : r.releasing = none) : (s.setReservation h (some r.takePending)).Inv := by
  refine hinv.moves hr fun d => held_congr rfl ?_
  simp only [takePending, hidle, getD_some, getD_none]
  omega

lemma Inv.release (hbyt : r.releasing = some bytes) :
    ((s.setReservation h (some { r with releasing := none })).giveBack r.device bytes).Inv := by
  refine giveBack (closed_setReservation hinv hr _) hinv.occupied hinv.bounded hinv.sound
    fun d => ?_
  have hmove := heldOn_setReservation hinv hr (some { r with releasing := none }) d
  rw [show (s.setReservation h (some { r with releasing := none })).reservedOn d = s.reservedOn d
    from rfl, hinv.balance d]
  simp only [amount_some, held, hbyt, getD_some, getD_none] at hmove
  split_ifs at hmove ⊢ <;> omega

lemma Inv.drop (hidle : r.releasing = none) : (s.drop h r).Inv := by
  rw [State.drop, checkedAdd_eq (idle_le hinv hr hidle)]
  refine giveBack (closed_setReservation hinv hr _) hinv.occupied hinv.bounded hinv.sound
    fun d => ?_
  have hmove := heldOn_setReservation hinv hr none d
  rw [show (s.setReservation h none).reservedOn d = s.reservedOn d from rfl, hinv.balance d]
  simp only [amount_none, held, hidle, getD_none] at hmove
  split_ifs at hmove ⊢ <;> omega

end

/-- A reservation is granted if everything that is reserved fits. -/
lemma spaceBudgetFits_iff {alreadyReserved requested : ℕ} :
    spaceBudgetFits avail alreadyReserved requested minimumFree = true ↔
      minimumFree + alreadyReserved + requested ≤ avail ∧
        minimumFree + alreadyReserved + requested ≤ u64Max := by
  unfold spaceBudgetFits checkedAdd
  by_cases hfst : minimumFree + alreadyReserved ≤ u64Max
  · rw [if_pos hfst, bind_some]
    by_cases hsnd : minimumFree + alreadyReserved + requested ≤ u64Max
    · rw [if_pos hsnd, any_some, decide_eq_true_iff]
      exact ⟨fun h => ⟨h, hsnd⟩, fun h => h.1⟩
    · rw [if_neg hsnd]
      exact ⟨nofun, fun h => absurd h.2 hsnd⟩
  · rw [if_neg hfst, bind_none]
    exact ⟨nofun, fun h => absurd (le_trans (Nat.le_add_right _ _) h.2) hfst⟩

lemma reserveLocked_eq_some {requested : ℕ}
    (hlck : s.reserveLocked device avail requested minimumFree = some s') :
    minimumFree + s.reservedOn device + requested ≤ avail ∧
    minimumFree + s.reservedOn device + requested ≤ u64Max ∧
    s' = if 0 < requested then
      ((s.addReserved device requested).bumpRevision device).openReservation device requested
    else s.openReservation device requested := by
  obtain ⟨hfits, hlck⟩ := ite_none_right_eq_some.mp hlck
  obtain ⟨havl, hmax⟩ := spaceBudgetFits_iff.mp hfits
  refine ⟨havl, hmax, ?_⟩
  split at hlck
  · next hpos => rw [if_pos hpos, some.inj hlck]
  · next hpos => rw [if_neg hpos, some.inj hlck]

lemma heldOn_openReservation {requested : ℕ} : (s.openReservation device requested).heldOn d =
      s.heldOn d + if device = d then requested else 0 := by
  have hpush := total_push (μ := held d) (n := s.opened) (f := s.reservations)
    (a := ⟨device, requested, 0, none, 0⟩)
  exact hpush

lemma closed_openReservation (hinv : s.Inv) {requested : ℕ} (i : ℕ)
    (hi : (s.openReservation device requested).opened ≤ i) :
    (s.openReservation device requested).reservations i = none := by
  have hi' : s.opened + 1 ≤ i := hi
  change update s.reservations s.opened _ i = none
  rw [update_of_ne (by omega)]
  exact hinv.closed i (by omega)

lemma Inv.reserveLocked (hinv : s.Inv) {requested : ℕ}
    (hlck : s.reserveLocked device avail requested minimumFree = some s') : s'.Inv := by
  obtain ⟨-, hmax, rfl⟩ := reserveLocked_eq_some hlck
  split
  · next hpos =>
    have hsum : s.reservedOn device + requested ≤ u64Max := by omega
    have hadd : s.addReserved device requested = { s with
        reserved := update s.reserved device (some (s.reservedOn device + requested)) } := by
      rw [addReserved, checkedAdd_eq hsum]
    rw [hadd]
    have hrsv : ∀ e, (update s.reserved device (some (s.reservedOn device + requested)) e).getD 0 =
          s.reservedOn e + if device = e then requested else 0 := by
      intro e
      by_cases he : e = device
      · rw [he, update_self, if_pos rfl, getD_some]
      · rw [update_of_ne he, if_neg (Ne.symm he), Nat.add_zero, reservedOn]
    refine ⟨closed_openReservation hinv, fun e => ?_, fun e => ?_, fun e => ?_, hinv.sound⟩
    · rw [heldOn_openReservation]
      change (update s.reserved device _ e).getD 0 = s.heldOn e + _
      rw [hrsv e, hinv.balance e]
    · change update s.reserved device _ e ≠ some 0
      by_cases he : e = device
      · rw [he, update_self]
        intro heq
        have := some.inj heq
        omega
      · rw [update_of_ne he]
        exact hinv.occupied e
    · change (update s.reserved device _ e).getD 0 ≤ u64Max
      rw [hrsv e]
      split
      · next he => rwa [← he]
      · exact hinv.bounded e
  · next hpos =>
    refine ⟨closed_openReservation hinv, fun e => ?_, hinv.occupied, hinv.bounded, hinv.sound⟩
    rw [heldOn_openReservation, Nat.eq_zero_of_not_pos hpos, ite_self, Nat.add_zero]
    exact hinv.balance e

lemma Inv.step (hinv : s.Inv) (hstep : Step s e s') : s'.Inv := by
  cases hstep with
  | begin | wouldBlock | observe | failed | probe | stale | refused | elsewhere =>
    exact hinv.frame rfl rfl rfl rfl
  | granted t a available s' ha hph hlck =>
    exact (hinv.reserveLocked hlck).frame rfl rfl rfl rfl
  | consume h bytes r hr hidle => exact hinv.consume hr hidle
  | flush h r hr hidle => exact hinv.flush hr hidle
  | release h r bytes hr hbyt => exact hinv.release hr hbyt
  | drop h r hr hidle => exact hinv.drop hr hidle
  | write h bytes lowered r hr hidle =>
    have hmvs : (s.setReservation h (some { r with written := r.written + bytes })).Inv :=
      hinv.moves hr fun d => held_congr rfl rfl
    exact hmvs.frame rfl rfl rfl rfl

end State

namespace Run

variable {ρ : Run}

lemma inv (n : ℕ) : (ρ.state n).Inv := by
  have hinit : (machine ρ.available).init.Inv :=
    ⟨fun _ _ => rfl, fun _ => rfl, fun _ => nofun, fun _ => Nat.zero_le _, rfl⟩
  exact Machine.run_invariant hinit (fun s e s' hinv hstep => hinv.step (State.step_cases hstep)) n

/-- In every state of every run the amount tracked for a device is what the live reservations on it
hold, of which a flush under way may have taken a part out of its handle; no addition or subtraction
of the accounting has failed; and a device without reservations has no bucket. -/
theorem reserved_balanced (ρ : Run) (n : ℕ) :
    (∀ d, (ρ.state n).reservedOn d = ∑ h ∈ Finset.range (ρ.state n).opened,
      (((ρ.state n).reservations h).elim 0 fun r =>
        if r.device = d then r.remaining + (r.pendingRelease + r.releasing.getD 0) else 0)) ∧
    (∀ h, (ρ.state n).opened ≤ h → (ρ.state n).reservations h = none) ∧
    (ρ.state n).faulted = false ∧
    ∀ d, ¬ (ρ.state n).Live d → (ρ.state n).reserved d = none := by
  have hinv := ρ.inv n
  refine ⟨fun d => ?_, hinv.closed, hinv.sound, fun d hdead => ?_⟩
  · rw [hinv.balance d, State.heldOn, Ledger.total]
    refine Finset.sum_congr rfl fun h _ => ?_
    cases (ρ.state n).reservations h with
    | none => rfl
    | some r => simp only [Ledger.amount_some, held, elim_some, Nat.add_assoc]
  · have hzero : (ρ.state n).reservedOn d = 0 := by
      rw [hinv.balance d]
      refine Ledger.total_eq_zero fun h _ r hr => if_neg fun hd => hdead ⟨h, r, hr, hd⟩
    cases hreserved : (ρ.state n).reserved d with
    | none => rfl
    | some amount =>
      rw [State.reservedOn, hreserved, getD_some] at hzero
      exact absurd (hzero ▸ hreserved) (hinv.occupied d)

end Run

end DufsRam.DiskSpace
