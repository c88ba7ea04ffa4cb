import Mathlib.Tactic.IntervalCases
import DufsRam.DiskSpace.Accounting

/-!
# The free space a reservation protects

Suppose that holders write only what they have reserved and that nothing else takes space. Then,
while a device has a reservation, its free space covers the protected minimum and everything that is
reserved and not written yet.

A probe is older than the section in which its result counts. What it reports exceeds the free space
by no more than what has been written since, and bytes that are written stay in the tracked amount
until they are given back, which moves the revision. So a probe whose revision is still the current
one never reports too much for the budget that is computed from it.
-/

namespace DufsRam.DiskSpace

open Transition Function Reservation Ledger Option

/-- The bytes of a reservation on a device that its holder may still write. -/
def Reservation.unwritten (d : Device) (r : Reservation) : ℕ :=
  if r.device = d then r.remaining - r.written else 0

/-- The bytes on a device that are reserved and not written. -/
def State.unwrittenOn (s : State) (d : Device) : ℕ :=
  total (unwritten d) s.opened s.reservations

/-- All requests have the same minimum, a holder writes what it has reserved and not written before,
this costs no more space than it writes, and nothing else costs space. A write is counted against
what its holder has not consumed, so that it comes before the consumption. -/
def Event.Disciplined (minimum : ℕ) (s : State) : Event → Prop
  | .begin _ _ _ minimumFree => minimumFree = minimum
  | .write h bytes lowered => ∀ r, s.reservations h = some r →
      lowered ≤ bytes ∧ r.written + bytes ≤ r.remaining
  | .elsewhere device available => s.available device ≤ available
  | _ => True

/-- Every step is disciplined and no revision wraps. -/
structure Run.Disciplined (ρ : Run) (minimum : ℕ) : Prop where
  steps : ∀ n, (ρ.schedule n).Disciplined minimum (ρ.state n)
  revisions : ∀ n d, (ρ.state n).revisionOf d ≤ (ρ.state (n + 1)).revisionOf d

lemma Reservation.unwritten_le_held (d : Device) (r : Reservation) : r.unwritten d ≤ r.held d := by
  unfold unwritten held
  split
  · omega
  · exact le_refl _

variable {x : Option Reservation} {avail minimum : ℕ}

namespace State

variable {s s' : State} {d device : Device} {bytes h t requested : ℕ} {r : Reservation}

lemma unwrittenOn_setReservation (hinv : s.Inv) (hr : s.reservations h = some r)
    (x : Option Reservation) (d : Device) : (s.setReservation h x).unwrittenOn d + r.unwritten d =
      s.unwrittenOn d + amount (unwritten d) x :=
  total_setReservation hinv hr (unwritten d) x

lemma unwrittenOn_openReservation : (s.openReservation device requested).unwrittenOn d =
      s.unwrittenOn d + if device = d then requested else 0 := by
  have hpush := total_push (μ := unwritten d) (n := s.opened)
    (f := s.reservations) (a := ⟨device, requested, 0, none, 0⟩)
  exact hpush

/-! ### Revisions -/

lemma revisionOf_bumpRevision : (s.bumpRevision device).revisionOf d =
      if d = device then (s.revisionOf device + 1) % 2 ^ 64 else s.revisionOf d := by
  change (update s.revisions device _ d).getD 0 = _
  split
  · next hd => rw [hd, update_self, getD_some]
  · next hd => rw [update_of_ne hd, revisionOf]

/-- A revision that moves and does not wrap goes up. -/
lemma lt_revisionOf_bumpRevision
    (hwrap : s.revisionOf device ≤ (s.bumpRevision device).revisionOf device) :
    s.revisionOf device < (s.bumpRevision device).revisionOf device := by
  rw [revisionOf_bumpRevision, if_pos rfl] at hwrap ⊢
  omega

lemma revisionOf_bumpRevision_of_ne (hd : d ≠ device) :
    (s.bumpRevision device).revisionOf d = s.revisionOf d := by
  rw [revisionOf_bumpRevision, if_neg hd]

/-! ### What holds between probes and reservations -/

/-- The free space covers what is reserved and not written. A probe that would still count reports
no more than the free space and the tracked bytes that are written already. -/
structure Floor (minimum : ℕ) (s : State) : Prop where
  covered : ∀ d, s.Live d → minimum + s.unwrittenOn d ≤ s.available d
  minimal : ∀ t a, s.attempts t = some a → a.minimumFree = minimum
  observed : ∀ t a revision, s.attempts t = some a → a.phase = .observed revision →
    revision ≤ s.revisionOf a.device
  probed : ∀ t a revision available, s.attempts t = some a →
    a.phase = .probed revision available → revision ≤ s.revisionOf a.device
  fresh : ∀ t a available, s.attempts t = some a →
    a.phase = .probed (s.revisionOf a.device) available →
      available + s.unwrittenOn a.device ≤ s.available a.device + s.reservedOn a.device

/-- A step of the handles and the tracker: on each device it moves the revision, or it does not
widen the gap between what a probe may report and what there is. -/
lemma Floor.moves (hfl : s.Floor minimum) (hatts : s'.attempts = s.attempts)
    (hcov : ∀ d, s'.Live d → minimum + s'.unwrittenOn d ≤ s'.available d)
    (hmvs : ∀ d, s.revisionOf d < s'.revisionOf d ∨ s'.revisionOf d = s.revisionOf d ∧
      s'.unwrittenOn d + s.available d + s.reservedOn d ≤
        s.unwrittenOn d + s'.available d + s'.reservedOn d) : s'.Floor minimum := by
  have hrev : ∀ d, s.revisionOf d ≤ s'.revisionOf d := by
    intro d
    obtain hlt | ⟨heq, -⟩ := hmvs d
    · exact hlt.le
    · exact heq.ge
  refine ⟨hcov, ?_, ?_, ?_, ?_⟩
  · rw [hatts]
    exact hfl.minimal
  · rw [hatts]
    exact fun t a rev ha hph => (hfl.observed t a rev ha hph).trans (hrev _)
  · rw [hatts]
    exact fun t a rev avail ha hph =>
      (hfl.probed t a rev avail ha hph).trans (hrev _)
  · rw [hatts]
    intro t a avail ha hph
    have hle := hfl.probed t a _ avail ha hph
    obtain hlt | ⟨heq, hgap⟩ := hmvs a.device
    · exact absurd hlt (not_lt.mpr hle)
    · rw [heq] at hph
      have hold := hfl.fresh t a avail ha hph
      omega

/-- A step of one call. -/
lemma Floor.setAttempt (hfl : s.Floor minimum) {a : Attempt} (hmin : a.minimumFree = minimum)
    (hobserved : ∀ rev, a.phase = .observed rev → rev ≤ s.revisionOf a.device)
    (hprobed : ∀ rev avail, a.phase = .probed rev avail → rev ≤ s.revisionOf a.device ∧
        avail + s.unwrittenOn a.device ≤ s.available a.device + s.reservedOn a.device) :
    (s.setAttempt t a).Floor minimum := by
  have hcs : ∀ u b, (s.setAttempt t a).attempts u = some b → b = a ∨ s.attempts u = some b := by
    intro u b hb
    change update s.attempts t (some a) u = some b at hb
    by_cases hu : u = t
    · rw [hu, update_self] at hb
      exact .inl (some.inj hb).symm
    · rw [update_of_ne hu] at hb
      exact .inr hb
  refine ⟨hfl.covered, fun u b hb => ?_, fun u b rev hb hph => ?_,
    fun u b rev avail hb hph => ?_, fun u b avail hb hph => ?_⟩
  · obtain rfl | hold := hcs u b hb
    · exact hmin
    · exact hfl.minimal u b hold
  · obtain rfl | hold := hcs u b hb
    · exact hobserved rev hph
    · exact hfl.observed u b rev hold hph
  · obtain rfl | hold := hcs u b hb
    · exact (hprobed rev avail hph).1
    · exact hfl.probed u b rev avail hold hph
  · obtain rfl | hold := hcs u b hb
    · exact (hprobed _ avail hph).2
    · exact hfl.fresh u b avail hold hph

/-! ### Steps -/

lemma Live.of_setReservation (hr : s.reservations h = some r)
    (hdev : ∀ r', x = some r' → r'.device = r.device) (hlive : (s.setReservation h x).Live d) :
    s.Live d := by
  obtain ⟨i, r', hr', hd⟩ := hlive
  change update s.reservations h x i = some r' at hr'
  by_cases hi : i = h
  · rw [hi, update_self] at hr'
    exact ⟨h, r, hr, (hdev r' hr').symm.trans hd⟩
  · rw [update_of_ne hi] at hr'
    exact ⟨i, r', hr', hd⟩

/-- A handle that is changed or closed without more to write. -/
lemma Floor.setReservation (hfl : s.Floor minimum) (hinv : s.Inv)
    (hr : s.reservations h = some r) (hx : ∀ r', x = some r' → r'.device = r.device ∧
      r'.remaining - r'.written ≤ r.remaining - r.written) :
    (s.setReservation h x).Floor minimum := by
  have hless : ∀ d, (s.setReservation h x).unwrittenOn d ≤ s.unwrittenOn d := by
    intro d
    have hmove := unwrittenOn_setReservation hinv hr x d
    have hamount : amount (unwritten d) x ≤ r.unwritten d := by
      cases x with
      | none => exact Nat.zero_le _
      | some r' =>
        obtain ⟨hdev, hle⟩ := hx r' rfl
        rw [amount_some, unwritten, unwritten, hdev]
        split
        · exact hle
        · exact le_refl _
    omega
  refine hfl.moves rfl (fun d hlive => ?_) fun d => .inr ⟨rfl, ?_⟩
  · have hcov := hfl.covered d (hlive.of_setReservation hr fun r' h => (hx r' h).1)
    exact (Nat.add_le_add_left (hless d) minimum).trans hcov
  · change (s.setReservation h x).unwrittenOn d + s.available d + s.reservedOn d ≤
      s.unwrittenOn d + s.available d + s.reservedOn d
    have := hless d
    omega

lemma giveBack_of_pos (s : State) (device : Device) (hbyt : bytes ≠ 0) :
    ∃ s₁ : State, s.giveBack device bytes = s₁.bumpRevision device ∧
      s₁.attempts = s.attempts ∧ s₁.reservations = s.reservations ∧ s₁.opened = s.opened ∧
      s₁.available = s.available ∧ s₁.revisions = s.revisions ∧
      ∀ d, d ≠ device → s₁.reserved d = s.reserved d := by
  rw [State.giveBack, if_neg hbyt]
  split
  · exact ⟨_, rfl, rfl, rfl, rfl, rfl, rfl, fun d hd => update_of_ne hd _ _⟩
  · exact ⟨_, rfl, rfl, rfl, rfl, rfl, rfl, fun _ _ => rfl⟩

/-- Bytes are given back: probes of this device do not count any more. -/
lemma Floor.giveBack (hfl : s.Floor minimum)
    (hwrap : s.revisionOf device ≤ (s.giveBack device bytes).revisionOf device) :
    (s.giveBack device bytes).Floor minimum := by
  by_cases hzero : bytes = 0
  · have hstay : s.giveBack device bytes = s := if_pos hzero
    rwa [hstay]
  · obtain ⟨s₁, heq, hatts, hrsvs, hopn, havl, hrevs, hrsv⟩ :=
      giveBack_of_pos s device hzero
    rw [heq] at hwrap ⊢
    have hold : ∀ d, s₁.revisionOf d = s.revisionOf d := by
      intro d
      rw [revisionOf, hrevs, revisionOf]
    have hunw : ∀ d, (s₁.bumpRevision device).unwrittenOn d = s.unwrittenOn d := by
      intro d
      change total _ s₁.opened s₁.reservations = _
      rw [hopn, hrsvs, unwrittenOn]
    refine hfl.moves hatts (fun d hlive => ?_) fun d => ?_
    · obtain ⟨i, r, hr, hd⟩ := hlive
      rw [hunw d]
      change _ ≤ s₁.available d
      rw [havl]
      exact hfl.covered d ⟨i, r, hrsvs ▸ hr, hd⟩
    · by_cases hd : d = device
      · left
        rw [hd, ← hold device]
        exact lt_revisionOf_bumpRevision (by rw [hold device]; exact hwrap)
      · right
        refine ⟨(revisionOf_bumpRevision_of_ne hd).trans (hold d), ?_⟩
        rw [hunw d]
        change _ ≤ _ + s₁.available d + (s₁.reserved d).getD 0
        rw [havl, hrsv d hd, reservedOn]

lemma Floor.consume (hfl : s.Floor minimum) (hinv : s.Inv) (hr : s.reservations h = some r)
    (hidle : r.releasing = none) : (s.consume h bytes r).Floor minimum := by
  obtain ⟨r', heq, hdev, hrem, hwr, -⟩ := consume_eq hinv hr hidle bytes
  rw [heq]
  refine hfl.setReservation hinv hr fun r'' hr'' => ?_
  obtain rfl := some.inj hr''
  exact ⟨hdev, by omega⟩

/-- A write lowers the free space by no more than what is left to write. -/
lemma Floor.write (hfl : s.Floor minimum) (hinv : s.Inv) {lowered : ℕ}
    (hr : s.reservations h = some r) (hlowered : lowered ≤ bytes)
    (hbyt : r.written + bytes ≤ r.remaining) : (s.write h bytes lowered r).Floor minimum := by
  have hunw : ∀ d, (s.write h bytes lowered r).unwrittenOn d +
      (if r.device = d then bytes else 0) = s.unwrittenOn d := by
    intro d
    have hmove := unwrittenOn_setReservation hinv hr
      (some { r with written := r.written + bytes }) d
    rw [amount_some, unwritten, unwritten] at hmove
    change (s.setReservation h _).unwrittenOn d + _ = _
    by_cases hd : r.device = d
    · simp only [if_pos hd] at hmove ⊢
      omega
    · simp only [if_neg hd] at hmove ⊢
      omega
  have havl : ∀ d, s.available d ≤ (s.write h bytes lowered r).available d +
      if r.device = d then bytes else 0 := by
    intro d
    change s.available d ≤ update s.available r.device _ d + _
    by_cases hd : r.device = d
    · rw [if_pos hd, hd, update_self]
      omega
    · rw [if_neg hd, update_of_ne (Ne.symm hd), Nat.add_zero]
  refine hfl.moves rfl (fun d hlive => ?_) fun d => .inr ⟨rfl, ?_⟩
  · have hcov := hfl.covered d (Live.of_setReservation hr (fun r' hr' => by
      rw [← some.inj hr']) hlive)
    have := hunw d
    have := havl d
    omega
  · change _ + _ + s.reservedOn d ≤ _ + _ + s.reservedOn d
    have := hunw d
    have := havl d
    omega

lemma Live.of_openReservation (hlive : (s.openReservation device requested).Live d)
    (hd : d ≠ device) : s.Live d := by
  obtain ⟨i, r, hr, hdev⟩ := hlive
  change update s.reservations s.opened _ i = some r at hr
  by_cases hi : i = s.opened
  · rw [hi, update_self] at hr
    obtain rfl := some.inj hr
    exact absurd hdev.symm hd
  · rw [update_of_ne hi] at hr
    exact ⟨i, r, hr, hdev⟩

/-- A reservation that fits the budget of a probe that still counts leaves the floor intact. -/
lemma Floor.openReservation (hfl : s.Floor minimum)
    (hbudget : minimum + s.reservedOn device + requested ≤ avail)
    (hfr : avail + s.unwrittenOn device ≤ s.available device + s.reservedOn device) :
    ∀ d, (s.openReservation device requested).Live d →
      minimum + (s.openReservation device requested).unwrittenOn d ≤ s.available d := by
  intro d hlive
  rw [unwrittenOn_openReservation]
  by_cases hd : d = device
  · rw [hd, if_pos rfl]
    omega
  · rw [if_neg (Ne.symm hd), Nat.add_zero]
    exact hfl.covered d (hlive.of_openReservation hd)

lemma Floor.reserveLocked (hfl : s.Floor minimum)
    (hlck : s.reserveLocked device avail requested minimum = some s')
    (hwrap : s.revisionOf device ≤ s'.revisionOf device)
    (hfr : avail + s.unwrittenOn device ≤ s.available device + s.reservedOn device) :
    s'.Floor minimum := by
  obtain ⟨hbudget, hmax, rfl⟩ := reserveLocked_eq_some hlck
  have hcov := hfl.openReservation hbudget hfr
  by_cases hpos : 0 < requested
  · rw [if_pos hpos] at hwrap ⊢
    have hadd : s.addReserved device requested = { s with
        reserved := update s.reserved device (some (s.reservedOn device + requested)) } := by
      rw [addReserved, checkedAdd_eq (by omega)]
    rw [hadd] at hwrap ⊢
    refine hfl.moves rfl hcov fun d => ?_
    by_cases hd : d = device
    · rw [hd]
      exact .inl (lt_revisionOf_bumpRevision (s := s) hwrap)
    · refine .inr ⟨revisionOf_bumpRevision_of_ne (s := s) hd, ?_⟩
      have hunw : (s.openReservation device requested).unwrittenOn d = s.unwrittenOn d := by
        rw [unwrittenOn_openReservation, if_neg (Ne.symm hd), Nat.add_zero]
      change (s.openReservation device requested).unwrittenOn d + _ + _ ≤ _ + s.available d +
        (update s.reserved device _ d).getD 0
      rw [hunw, update_of_ne hd, reservedOn]
  · rw [if_neg hpos] at hwrap ⊢
    refine hfl.moves rfl hcov fun d => .inr ⟨rfl, ?_⟩
    rw [unwrittenOn_openReservation, Nat.eq_zero_of_not_pos hpos, ite_self, Nat.add_zero]
    exact le_refl _

lemma Floor.step {e : Event} (hfl : s.Floor minimum) (hinv : s.Inv) (hev : e.Disciplined minimum s)
    (hwrap : ∀ d, s.revisionOf d ≤ s'.revisionOf d) (hstep : Step s e s') : s'.Floor minimum := by
  cases hstep with
  | begin t device requested minimumFree =>
    exact hfl.setAttempt hev (by simp) (by simp)
  | wouldBlock t a ha | failed t fault a ha | stale t a ha | refused t a ha =>
    exact hfl.setAttempt (hfl.minimal t a ha) (by simp) (by simp)
  | observe t a ha =>
    refine hfl.setAttempt (hfl.minimal t a ha) (fun rev hph => ?_) (by simp)
    cases hph
    exact le_refl _
  | probe t fault a rev ha hph =>
    refine hfl.setAttempt (hfl.minimal t a ha) (by simp) fun rev' avail hph' => ?_
    cases hph'
    refine ⟨hfl.observed t a rev ha hph, Nat.add_le_add_left ?_ _⟩
    rw [hinv.balance a.device]
    exact total_mono fun _ r _ => r.unwritten_le_held a.device
  | granted t a avail s₁ ha hph hlck =>
    have hmin := hfl.minimal t a ha
    rw [hmin] at hlck
    have hgranted := hfl.reserveLocked hlck (hwrap a.device) (hfl.fresh t a avail ha hph)
    exact hgranted.setAttempt hmin (by simp) (by simp)
  | consume h bytes r hr hidle => exact hfl.consume hinv hr hidle
  | flush h r hr hidle =>
    refine hfl.setReservation hinv hr fun r' hr' => ?_
    obtain rfl := some.inj hr'
    exact ⟨rfl, le_refl _⟩
  | release h r bytes hr hbyt =>
    have hset : (s.setReservation h (some { r with releasing := none })).Floor minimum := by
      refine hfl.setReservation hinv hr fun r' hr' => ?_
      obtain rfl := some.inj hr'
      exact ⟨rfl, le_refl _⟩
    exact hset.giveBack (hwrap r.device)
  | drop h r hr hidle =>
    have hdrop : s.drop h r =
        (s.setReservation h none).giveBack r.device (r.remaining + r.pendingRelease) := by
      rw [State.drop, checkedAdd_eq (idle_le hinv hr hidle)]
    rw [hdrop] at hwrap ⊢
    have hset : (s.setReservation h none).Floor minimum := hfl.setReservation hinv hr (by simp)
    exact hset.giveBack (hwrap r.device)
  | write h bytes lowered r hr hidle =>
    obtain ⟨hlowered, hbyt⟩ := hev r hr
    exact hfl.write hinv hr hlowered hbyt
  | elsewhere device avail =>
    have hraised : ∀ d, s.available d ≤ update s.available device avail d := by
      intro d
      by_cases hd : d = device
      · rw [hd, update_self]
        exact hev
      · rw [update_of_ne hd]
    refine hfl.moves rfl (fun d hlive => (hfl.covered d hlive).trans (hraised d))
      fun d => .inr ⟨rfl, ?_⟩
    change s.unwrittenOn d + s.available d + s.reservedOn d ≤
      s.unwrittenOn d + update s.available device avail d + s.reservedOn d
    have := hraised d
    omega

end State

namespace Run

variable {ρ : Run}

lemma Disciplined.floor (hρ : ρ.Disciplined minimum) (n : ℕ) : (ρ.state n).Floor minimum := by
  induction n with
  | zero => exact ⟨nofun, nofun, nofun, nofun, nofun⟩
  | succ n ih =>
    have hwrap := hρ.revisions n
    revert hwrap
    refine Machine.exec_cases (P := fun s' : State =>
      (∀ d, (ρ.state n).revisionOf d ≤ s'.revisionOf d) → s'.Floor minimum) (fun _ => ih)
      fun s' hstep hwrap => ?_
    exact ih.step (ρ.inv n) (hρ.steps n) hwrap (State.step_cases hstep)

/-- While a device has a reservation, its free space covers the minimum and everything on it that is
reserved and not written: also right after a reservation whose probe is older than other grants,
writes and releases. -/
theorem floor_protected (ρ : Run) (minimum : ℕ) (hρ : ρ.Disciplined minimum) (n : ℕ) (d : Device)
    (hlive : (ρ.state n).Live d) : minimum + (ρ.state n).unwrittenOn d ≤ (ρ.state n).available d :=
  (hρ.floor n).covered d hlive

/-- Two calls probe the same device before either has reserved anything. The second finds that the
revision has moved and probes again, after the first holder has written. -/
def staleProbe : Run where
  available := fun _ => 100
  schedule n := [.begin 0 0 40 10, .begin 1 0 30 10, .observe 0, .observe 1, .probe 0 false,
    .probe 1 false, .reserve 0, .reserve 1, .write 0 15 15, .consume 0 15, .observe 1,
    .probe 1 false, .reserve 1].getD n (.observe 2)

lemma staleProbe_rests (n : ℕ) : staleProbe.state (13 + n) = staleProbe.state 13 := by
  induction n with
  | zero => rfl
  | succ n ih =>
    have hnone : (machine staleProbe.available).step (staleProbe.state (13 + n))
        (staleProbe.schedule (13 + n)) = none := by
      rw [ih, Nat.add_comm]
      rfl
    exact (Machine.run_succ_of_none hnone).trans ih

lemma staleProbe_disciplined : staleProbe.Disciplined 10 where
  steps n := by
    match n with
    | 0 | 1 => rfl
    | 2 | 3 | 4 | 5 | 6 | 7 | 9 | 10 | 11 | 12 | _ + 13 => trivial
    | 8 =>
      intro r hr
      have hcell : (staleProbe.state 8).reservations 0 = some ⟨0, 40, 0, none, 0⟩ := by
        decide +kernel
      cases hr
      decide
  revisions n d := by
    obtain hlt | ⟨k, rfl⟩ := (Nat.lt_or_ge n 13).imp_right Nat.exists_eq_add_of_le
    · cases d with
      | zero => exact (by decide +kernel : ∀ n < 13,
          (staleProbe.state n).revisionOf 0 ≤ (staleProbe.state (n + 1)).revisionOf 0) n hlt
      | succ d =>
        have hzero : ∀ n < 14, (staleProbe.state n).revisionOf (d + 1) = 0 := by
          intro n hn
          interval_cases n <;> rfl
        rw [hzero n (by omega), hzero (n + 1) (by omega)]
    · rw [Nat.add_assoc, staleProbe_rests, staleProbe_rests]

theorem floor_protected_staleProbe : (staleProbe.state 13).unwrittenOn 0 = 55 ∧
      10 + (staleProbe.state 13).unwrittenOn 0 ≤ (staleProbe.state 13).available 0 :=
  ⟨by decide +kernel, floor_protected staleProbe 10 staleProbe_disciplined 13 0
    ⟨0, ⟨0, 25, 15, none, 0⟩, by decide +kernel, rfl⟩⟩

end Run

end DufsRam.DiskSpace
