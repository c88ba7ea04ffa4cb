import Mathlib.Order.Bounds.Defs
import DufsRam.StateStore.Model

/-!
# The clock of the state store

`StoreClock` of `state_store.rs` combines the wall clock, which may be set back or be unreadable,
with the monotonic clock. It keeps one anchor, a wall reading with the instant at which it was
taken, and moves it whenever the wall clock is ahead of what the anchor predicts. Instants are in
nanoseconds, and the time since the anchor is rounded down to milliseconds at every observation.
-/

namespace DufsRam

open Option

structure StoreClock where
  wallAnchorMs : Int
  monotonicAnchor : ℕ
  lastMs : Int

variable {w : Int} {m : ℕ}

namespace StoreClock

def new (wallNowMs : Int) (monotonicNow : ℕ) : StoreClock :=
  ⟨wallNowMs, monotonicNow, wallNowMs⟩

/-- `Duration::as_millis` of the time between two instants. -/
def elapsedMs (since now : ℕ) : ℕ := (now - since) / 1000000

/-- `observe`: what the call returns, and the clock it leaves. -/
def observe (c : StoreClock) (wallNowMs : Option Int) (monotonicNow : ℕ) :
    Result Int × StoreClock :=
  if monotonicNow < c.monotonicAnchor then (.error "The monotonic clock moved backwards", c)
  else
    let elapsed := elapsedMs c.monotonicAnchor monotonicNow
    if i64Max < elapsed then
      (.error "The monotonic clock cannot be represented in milliseconds", c)
    else
      let candidate := c.wallAnchorMs + elapsed
      if candidate < i64Min ∨ i64Max < candidate then
        (.error "The state store clock overflowed", c)
      else
        match wallNowMs.filter fun wall => decide (candidate < wall) with
        | some wall =>
          (.ok (max wall c.lastMs), ⟨wall, monotonicNow, max wall c.lastMs⟩)
        | none => (.ok (max candidate c.lastMs), { c with lastMs := max candidate c.lastMs })

/-- The readings taken by the construction of a clock and by its later observations. The wall
clock may jump in either direction, and only the construction insists on reading it. -/
structure Readings where
  first : Int
  later : ℕ → Option Int
  monotonic : ℕ → ℕ
  first_ge : i64Min ≤ first
  later_ge : ∀ n w, later n = some w → i64Min ≤ w
  nondecreasing : ∀ {m n}, m ≤ n → monotonic m ≤ monotonic n

namespace Readings

variable (r : Readings)

def wall : ℕ → Option Int
  | 0 => some r.first
  | n + 1 => r.later n

def clock : ℕ → StoreClock
  | 0 => .new r.first (r.monotonic 0)
  | n + 1 => ((clock n).observe (r.wall (n + 1)) (r.monotonic (n + 1))).2

/-- The `n`-th value: that of the construction, or what the `n`-th observation returns. -/
def value : ℕ → Result Int
  | 0 => .ok (r.clock 0).lastMs
  | n + 1 => ((r.clock n).observe (r.wall (n + 1)) (r.monotonic (n + 1))).1

/-- What the `i`-th wall reading makes of the instant of the `n`-th observation. -/
def estimate (w : Int) (i n : ℕ) : Int :=
  w + elapsedMs (r.monotonic i) (r.monotonic n)

/-- The estimates that the wall readings up to the `n`-th observation make of its time. -/
def estimates (n : ℕ) : Set Int :=
  {v | ∃ i ≤ n, ∃ w, r.wall i = some w ∧ v = r.estimate w i n}

/-- Up to the `n`-th observation the time since every wall reading, and what it adds up to with
the reading, fits an `i64`. -/
def NoOverflow (n : ℕ) : Prop :=
  ∀ m ≤ n, ∀ i ≤ m, ∀ w, r.wall i = some w →
    elapsedMs (r.monotonic i) (r.monotonic m) ≤ i64Max ∧ r.estimate w i m ≤ i64Max

/-- The anchor is a reading taken before, and from now on no reading estimates more than it. -/
structure Anchored (n : ℕ) (c : StoreClock) : Prop where
  taken : ∃ i ≤ n, r.wall i = some c.wallAnchorMs ∧ c.monotonicAnchor = r.monotonic i
  last : c.lastMs = c.wallAnchorMs + elapsedMs c.monotonicAnchor (r.monotonic n)
  ahead : ∀ i ≤ n, ∀ w, r.wall i = some w → ∀ t, r.monotonic n ≤ t →
    w + elapsedMs (r.monotonic i) t ≤ c.wallAnchorMs + elapsedMs c.monotonicAnchor t

variable {r} {n : ℕ} {c : StoreClock}

lemma wall_ge (h : r.wall n = some w) : i64Min ≤ w := by
  cases n with
  | zero =>
    obtain rfl : r.first = w := some.inj h
    exact r.first_ge
  | succ n => exact r.later_ge n w h

lemma anchored_zero : r.Anchored 0 (r.clock 0) where
  taken := ⟨0, le_rfl, rfl, rfl⟩
  last := by simp [clock, new, elapsedMs]
  ahead := by
    intro i hi w hw t _
    obtain rfl : i = 0 := by omega
    obtain rfl : r.first = w := some.inj hw
    simp [clock, new]

/-- An anchor that stays serves the next observation, whose wall reading is not ahead of it. -/
lemma Anchored.keep (h : r.Anchored n c) (hwall : ∀ w, r.wall (n + 1) = some w →
      w ≤ c.wallAnchorMs + elapsedMs c.monotonicAnchor (r.monotonic (n + 1))) :
    r.Anchored (n + 1) { c with
      lastMs := c.wallAnchorMs + elapsedMs c.monotonicAnchor (r.monotonic (n + 1)) } where
  taken := by
    obtain ⟨i, hi, htaken⟩ := h.taken
    exact ⟨i, by omega, htaken⟩
  last := rfl
  ahead := by
    intro i hi w hw t ht
    have hmono := r.nondecreasing (Nat.le_add_right n 1)
    obtain ⟨k, hk, -, hanch⟩ := h.taken
    have hbef := r.nondecreasing hk
    rcases Nat.lt_or_eq_of_le hi with hi | rfl
    · exact h.ahead i (by omega) w hw t (hmono.trans ht)
    · -- rounding down twice gives no more than rounding down once
      have hle := hwall w hw
      simp only [elapsedMs] at hle ⊢
      omega

/-- A wall reading ahead of the anchor is a whole millisecond ahead, more than the rounding at the
new anchor can lose. -/
lemma Anchored.move (h : r.Anchored n c) (hw : r.wall (n + 1) = some w)
    (hahead : c.wallAnchorMs + elapsedMs c.monotonicAnchor (r.monotonic (n + 1)) < w) :
    r.Anchored (n + 1) ⟨w, r.monotonic (n + 1), w⟩ where
  taken := ⟨n + 1, le_rfl, hw, rfl⟩
  last := by simp [elapsedMs]
  ahead := by
    intro i hi v hv t ht
    have hmono := r.nondecreasing (Nat.le_add_right n 1)
    obtain ⟨k, hk, -, hanch⟩ := h.taken
    have hbef := r.nondecreasing hk
    rcases Nat.lt_or_eq_of_le hi with hi | rfl
    · have hold := h.ahead i (by omega) v hv t (hmono.trans ht)
      simp only [elapsedMs] at hold hahead ⊢
      omega
    · obtain rfl : v = w := some.inj (hv.symm.trans hw)
      exact le_rfl

/-- While nothing overflows, an observation returns the time it leaves in the clock. -/
lemma Anchored.observe (h : r.Anchored n c) (hfits : r.NoOverflow (n + 1)) :
    ∃ c', c.observe (r.wall (n + 1)) (r.monotonic (n + 1)) = (.ok c'.lastMs, c') ∧
      r.Anchored (n + 1) c' := by
  obtain ⟨k, hk, hwall, hanch⟩ := h.taken
  have hmono := r.nondecreasing (Nat.le_add_right n 1)
  have hbef := r.nondecreasing hk
  obtain ⟨helapsed, hsum⟩ := hfits (n + 1) le_rfl k (by omega) _ hwall
  have hge := wall_ge hwall
  rw [← hanch] at helapsed
  rw [estimate, ← hanch] at hsum
  have hlast := h.last
  have hgrow : elapsedMs c.monotonicAnchor (r.monotonic n) ≤
      elapsedMs c.monotonicAnchor (r.monotonic (n + 1)) := by
    simp only [elapsedMs]
    omega
  unfold StoreClock.observe
  rw [if_neg (by omega), if_neg (by omega)]
  dsimp only
  rw [if_neg (by omega)]
  split
  case h_1 w heq =>
    obtain ⟨hw, hahead⟩ := filter_eq_some_iff.mp heq
    have hahead := of_decide_eq_true hahead
    refine ⟨⟨w, r.monotonic (n + 1), w⟩, ?_, h.move hw hahead⟩
    rw [max_eq_left (by omega)]
  case h_2 heq =>
    refine ⟨_, ?_, h.keep ?_⟩
    · rw [max_eq_left (by omega)]
    · intro w hw
      have hnot := filter_eq_none_iff.mp heq w hw
      simpa using hnot

lemma NoOverflow.mono (h : r.NoOverflow n) (hle : m ≤ n) : r.NoOverflow m :=
  fun k hk => h k (hk.trans hle)

/-- By induction over the observations, the anchor stands for all readings so far. -/
lemma anchored (h : r.NoOverflow n) :
    r.Anchored n (r.clock n) ∧ r.value n = .ok (r.clock n).lastMs := by
  induction n with
  | zero => exact ⟨anchored_zero, rfl⟩
  | succ n ih =>
    obtain ⟨c', hobs, hanch⟩ := (ih (h.mono (Nat.le_add_right n 1))).1.observe h
    simp only [clock, value, hobs]
    exact ⟨hanch, trivial⟩

lemma Anchored.isGreatest (h : r.Anchored n c) : IsGreatest (r.estimates n) c.lastMs := by
  constructor
  · obtain ⟨i, hi, hwall, hanch⟩ := h.taken
    refine ⟨i, hi, _, hwall, ?_⟩
    rw [h.last, hanch, estimate]
  · rintro v ⟨i, hi, w, hw, rfl⟩
    rw [h.last]
    exact h.ahead i hi w hw _ le_rfl

lemma Anchored.le_last {d : StoreClock} (hm : r.Anchored m d) (h : r.Anchored n c)
    (hle : m ≤ n) : d.lastMs ≤ c.lastMs := by
  obtain ⟨i, hi, hwall, hanch⟩ := hm.taken
  have hestimate := h.ahead i (hi.trans hle) _ hwall _ le_rfl
  have hmono := r.nondecreasing hle
  rw [hm.last, h.last, hanch]
  simp only [elapsedMs] at hestimate ⊢
  omega

end Readings

/-- The `n`-th value of the clock is the greatest of the estimates that the wall readings so far
make of its time. So the values never decrease, and none is below the wall reading of its own
observation. -/
theorem value_isGreatest (r : Readings) (n : ℕ) (h : r.NoOverflow n) :
    ∃ v, r.value n = .ok v ∧ IsGreatest (r.estimates n) v ∧
      (∀ m ≤ n, ∃ u, r.value m = .ok u ∧ u ≤ v) ∧ ∀ w, r.wall n = some w → w ≤ v := by
  obtain ⟨hanchored, hvalue⟩ := Readings.anchored h
  refine ⟨_, hvalue, hanchored.isGreatest, ?_, ?_⟩
  · intro m hm
    obtain ⟨hbefore, hok⟩ := Readings.anchored (h.mono hm)
    exact ⟨_, hok, hbefore.le_last hanchored hm⟩
  · intro w hw
    apply hanchored.isGreatest.2
    exact ⟨n, le_rfl, w, hw, by simp [Readings.estimate, elapsedMs]⟩

/-- The wall clock jumps ahead, is set back and cannot be read. -/
def sampleReadings : Readings where
  first := 1000
  later := fun n => [some 1005, some 900, none][n]?.join
  monotonic := fun n => 1600000 * n
  first_ge := by decide
  later_ge := by
    intro n w h
    match n with
    | 0 | 1 => cases h; decide
    | 2 | _ + 3 => cases h
  nondecreasing := by
    intro m n h
    omega

lemma sampleReadings_noOverflow : sampleReadings.NoOverflow 3 := by
  have h : ∀ m ≤ 3, ∀ i ≤ m, ∀ w ∈ sampleReadings.wall i,
      elapsedMs (sampleReadings.monotonic i) (sampleReadings.monotonic m) ≤ i64Max ∧
        sampleReadings.estimate w i m ≤ i64Max := by
    decide
  exact h

theorem sampleReadings_isGreatest :
    ∃ v, sampleReadings.value 3 = .ok v ∧ IsGreatest (sampleReadings.estimates 3) v ∧ v = 1008 := by
  obtain ⟨v, hvalue, hgreatest, -⟩ := value_isGreatest sampleReadings 3 sampleReadings_noOverflow
  have h : sampleReadings.value 3 = .ok 1008 := by decide
  exact ⟨v, hvalue, hgreatest, Except.ok.inj (hvalue.symm.trans h)⟩

end StoreClock

end DufsRam
