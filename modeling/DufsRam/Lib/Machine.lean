import Mathlib.Order.Monotone.Basic

/-!
# Machines driven by a schedule

A machine takes one labelled step at a time; an action that is not enabled leaves the state as it
is. A run is the sequence of states along a schedule, so that a property of every run is a property
of every finite interleaving.
-/

namespace Transition

/-- An initial state and the effect of each action that is enabled. -/
structure Machine (σ α : Type*) where
  init : σ
  step : σ → α → Option σ

variable {n : ℕ}

namespace Machine

variable {σ α : Type*} {M : Machine σ α} {schedule : ℕ → α} {a : α} {s s' : σ} {P : σ → Prop}

/-- The effect of an action, enabled or not. -/
def exec (M : Machine σ α) (s : σ) (a : α) : σ := (M.step s a).getD s

/-- The state before the `n`-th action of the schedule. -/
def run (M : Machine σ α) (schedule : ℕ → α) : ℕ → σ
  | 0 => M.init
  | n + 1 => M.exec (M.run schedule n) (schedule n)

lemma exec_of_step (h : M.step s a = some s') : M.exec s a = s' := by
  rw [exec, h, Option.getD_some]

/-- What holds of the state and of its successor under an enabled action holds after the action. -/
lemma exec_cases (hstay : P s) (hstep : ∀ s', M.step s a = some s' → P s') : P (M.exec s a) := by
  unfold exec
  cases h : M.step s a with
  | none => exact hstay
  | some s' => exact hstep s' h

/-- A property that holds initially and is kept by every enabled step holds along every run. -/
theorem run_invariant (hinit : P M.init)
    (hstep : ∀ s a s', P s → M.step s a = some s' → P s') (n : ℕ) : P (M.run schedule n) := by
  induction n with
  | zero => exact hinit
  | succ n ih => exact exec_cases ih fun s' h => hstep _ _ s' ih h

/-- The state after an enabled action. -/
lemma run_succ_of_step (h : M.step (M.run schedule n) (schedule n) = some s') :
    M.run schedule (n + 1) = s' :=
  exec_of_step h

/-- The state after an action that is not enabled. -/
lemma run_succ_of_none (h : M.step (M.run schedule n) (schedule n) = none) :
    M.run schedule (n + 1) = M.run schedule n := by
  rw [run, exec, h, Option.getD_none]

/-- A quantity that no step lowers does not fall along a run. -/
lemma run_monotone {β : Type*} [Preorder β] {f : σ → β}
    (hstep : ∀ s a s', M.step s a = some s' → f s ≤ f s') :
    Monotone fun n => f (M.run schedule n) :=
  monotone_nat_of_le_succ fun n =>
    exec_cases (P := fun s' => f (M.run schedule n) ≤ f s') (le_refl _) fun s' h => hstep _ _ s' h

end Machine

end Transition
