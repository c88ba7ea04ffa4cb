import Mathlib.Data.Nat.Basic

/-!
# Loops

A loop repeats a round until the round says that it is over. It is run with a number of rounds; the
loop terminates if some number of rounds is enough, and then any larger number gives the same
result.
-/

namespace Loop

variable {σ : Type*} {round : σ → Option σ} {P : σ → Prop} {s s' : σ} {n m : ℕ}

/-- At most the given number of rounds. There is no result if the loop is not over by then. -/
def iterate (round : σ → Option σ) : ℕ → σ → Option σ
  | 0, _ => none
  | n + 1, s =>
    match round s with
    | none => some s
    | some s' => iterate round n s'

lemma iterate_of_none (h : round s = none) : iterate round (n + 1) s = some s := by
  rw [iterate, h]

lemma iterate_of_some (h : round s = some s') : iterate round (n + 1) s = iterate round n s' := by
  rw [iterate, h]

/-- What every round keeps holds at the end, where the round says that the loop is over. -/
lemma iterate_spec (hround : ∀ s s', P s → round s = some s' → P s') (hs : P s)
    (h : iterate round n s = some s') : P s' ∧ round s' = none := by
  induction n generalizing s with
  | zero => cases h
  | succ n ih =>
    cases hnext : round s with
    | none =>
      rw [iterate_of_none hnext] at h
      obtain rfl := Option.some.inj h
      exact ⟨hs, hnext⟩
    | some s₁ =>
      rw [iterate_of_some hnext] at h
      exact ih (hround s s₁ hs hnext) h

/-- A loop whose rounds lower a measure terminates. -/
lemma exists_iterate (μ : σ → ℕ) (hround : ∀ s s', P s → round s = some s' → P s' ∧ μ s' < μ s)
    (hs : P s) (hn : μ s < n) : ∃ s', iterate round n s = some s' := by
  induction n generalizing s with
  | zero => exact absurd hn (Nat.not_lt_zero _)
  | succ n ih =>
    cases hnext : round s with
    | none => exact ⟨s, iterate_of_none hnext⟩
    | some s₁ =>
      rw [iterate_of_some hnext]
      obtain ⟨hs₁, hlt⟩ := hround s s₁ hs hnext
      exact ih hs₁ (by omega)

end Loop
