import Mathlib.Algebra.BigOperators.Group.Finset.Basic
import Mathlib.Algebra.Order.BigOperators.Group.Finset

/-!
# Totals over holders

Holders are numbered in the order in which they appear, and a holder that is gone leaves its place
empty. The total of a measure is its sum over the holders that are there; it moves with the one
holder that changes.
-/

namespace Ledger

open Finset Function

variable {α : Type*} {μ ν : α → ℕ} {n i : ℕ} {f : ℕ → Option α} {x : Option α} {a : α}

/-- What a place contributes. -/
def amount (μ : α → ℕ) : Option α → ℕ
  | none => 0
  | some a => μ a

@[simp] lemma amount_none : amount μ none = 0 := rfl

@[simp] lemma amount_some : amount μ (some a) = μ a := rfl

/-- The sum of a measure over the first places. -/
def total (μ : α → ℕ) (n : ℕ) (f : ℕ → Option α) : ℕ := ∑ i ∈ Finset.range n, amount μ (f i)

/-- The total moves with the holder that changes. -/
lemma total_update (h : i < n) :
    total μ n (update f i x) + amount μ (f i) = total μ n f + amount μ x := by
  have hi : i ∈ Finset.range n := mem_range.mpr h
  have hrest : ∑ j ∈ (Finset.range n).erase i, amount μ (update f i x j) =
      ∑ j ∈ (Finset.range n).erase i, amount μ (f j) := by
    refine sum_congr rfl fun j hj => ?_
    rw [update_of_ne (ne_of_mem_erase hj)]
  unfold total
  rw [← add_sum_erase _ _ hi, ← add_sum_erase _ (fun j => amount μ (f j)) hi, hrest, update_self]
  omega

/-- A new holder takes the next place. -/
lemma total_push : total μ (n + 1) (update f n (some a)) = total μ n f + μ a := by
  unfold total
  rw [sum_range_succ, update_self, amount_some]
  congr 1
  refine sum_congr rfl fun j hj => ?_
  rw [update_of_ne (mem_range.mp hj).ne]

/-- Nobody holds more than everybody. -/
lemma le_total (h : i < n) (ha : f i = some a) : μ a ≤ total μ n f := by
  have hle := single_le_sum (f := fun j => amount μ (f j)) (fun j _ => Nat.zero_le _)
    (mem_range.mpr h)
  rw [ha, amount_some] at hle
  exact hle

lemma total_mono (h : ∀ i a, f i = some a → μ a ≤ ν a) : total μ n f ≤ total ν n f := by
  refine sum_le_sum fun i _ => ?_
  cases hi : f i with
  | none => exact le_refl _
  | some a => exact h i a hi

/-- The total over holders that hold nothing. -/
lemma total_eq_zero (h : ∀ i < n, ∀ a, f i = some a → μ a = 0) : total μ n f = 0 := by
  refine sum_eq_zero fun i hi => ?_
  cases hfi : f i with
  | none => rfl
  | some a => exact h i (mem_range.mp hi) a hfi

end Ledger
