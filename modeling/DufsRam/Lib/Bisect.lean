import Mathlib.Order.Basic

/-!
# Binary search with probes that may fail

A probe of a position finds something there, finds nothing, or fails, and a failed probe ends the
search. Nothing is assumed of the probes: the search ends at a position where something was found
whose successor is a miss.
-/

namespace Bisect

variable {ε α : Type*} {probe : ℕ → Except ε (Option α)}

/-- Search above `lo`, where `found` was found, and below `hi`, which is a miss. -/
def search (probe : ℕ → Except ε (Option α)) (lo hi : ℕ) (found : α) : Except ε (α × ℕ) :=
  if lo + 1 < hi then
    match probe (lo + (hi - lo) / 2) with
    | .error e => .error e
    | .ok (some a) => search probe (lo + (hi - lo) / 2) hi a
    | .ok none => search probe lo (lo + (hi - lo) / 2) found
  else .ok (found, lo)
termination_by hi - lo
decreasing_by all_goals omega

/-- What is known of the bounds of a search holds of its result, which is next to a miss. -/
theorem search_spec {P : ℕ → α → Prop} {Q : ℕ → Prop}
    (hfnd : ∀ k a, probe k = .ok (some a) → P k a) (hmiss : ∀ k, probe k = .ok none → Q k)
    {lo hi k : ℕ} {found a : α} (hlt : lo < hi) (hlo : P lo found) (hhi : Q hi)
    (h : search probe lo hi found = .ok (a, k)) : k < hi ∧ P k a ∧ Q (k + 1) := by
  -- the induction follows the search: each probe moves one of the two bounds
  fun_induction search probe lo hi found with
  | case1 lo hi found hgap e hprb => cases h
  | case2 lo hi found hgap b hprb ih => exact ih (by omega) (hfnd _ _ hprb) hhi h
  | case3 lo hi found hgap hprb ih =>
    obtain ⟨hk, hfinal⟩ := ih (by omega) hlo (hmiss _ hprb) h
    exact ⟨by omega, hfinal⟩
  | case4 lo hi found hgap =>
    cases h
    have hnext : k + 1 = hi := by omega
    exact ⟨hlt, hlo, hnext ▸ hhi⟩

/-- A search in which no probe fails ends. -/
theorem exists_search (hprb : ∀ k, ∃ r, probe k = .ok r)
    (lo hi : ℕ) (found : α) : ∃ result, search probe lo hi found = .ok result := by
  fun_induction search probe lo hi found with
  | case1 lo hi found hgap e hfail =>
    obtain ⟨r, hr⟩ := hprb (lo + (hi - lo) / 2)
    cases hr.symm.trans hfail
  | case2 lo hi found hgap b hfnd ih | case3 lo hi found hgap hmiss ih => exact ih
  | case4 lo hi found hgap => exact ⟨_, rfl⟩

end Bisect
