import Mathlib.Data.List.FinRange
import Mathlib.Data.List.Sort
import Mathlib.Order.Compare

/-!
# Stable sorting by merging runs

The stable sort of a list is the only sorted permutation in which equivalent elements keep their
order. A sort of positions that puts equivalent elements in the order of their positions gives it,
and merging adjacent runs of positions, from the left where elements are equivalent, is such a sort.
-/

namespace StableSort

open List Std.TransCmp Std.ReflCmp

variable {α ι : Type*}

/-! ### The stable sort of a list -/

/-- A sorted permutation of the list in which equivalent elements keep their order. -/
structure IsStableSort (cmp : α → α → Ordering) (l l' : List α) : Prop where
  perm : l'.Perm l
  sorted : l'.Pairwise fun a b => cmp a b ≠ .gt
  stable : ∀ a, l'.filter (fun b => cmp a b = .eq) = l.filter fun b => cmp a b = .eq

section Unique

variable {cmp : α → α → Ordering} [Std.TransCmp cmp]

/-- The heads of two sorted lists with the same elements are equivalent. -/
lemma head_eq {a b : α} {l l' : List α} (hperm : (a :: l).Perm (b :: l'))
    (hl : (a :: l).Pairwise fun a b => cmp a b ≠ .gt)
    (hl' : (b :: l').Pairwise fun a b => cmp a b ≠ .gt) : cmp a b = .eq := by
  have hab : cmp a b ≠ .gt := by
    rcases mem_cons.1 (hperm.mem_iff.2 mem_cons_self) with rfl | hb
    · simp [compare_self]
    · exact rel_of_pairwise_cons hl hb
  have hba : cmp b a ≠ .gt := by
    rcases mem_cons.1 (hperm.mem_iff.1 mem_cons_self) with rfl | ha
    · simp [compare_self]
    · exact rel_of_pairwise_cons hl' ha
  rw [Ne, Std.OrientedCmp.gt_iff_lt] at hba
  cases h : cmp a b with
  | lt => exact absurd h hba
  | eq => rfl
  | gt => exact absurd h hab

/-- Sorted lists that agree on every class of equivalent elements are equal. -/
lemma eq_of_filter_eq {l l' : List α} (hperm : l.Perm l')
    (hl : l.Pairwise fun a b => cmp a b ≠ .gt) (hl' : l'.Pairwise fun a b => cmp a b ≠ .gt)
    (hfilt : ∀ a, l.filter (fun b => cmp a b = .eq) = l'.filter fun b => cmp a b = .eq) :
    l = l' := by
  induction l generalizing l' with
  | nil => exact hperm.nil_eq
  | cons a l ih =>
    cases l' with
    | nil => exact absurd hperm.symm (by simp)
    | cons b l' =>
      have hab := head_eq hperm hl hl'
      -- the first elements of the class of `a` are the heads
      have hclass := hfilt a
      rw [filter_cons_of_pos (by simp [compare_self]),
        filter_cons_of_pos (by simp [hab])] at hclass
      obtain rfl : a = b := (List.cons.inj hclass).1
      refine congrArg (a :: ·) (ih hperm.cons_inv hl.of_cons hl'.of_cons fun c => ?_)
      have hc := hfilt c
      by_cases hca : cmp c a = .eq
      · rw [filter_cons_of_pos (by simp [hca]), filter_cons_of_pos (by simp [hca])] at hc
        exact (List.cons.inj hc).2
      · rwa [filter_cons_of_neg (by simp [hca]), filter_cons_of_neg (by simp [hca])] at hc

/-- There is only one stable sort. -/
theorem IsStableSort.unique {l l₁ l₂ : List α} (h₁ : IsStableSort cmp l l₁)
    (h₂ : IsStableSort cmp l l₂) : l₁ = l₂ :=
  eq_of_filter_eq (h₁.perm.trans h₂.perm.symm) h₁.sorted h₂.sorted fun a =>
    (h₁.stable a).trans (h₂.stable a).symm

end Unique

/-! ### Sorting positions -/

section Positions

variable [LinearOrder ι] (cmp : α → α → Ordering) (v : ι → α)

/-- The element at the first position is smaller, or the two are equivalent and it comes first. -/
def Before (i j : ι) : Prop := cmp (v i) (v j) = .lt ∨ cmp (v i) (v j) = .eq ∧ i < j

/-- The element at the first position may come first. -/
def precedes (i j : ι) : Bool := cmp (v i) (v j) != .gt

variable {cmp v} [Std.TransCmp cmp] {i j k : ι}

lemma Before.trans (hij : Before cmp v i j) (hjk : Before cmp v j k) : Before cmp v i k := by
  rcases hij with hij | ⟨hij, hlt⟩
  · rcases hjk with hjk | ⟨hjk, -⟩
    · exact .inl (lt_trans hij hjk)
    · exact .inl (lt_of_lt_of_eq hij hjk)
  · rcases hjk with hjk | ⟨hjk, hlt'⟩
    · exact .inl (lt_of_eq_of_lt hij hjk)
    · exact .inr ⟨eq_trans hij hjk, hlt.trans hlt'⟩

omit [Std.TransCmp cmp] in
lemma before_of_precedes (h : precedes cmp v i j = true) (hlt : i < j) : Before cmp v i j := by
  cases hcmp : cmp (v i) (v j) with
  | lt => exact .inl hcmp
  | eq => exact .inr ⟨hcmp, hlt⟩
  | gt => simp [precedes, hcmp] at h

lemma before_of_not_precedes (h : precedes cmp v i j = false) : Before cmp v j i := by
  refine .inl (Std.OrientedCmp.gt_iff_lt.1 ?_)
  simpa [precedes] using h

/-- Two sorted runs of positions, the second behind the first, are merged to a sorted run. -/
lemma pairwise_merge {l r : List ι} (hl : l.Pairwise (Before cmp v))
    (hr : r.Pairwise (Before cmp v)) (hlr : ∀ i ∈ l, ∀ j ∈ r, i < j) :
    (l.merge r (precedes cmp v)).Pairwise (Before cmp v) := by
  induction l generalizing r with
  | nil => rwa [nil_merge]
  | cons i l ihl =>
    induction r with
    | nil => rwa [merge_right]
    | cons j r ihr =>
      rw [cons_merge_cons]
      have hi := (pairwise_cons.1 hl).1
      have hj := (pairwise_cons.1 hr).1
      split_ifs with hprec
      · have hij := before_of_precedes hprec (hlr i (by simp) j (by simp))
        refine pairwise_cons.2 ⟨fun k hk => ?_, ?_⟩
        · rcases mem_merge.1 hk with hk | hk
          · exact hi k hk
          · rcases mem_cons.1 hk with rfl | hk
            · exact hij
            · exact hij.trans (hj k hk)
        · exact ihl hl.of_cons hr fun a ha b hb => hlr a (mem_cons_of_mem i ha) b hb
      · have hji := before_of_not_precedes (Bool.not_eq_true _ ▸ hprec)
        refine pairwise_cons.2 ⟨fun k hk => ?_, ?_⟩
        · rcases mem_merge.1 hk with hk | hk
          · rcases mem_cons.1 hk with rfl | hk
            · exact hji
            · exact hji.trans (hi k hk)
          · exact hj k hk
        · exact ihr hr.of_cons fun a ha b hb => hlr a ha b (mem_cons_of_mem j hb)

/-- The elements at sorted positions are stably sorted. -/
theorem isStableSort_map {l base : List ι} (hbase : base.Pairwise (· < ·)) (hperm : l.Perm base)
    (hl : l.Pairwise (Before cmp v)) : IsStableSort cmp (base.map v) (l.map v) := by
  refine ⟨hperm.map v, ?_, fun a => ?_⟩
  · rw [pairwise_map]
    refine hl.imp fun {i j} h => ?_
    rcases h with h | ⟨h, -⟩ <;> simp [h]
  · -- in the class of `a`, positions are sorted by position alone
    rw [filter_map, filter_map]
    refine congrArg (List.map v) ?_
    set p : ι → Bool := (fun b => decide (cmp a b = .eq)) ∘ v with hp
    have hclass : (l.filter p).Pairwise (· < ·) := by
      rw [pairwise_filter]
      refine hl.imp fun {i j} h hi hj => ?_
      have hij : cmp (v i) (v j) = .eq := by
        have hi : cmp a (v i) = .eq := by simpa [hp] using hi
        have hj : cmp a (v j) = .eq := by simpa [hp] using hj
        exact eq_trans (Std.OrientedCmp.eq_symm hi) hj
      rcases h with h | ⟨-, h⟩
      · cases hij.symm.trans h
      · exact h
    exact (hperm.filter p).eq_of_pairwise (fun i j _ _ hij hji => absurd hji (lt_asymm hij)) hclass
      (hbase.filter p)

end Positions

/-! ### Merging adjacent runs -/

section Runs

variable {w : ℕ} {le : ι → ι → Bool} {hw : 0 < w}

/-- The run of the given width at a multiple of the width; the last one may be shorter. -/
def run (w k : ℕ) (l : List ι) : List ι := (l.drop (k * w)).take w

lemma run_drop (k m : ℕ) (l : List ι) : run w k (l.drop (m * w)) = run w (m + k) l := by
  rw [run, run, drop_drop, Nat.add_mul]

/-- A run of twice the width is two runs. -/
lemma run_two (k : ℕ) (l : List ι) : run (2 * w) k l = run w (2 * k) l ++ run w (2 * k + 1) l := by
  have hnext : run w (2 * k + 1) l = ((l.drop (2 * k * w)).drop w).take w := by
    rw [run, drop_drop, Nat.add_mul, Nat.one_mul]
  rw [hnext, run, run, ← take_add, Nat.two_mul w, Nat.mul_add, Nat.mul_comm 2 k,
    Nat.mul_assoc, Nat.two_mul w, Nat.mul_add]

/-- Merge each run with its neighbour. -/
def mergeRuns (le : ι → ι → Bool) (w : ℕ) (hw : 0 < w) : List ι → List ι
  | [] => []
  | i :: l => ((i :: l).take w).merge (((i :: l).drop w).take w) le ++
      mergeRuns le w hw ((i :: l).drop (2 * w))
termination_by l => l.length
decreasing_by
  rw [List.length_drop, List.length_cons]
  omega

lemma mergeRuns_of_ne_nil {l : List ι} (h : l ≠ []) : mergeRuns le w hw l =
      (run w 0 l).merge (run w 1 l) le ++ mergeRuns le w hw (l.drop (2 * w)) := by
  cases l with
  | nil => exact absurd rfl h
  | cons i l => rw [mergeRuns, run, run, Nat.zero_mul, drop_zero, Nat.one_mul]

@[simp]
lemma mergeRuns_nil : mergeRuns le w hw [] = [] := by
  rw [mergeRuns]

/-- The first run after a pass, and the pass over the rest. -/
lemma take_drop_mergeRuns (l : List ι) :
    (mergeRuns le w hw l).take (2 * w) = (run w 0 l).merge (run w 1 l) le ∧
      (mergeRuns le w hw l).drop (2 * w) = mergeRuns le w hw (l.drop (2 * w)) := by
  by_cases hl : l = []
  · simp [hl, run]
  have hlen : ((run w 0 l).merge (run w 1 l) le).length = min (2 * w) l.length := by
    rw [length_merge, run, run, length_take, length_take, length_drop, length_drop]
    omega
  rw [mergeRuns_of_ne_nil hl]
  by_cases hlong : 2 * w ≤ l.length
  · exact ⟨take_left' (by omega), drop_left' (by omega)⟩
  · rw [drop_eq_nil_of_le (by omega), mergeRuns_nil, append_nil]
    exact ⟨take_of_length_le (by omega), drop_eq_nil_of_le (by omega)⟩

/-- The runs after a pass are the merged pairs of runs. -/
lemma run_mergeRuns (k : ℕ) (l : List ι) :
    run (2 * w) k (mergeRuns le w hw l) = (run w (2 * k) l).merge (run w (2 * k + 1) l) le := by
  induction k generalizing l with
  | zero => rw [run, Nat.zero_mul, drop_zero, (take_drop_mergeRuns l).1]
  | succ k ih =>
    have hrest : run (2 * w) (k + 1) (mergeRuns le w hw l) =
        run (2 * w) k (mergeRuns le w hw (l.drop (2 * w))) := by
      rw [← (take_drop_mergeRuns l).2, Nat.add_comm, ← run_drop k 1, Nat.one_mul]
    rw [hrest, ih (l.drop (2 * w)), run_drop, run_drop]
    congr 2 <;> omega

end Runs

/-! ### Sorted runs -/

section SortedRuns

variable [LinearOrder ι] (cmp : α → α → Ordering) (v : ι → α)

/-- Every run of the list has the positions of the same run of the other list, sorted. -/
def SortedRuns (w : ℕ) (base l : List ι) : Prop :=
  ∀ k, (run w k l).Perm (run w k base) ∧ (run w k l).Pairwise (Before cmp v)

variable {cmp v} {w : ℕ} {base l : List ι}

/-- Single positions are sorted runs. -/
lemma sortedRuns_one : SortedRuns cmp v 1 base base := by
  intro k
  refine ⟨.refl _, ?_⟩
  have hlen : (run 1 k base).length ≤ 1 := length_take_le _ _
  match hrun : run 1 k base with
  | [] => exact .nil
  | [i] => exact pairwise_singleton _ _
  | i :: j :: rest => simp [hrun] at hlen

/-- If all positions are in one run, the list is sorted. -/
lemma SortedRuns.sorted (h : SortedRuns cmp v w base l) (hw : 0 < w) (hbase : base.length ≤ w) :
    l.Perm base ∧ l.Pairwise (Before cmp v) := by
  have hrun : ∀ l : List ι, l.length ≤ w → run w 0 l = l := by
    intro l hl
    rw [run, Nat.zero_mul, drop_zero, take_of_length_le hl]
  -- there is nothing in the second run
  have hl : l.length ≤ w := by
    have hnil : (run w 1 base) = [] := by
      rw [run, Nat.one_mul, drop_eq_nil_of_le hbase, take_nil]
    have hsnd := (h 1).1
    rw [hnil, perm_nil, run, Nat.one_mul, take_eq_nil_iff, drop_eq_nil_iff] at hsnd
    omega
  simpa [hrun l hl, hrun base hbase] using h 0

/-- A pass doubles the width of the sorted runs. -/
lemma SortedRuns.mergeRuns [Std.TransCmp cmp] (h : SortedRuns cmp v w base l) (hw : 0 < w)
    (hbase : base.Pairwise (· < ·)) :
    SortedRuns cmp v (2 * w) base (mergeRuns (precedes cmp v) w hw l) := by
  intro k
  obtain ⟨hleft, hleft'⟩ := h (2 * k)
  obtain ⟨hrt, hrt'⟩ := h (2 * k + 1)
  rw [run_mergeRuns, run_two]
  refine ⟨(merge_perm_append _).trans (hleft.append hrt), ?_⟩
  apply pairwise_merge hleft' hrt'
  intro i hi j hj
  -- the two runs lie one behind the other
  have hpair : (run w (2 * k) base ++ run w (2 * k + 1) base).Pairwise (· < ·) := by
    rw [← run_two]
    exact (hbase.drop).take
  exact (pairwise_append.1 hpair).2.2 i (hleft.mem_iff.1 hi) j (hrt.mem_iff.1 hj)

end SortedRuns

end StableSort
