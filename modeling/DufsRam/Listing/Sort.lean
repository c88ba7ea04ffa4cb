import DufsRam.Lib.Hoare
import DufsRam.Lib.StableSort
import Mathlib.Data.Fintype.EquivFin

/-!
# Sorting a listing

`stable_sort_by_interruptible` of `listing.rs`: positions are sorted by merging runs, and then the
values are moved along the cycles of the permutation that was found. In each round of a loop there
is at most one comparison and one move, and before every 256th round a callback is asked whether to
go on.

An array of the given length is a function on its positions, and a pair of cursors into a run is the
pair of what is left of its halves. A width is less than the length when it is doubled, so that
nothing saturates.
-/

namespace DufsRam.Listing

open Hoare StableSort List Function

inductive InterruptibleSortFailure where
  | interrupted
  | allocation
  deriving DecidableEq

/-- What the sort does over time: it asks whether to go on, or compares or moves one item. -/
inductive SortEvent where
  | asked (answer : Bool)
  | compared
  | moved
  deriving DecidableEq

def SortEvent.isAsked : SortEvent → Bool
  | .asked _ => true
  | _ => false

/-- The values that are sorted and the counter of work, with what was done so far, latest first. -/
structure Sorter (α : Type) (n : ℕ) where
  values : Fin n → α
  workSinceCheck : ℕ
  trace : List SortEvent

abbrev SortM (α : Type) (n : ℕ) := EStateM InterruptibleSortFailure (Sorter α n)

def interruptCheckInterval : ℕ := 256

section Code

variable {α : Type} {n : ℕ} (compare : α → α → Ordering) (answers : ℕ → Bool)

/-! ### The code -/

def record (e : SortEvent) : SortM α n Unit := modify fun s => { s with trace := e :: s.trace }

/-- The callback gives its next answer. -/
def active : SortM α n Bool := do
  let s ← get
  let answer := answers (s.trace.countP SortEvent.isAsked)
  record (.asked answer)
  return answer

/-- The check at the start of every round. -/
def checkWork : SortM α n Unit := do
  modify fun s => { s with workSinceCheck := s.workSinceCheck + 1 }
  let s ← get
  if interruptCheckInterval ≤ s.workSinceCheck then
    let running ← active answers
    if running then modify fun s => { s with workSinceCheck := 0 } else throw .interrupted

/-- Whether the value at the first position stays before the other. -/
def compareAt (i j : Fin n) : SortM α n Bool := do
  record .compared
  let s ← get
  return precedes compare s.values i j

/-- `Vec::push` of a position. -/
def push (indices : List (Fin n)) (index : Fin n) : SortM α n (List (Fin n)) := do
  record .moved
  return indices ++ [index]

/-- The new position of an old one is written down. -/
def assign (next : Fin n → Fin n) (oldPosition newPosition : Fin n) :
    SortM α n (Fin n → Fin n) := do
  record .moved
  return update next oldPosition newPosition

/-- The values at the two positions are swapped, and so are their new positions. -/
def exchange (next : Fin n → Fin n) (position destination : Fin n) : SortM α n (Fin n → Fin n) := do
  record .moved
  modify fun s => { s with values := s.values ∘ Equiv.swap position destination }
  return next ∘ Equiv.swap position destination

/-- The initial order of the positions. -/
def pushIndices : List (Fin n) → List (Fin n) → SortM α n (List (Fin n))
  | [], current => return current
  | index :: rest, current => do
    checkWork answers
    pushIndices rest (← push current index)

/-- Merge two runs behind what was merged before. -/
def mergeRun : List (Fin n) → List (Fin n) → List (Fin n) → SortM α n (List (Fin n))
  | [], [], next => return next
  | i :: left, [], next => do
    checkWork answers
    mergeRun left [] (← push next i)
  | [], j :: right, next => do
    checkWork answers
    mergeRun [] right (← push next j)
  | i :: left, j :: right, next => do
    checkWork answers
    let takeLeft ← compareAt compare i j
    if takeLeft then mergeRun left (j :: right) (← push next i)
    else mergeRun (i :: left) right (← push next j)
termination_by left right => left.length + right.length

/-- Merge each run with its neighbour, from the left to the right. -/
def mergePass (width : ℕ) (hwidth : 0 < width) :
    List (Fin n) → List (Fin n) → SortM α n (List (Fin n))
  | [], next => return next
  | i :: current, next => do
    let next ← mergeRun compare answers ((i :: current).take width)
      (((i :: current).drop width).take width) next
    mergePass width hwidth ((i :: current).drop (2 * width)) next
termination_by current => current.length
decreasing_by
  rw [List.length_drop, List.length_cons]
  omega

/-- Merge runs until there is one. -/
def mergePasses (width : ℕ) (hwidth : 0 < width) (current : List (Fin n)) :
    SortM α n (List (Fin n)) :=
  if width < n then do
    let next ← mergePass compare answers width hwidth current []
    mergePasses (2 * width) (by omega) next
  else return current
termination_by n - width

/-- The new position of every old one. -/
def invert : List (Fin n × Fin n) → (Fin n → Fin n) → SortM α n (Fin n → Fin n)
  | [], next => return next
  | (newPosition, oldPosition) :: rest, next => do
    checkWork answers
    invert rest (← assign next oldPosition newPosition)

/-- Move the value at the position to its place until the one that belongs there is found. -/
def settle (position : Fin n) : ℕ → (Fin n → Fin n) → SortM α n (Fin n → Fin n)
  | 0, next => return next
  | fuel + 1, next =>
    if next position = position then return next
    else do
      checkWork answers
      settle position fuel (← exchange next position (next position))

def placeValues : List (Fin n) → (Fin n → Fin n) → SortM α n Unit
  | [], _ => return
  | position :: rest, next => do
    let next ← settle answers position n next
    placeValues rest next

/-- `reserved` tells which of the two index arrays could be allocated. -/
def stableSortByInterruptible (reserved : Bool × Bool) : SortM α n Unit := do
  let running ← active answers
  if running then
    if h : 2 ≤ n then
      if reserved.1 then
        let current ← pushIndices answers (finRange n) []
        if reserved.2 then
          let current ← mergePasses compare answers 1 Nat.one_pos current
          let next ← invert answers ((finRange n).zip current) fun _ => ⟨0, by omega⟩
          placeValues answers (finRange n) next
          let running ← active answers
          if running then return
          else throw .interrupted
        else throw .allocation
      else throw .allocation
    else return
  else throw .interrupted

end Code

variable {e : SortEvent} {trace : List SortEvent} {width : ℕ}

section Proofs

variable {α : Type} {n : ℕ} {compare : α → α → Ordering} {answers : ℕ → Bool}
  {P P' : (Fin n → α) → Prop} {v placed : Fin n → α} {m : SortM α n Unit}
  {Q : Unit → Sorter α n → Prop} {E : InterruptibleSortFailure → Sorter α n → Prop}

/-! ### The callback -/

/-- How often something was done since the callback was asked last. -/
def sinceAsked (e : SortEvent) (trace : List SortEvent) : ℕ :=
  (trace.takeWhile fun e => !e.isAsked).count e

@[simp]
lemma sinceAsked_compared :
    sinceAsked e (.compared :: trace) = sinceAsked e trace + if .compared = e then 1 else 0 := by
  simp [sinceAsked, SortEvent.isAsked, count_cons, beq_iff_eq]

@[simp]
lemma sinceAsked_moved :
    sinceAsked e (.moved :: trace) = sinceAsked e trace + if .moved = e then 1 else 0 := by
  simp [sinceAsked, SortEvent.isAsked, count_cons, beq_iff_eq]

/-- Between two questions there are no more comparisons and moves than that. -/
def Rested (trace : List SortEvent) (comparisons moves : ℕ) : Prop :=
  sinceAsked .compared trace ≤ comparisons ∧ sinceAsked .moved trace ≤ moves

/-- The callback was asked often enough, and has always told to go on. -/
structure Paced (trace : List SortEvent) : Prop where
  asked : ∀ t, t <:+ trace → Rested t interruptCheckInterval interruptCheckInterval
  goOn : ∀ e ∈ trace, e ≠ .asked false

lemma Paced.cons (h : Paced trace) (hgo : e ≠ .asked false)
    (hasked : Rested (e :: trace) interruptCheckInterval interruptCheckInterval) :
    Paced (e :: trace) := by
  constructor
  · intro t ht
    rcases suffix_cons_iff.1 ht with rfl | ht
    · exact hasked
    · exact h.asked t ht
  · intro e' he
    rcases mem_cons.1 he with rfl | he
    · exact hgo
    · exact h.goOn e' he

/-- Somewhere in a round: the counter has fallen behind only by the comparison and the move of the
round itself, and the values are as given. -/
structure Round (P : (Fin n → α) → Prop) (comparisons moves : ℕ) (s : Sorter α n) : Prop where
  paced : Paced s.trace
  counted : Rested s.trace (s.workSinceCheck + comparisons) (s.workSinceCheck + moves)
  below : s.workSinceCheck < interruptCheckInterval
  values : P s.values

/-- The sort is going on: a round is over, or has yet to begin. -/
abbrev Going (P : (Fin n → α) → Prop) : Sorter α n → Prop := Round P 1 1

lemma Round.imp {comparisons moves : ℕ} {s : Sorter α n} (h : Round P comparisons moves s)
    (hvalues : P' s.values) : Round P' comparisons moves s :=
  { h with values := hvalues }

/-- The sort is given up, right after a negative answer of the callback, if there was one. -/
def GivenUp (P : (Fin n → α) → Prop) : InterruptibleSortFailure → Sorter α n → Prop
  | .interrupted, s => P s.values ∧ ∃ trace, s.trace = .asked false :: trace ∧ Paced trace
  | .allocation, s => P s.values ∧ Paced s.trace

lemma GivenUp.imp (h : ∀ w, P w → P' w) (e : InterruptibleSortFailure)
    (s : Sorter α n) (hs : GivenUp P e s) : GivenUp P' e s := by
  cases e with
  | interrupted | allocation => exact ⟨h _ hs.1, hs.2⟩

/-- What the check does to the state. -/
lemma checkWork_eq (s : Sorter α n) :
    checkWork answers s =
      if interruptCheckInterval ≤ s.workSinceCheck + 1 then
        match answers (s.trace.countP SortEvent.isAsked) with
        | true => .ok () { s with workSinceCheck := 0, trace := .asked true :: s.trace }
        | false => .error .interrupted
          { s with workSinceCheck := s.workSinceCheck + 1, trace := .asked false :: s.trace }
      else .ok () { s with workSinceCheck := s.workSinceCheck + 1 } := by
  by_cases hchk : interruptCheckInterval ≤ s.workSinceCheck + 1
  · cases hanswer : answers (s.trace.countP SortEvent.isAsked) with
    | true => simp [checkWork, active, record, hchk, hanswer]
    | false => simp [checkWork, active, record, hchk, hanswer]
  · simp [checkWork, hchk]

/-- After the check a comparison and a move are due. -/
lemma meets_checkWork : Meets (Going P) (checkWork answers) (fun _ => Round P 0 0)
    (GivenUp P) := by
  intro s hs
  obtain ⟨hpaced, hctd, hbel, hvls⟩ := hs
  rw [checkWork_eq]
  split_ifs with hchk
  · cases answers (s.trace.countP SortEvent.isAsked) with
    | true =>
      refine ⟨hpaced.cons nofun ?_, ?_, Nat.zero_lt_succ 255, hvls⟩
      all_goals exact ⟨Nat.zero_le _, Nat.zero_le _⟩
    | false => exact ⟨hvls, s.trace, rfl, hpaced⟩
  · exact ⟨hpaced, hctd, Nat.lt_of_not_le hchk, hvls⟩

/-- A move, after a comparison or without one. -/
lemma meets_moved : Meets (Round P 1 0) (record .moved) (fun _ => Going P) E := by
  refine .modify fun s ⟨hpaced, hctd, hbel, hvls⟩ => ?_
  have hnow : Rested (.moved :: s.trace) (s.workSinceCheck + 1) (s.workSinceCheck + 1) := by
    simpa [Rested] using hctd
  exact ⟨hpaced.cons nofun ⟨hnow.1.trans hbel, hnow.2.trans hbel⟩, hnow, hbel, hvls⟩

lemma meets_assign (next : Fin n → Fin n) (i j : Fin n) : Meets (Round P 1 0) (assign next i j)
    (fun res s => res = update next i j ∧ Going P s) E :=
  .bind meets_moved fun _ => .pure fun _ hs => ⟨rfl, hs⟩

lemma meets_push (indices : List (Fin n)) (index : Fin n) :
    Meets (Round P 1 0) (push indices index)
      (fun res s => res = indices ++ [index] ∧ Going P s) E :=
  .bind meets_moved fun _ => .pure fun _ hs => ⟨rfl, hs⟩

lemma meets_compareAt (i j : Fin n) : Meets (Round (· = v) 0 0) (compareAt compare i j)
    (fun res s => res = precedes compare v i j ∧ Round (· = v) 1 0 s) E := by
  rintro s ⟨hpaced, hctd, hbel, rfl⟩
  have hnow : Rested (.compared :: s.trace) (s.workSinceCheck + 1) s.workSinceCheck := by
    simpa [Rested] using hctd
  exact ⟨rfl, hpaced.cons nofun ⟨hnow.1.trans hbel, hnow.2.trans hbel.le⟩, hnow, hbel, rfl⟩

/-- The check of a round in which nothing is compared. -/
lemma meets_checkMove : Meets (Going P) (checkWork answers) (fun _ => Round P 1 0)
    (GivenUp P) :=
  meets_checkWork.imp (fun _ _ hs => ⟨hs.paced, ⟨Nat.le_succ_of_le hs.counted.1, hs.counted.2⟩,
    hs.below, hs.values⟩) fun _ _ h => h

/-! ### Sorting the positions -/

lemma meets_pushIndices (indices cur : List (Fin n)) :
    Meets (Going (· = v)) (pushIndices answers indices cur)
      (fun res s => res = cur ++ indices ∧ Going (· = v) s) (GivenUp (· = v)) := by
  induction indices generalizing cur with
  | nil => exact .pure fun s hs => ⟨(append_nil _).symm, hs⟩
  | cons index rest ih =>
    refine .bind meets_checkMove fun _ => .bind_fact (meets_push cur index) ?_
    rintro _ rfl
    simpa using ih (cur ++ [index])

/-- Two runs are merged behind what was merged before. -/
lemma meets_mergeRun (left right next : List (Fin n)) :
    Meets (Going (· = v)) (mergeRun compare answers left right next)
      (fun res s => res = next ++ left.merge right (precedes compare v) ∧ Going (· = v) s)
      (GivenUp (· = v)) := by
  fun_induction mergeRun compare answers left right next with
  | case1 next => exact .pure fun s hs => ⟨by simp, hs⟩
  | case2 i left next ih | case3 i right next ih =>
    refine .bind meets_checkMove fun _ => .bind_fact (meets_push next _) ?_
    rintro _ rfl
    simpa using ih (next ++ [i])
  | case4 i left j right next ih ih' =>
    refine .bind meets_checkWork fun _ => .bind_fact (meets_compareAt i j) ?_
    rintro _ rfl
    rw [cons_merge_cons]
    split_ifs
    · refine .bind_fact (meets_push next i) ?_
      rintro _ rfl
      simpa using ih (next ++ [i])
    · refine .bind_fact (meets_push next j) ?_
      rintro _ rfl
      simpa using ih' (next ++ [j])

lemma meets_mergePass (hwidth : 0 < width) (cur next : List (Fin n)) :
    Meets (Going (· = v)) (mergePass compare answers width hwidth cur next)
      (fun res s => res = next ++ mergeRuns (precedes compare v) width hwidth cur ∧
        Going (· = v) s) (GivenUp (· = v)) := by
  fun_induction mergePass compare answers width hwidth cur next with
  | case1 next => exact .pure fun s hs => ⟨by simp, hs⟩
  | case2 i cur next ih =>
    refine .bind_fact (meets_mergeRun _ _ _) ?_
    rintro _ rfl
    rw [StableSort.mergeRuns, ← append_assoc]
    exact ih _

/-- The passes double the width of the sorted runs until there is one. -/
lemma meets_mergePasses [Std.TransCmp compare] (hwidth : 0 < width)
    (cur : List (Fin n)) (hruns : SortedRuns compare v width (finRange n) cur) :
    Meets (Going (· = v)) (mergePasses compare answers width hwidth cur)
      (fun res s => (res.Perm (finRange n) ∧ res.Pairwise (Before compare v)) ∧
        Going (· = v) s) (GivenUp (· = v)) := by
  fun_induction mergePasses compare answers width hwidth cur with
  | case1 width hwidth cur hlt ih =>
    refine .bind_fact (meets_mergePass hwidth cur []) ?_
    rintro _ rfl
    exact ih _ (hruns.mergeRuns hwidth (pairwise_lt_finRange n))
  | case2 width hwidth cur hge =>
    exact .pure fun s hs => ⟨hruns.sorted hwidth (by simpa using hge), hs⟩

/-! ### Moving the values -/

/-- Every old position gets its new one. -/
lemma meets_invert (pairs : List (Fin n × Fin n)) (next : Fin n → Fin n)
    (hnd : (pairs.map Prod.snd).Nodup) : Meets (Going (· = v)) (invert answers pairs next)
      (fun res s => ((∀ p ∈ pairs, res p.2 = p.1) ∧
        ∀ i ∉ pairs.map Prod.snd, res i = next i) ∧ Going (· = v) s) (GivenUp (· = v)) := by
  induction pairs generalizing next with
  | nil => exact .pure fun s hs => ⟨⟨nofun, fun i _ => rfl⟩, hs⟩
  | cons p rest ih =>
    obtain ⟨newPosition, oldPosition⟩ := p
    rw [map_cons, nodup_cons] at hnd
    refine .bind meets_checkMove fun _ => .bind_fact (meets_assign next _ _) ?_
    rintro _ rfl
    refine (ih _ hnd.2).imp ?_ fun e s h => h
    rintro res s ⟨⟨hpairs, hoth⟩, hs⟩
    refine ⟨⟨fun p hp => ?_, fun i hi => ?_⟩, hs⟩
    · rcases mem_cons.1 hp with rfl | hp
      · rw [hoth _ hnd.1, update_self]
      · exact hpairs p hp
    · rw [map_cons, mem_cons, not_or] at hi
      rw [hoth i hi.2, update_of_ne hi.1]

/-- The positions whose value has another place. -/
def unsettled (next : Fin n → Fin n) : Finset (Fin n) := {i | next i ≠ i}

section Settle

variable {next : Fin n → Fin n} {position : Fin n} (hnext : Function.Injective next)
  (hpsn : next position ≠ position)
include hnext hpsn

/-- A value that has its place is not moved. -/
lemma swap_of_settled {i : Fin n} (hi : next i = i) :
    Equiv.swap position (next position) i = i := by
  refine Equiv.swap_apply_of_ne_of_ne ?_ fun heq => ?_
  · rintro rfl
    exact hpsn hi
  · obtain rfl : i = position := hnext (hi.trans heq)
    exact hpsn hi

/-- A swap brings a value to its place. -/
lemma unsettled_swap :
    (unsettled (next ∘ Equiv.swap position (next position))).card < (unsettled next).card := by
  apply Finset.card_lt_card
  refine Finset.ssubset_iff_subset_ne.2 ⟨fun i hi => ?_, fun heq => ?_⟩
  · simp only [unsettled, Finset.mem_filter, Finset.mem_univ, true_and] at hi ⊢
    intro hset
    refine hi ?_
    rw [comp_apply, swap_of_settled hnext hpsn hset, hset]
  · -- the place that the value was moved to is settled now, and it was not before
    have hmem : next position ∈ unsettled next := by
      simp only [unsettled, Finset.mem_filter, Finset.mem_univ, true_and]
      exact fun hset => hpsn (hnext hset)
    rw [← heq] at hmem
    simp [unsettled] at hmem

end Settle

/-- Values that are still to be placed are those to be placed, in another order. -/
lemma perm_of_placed {next : Fin n → Fin n} (hnext : Function.Injective next) {w : Fin n → α}
    (hw : ∀ i, placed (next i) = w i) : (ofFn w).Perm (ofFn placed) := by
  have hbij : Function.Bijective next := Finite.injective_iff_bijective.1 hnext
  have hcomp : w = placed ∘ Equiv.ofBijective next hbij := funext fun i => (hw i).symm
  rw [hcomp]
  exact Equiv.Perm.ofFn_comp_perm _ _

lemma meets_exchange (next : Fin n → Fin n) (i j : Fin n) :
    Meets (Round (fun w => ∀ i, placed (next i) = w i) 1 0) (exchange next i j)
      (fun res s => res = next ∘ Equiv.swap i j ∧ Going (fun w => ∀ i, placed (res i) = w i) s) E :=
  .bind meets_moved fun _ => .bind (.modify (R := Going fun w => ∀ k,
      placed ((next ∘ Equiv.swap i j) k) = w k)
    fun _ hs => ⟨hs.paced, hs.counted, hs.below, fun _ => hs.values _⟩) fun _ =>
    .pure fun _ hs => ⟨rfl, hs⟩

/-- At the end the value at the position has its place, and so have those that had it before. -/
lemma meets_settle (position : Fin n) (fuel : ℕ) (next : Fin n → Fin n)
    (hnext : Function.Injective next) (hfuel : (unsettled next).card ≤ fuel) :
    Meets (Going fun w => ∀ i, placed (next i) = w i) (settle answers position fuel next)
      (fun res s => (Function.Injective res ∧ res position = position ∧
        ∀ i, next i = i → res i = i) ∧ Going (fun w => ∀ i, placed (res i) = w i) s)
      (GivenUp fun w => (ofFn w).Perm (ofFn placed)) := by
  induction fuel generalizing next with
  | zero =>
    refine .pure fun s hs => ⟨⟨hnext, ?_, fun i hi => hi⟩, hs⟩
    by_contra hpsn
    have hmem : position ∈ unsettled next := by simpa [unsettled] using hpsn
    rw [Finset.card_eq_zero.1 (Nat.le_zero.1 hfuel)] at hmem
    cases hmem
  | succ fuel ih =>
    unfold settle
    split_ifs with hpsn
    · exact .pure fun s hs => ⟨⟨hnext, hpsn, fun i hi => hi⟩, hs⟩
    · refine .bind (meets_checkMove.imp_error (GivenUp.imp fun w => perm_of_placed hnext)) fun _ =>
        .bind_fact (meets_exchange next position (next position)) ?_
      rintro _ rfl
      have hless := unsettled_swap hnext hpsn
      refine (ih _ (hnext.comp (Equiv.injective _)) (by omega)).imp ?_ fun e s h => h
      rintro res s ⟨⟨hinj, hset, hkept⟩, hs⟩
      refine ⟨⟨hinj, hset, fun i hi => hkept i ?_⟩, hs⟩
      rw [comp_apply, swap_of_settled hnext hpsn hi, hi]

lemma meets_placeValues (positions : List (Fin n)) (next : Fin n → Fin n)
    (hnext : Function.Injective next) (hset : ∀ i ∉ positions, next i = i) :
    Meets (Going fun w => ∀ i, placed (next i) = w i) (placeValues answers positions next)
      (fun _ => Going (· = placed)) (GivenUp fun w => (ofFn w).Perm (ofFn placed)) := by
  induction positions generalizing next with
  | nil =>
    refine .pure fun s hs => hs.imp ?_
    funext i
    rw [← hs.values i, hset i not_mem_nil]
  | cons position rest ih =>
    have hcard : (unsettled next).card ≤ n := by simpa using Finset.card_le_univ (unsettled next)
    refine .bind_fact (meets_settle position n next hnext hcard) ?_
    rintro res ⟨hinj, hpsn, hkept⟩
    refine ih res hinj fun i hi => ?_
    by_cases heq : i = position
    · rw [heq, hpsn]
    · exact hkept i (hset i (by simp [heq, hi]))

/-! ### The whole sort -/

/-- After the new positions were computed, the values are placed in the order of the list. -/
lemma meets_arrange (hn : 0 < n)
    (current : List (Fin n)) (hperm : current.Perm (finRange n))
    (hm : Meets (Going fun w => ofFn w = current.map v) m Q
      (GivenUp fun w => (ofFn w).Perm (ofFn v))) :
    Meets (Going (· = v)) (do
        let next ← invert answers ((finRange n).zip current) fun _ => ⟨0, hn⟩
        placeValues answers (finRange n) next
        m) Q (GivenUp fun w => (ofFn w).Perm (ofFn v)) := by
  have hlen : current.length = n := by simpa using hperm.length_eq
  have hsnd : ((finRange n).zip current).map Prod.snd = current :=
    map_snd_zip (by simp [hlen])
  have hnd : current.Nodup := hperm.nodup_iff.2 (nodup_finRange n)
  set old : Fin n → Fin n := fun k => current.get (k.cast hlen.symm) with hold
  refine .bind_fact ((meets_invert _ _ (hsnd.symm ▸ hnd)).imp_error
    (GivenUp.imp fun w hw => hw ▸ .refl _)) ?_
  rintro next ⟨hpairs, -⟩
  -- the two maps between old and new positions are inverse to each other
  have hrt : Function.RightInverse old next := by
    intro k
    refine hpairs (k, old k) (mem_iff_getElem.2 ⟨k, by simp [hlen], ?_⟩)
    simp [hold]
  have hnext : Function.Injective next := by
    exact Finite.injective_iff_surjective.2 hrt.surjective
  have hleft : Function.LeftInverse old next := fun i => hnext (hrt (next i))
  have hv : ∀ i, (v ∘ old) (next i) = v i := fun i => congrArg v (hleft i)
  have hplaced : (ofFn (v ∘ old)).Perm (ofFn v) := (perm_of_placed hnext hv).symm
  have hall : ∀ i ∉ finRange n, next i = i := fun i hi => absurd (mem_finRange i) hi
  refine .bind (((meets_placeValues (finRange n) next hnext hall).imp_error
    (GivenUp.imp fun w hw => hw.trans hplaced)).imp_pre fun s hs => hs.imp ?_) fun _ =>
    hm.imp_pre fun s hs => hs.imp ?_
  · exact fun i => (hv i).trans (congrFun hs.values i).symm
  · rw [hs.values]
    exact ext_getElem (by simp [hlen]) fun k _ _ => by simp [old]

/-- Asking the callback once more. -/
lemma meets_active :
    Meets (Going P) (active answers)
      (fun running s => if running then Going P s else GivenUp P .interrupted s) (GivenUp P) := by
  intro s hs
  have hactv : active answers s = .ok (answers (s.trace.countP SortEvent.isAsked))
      { s with trace := .asked (answers (s.trace.countP SortEvent.isAsked)) :: s.trace } := rfl
  rw [hactv]
  cases answers (s.trace.countP SortEvent.isAsked) with
  | true =>
    refine ⟨hs.paced.cons nofun ?_, ?_, hs.below, hs.values⟩
    all_goals exact ⟨Nat.zero_le _, Nat.zero_le _⟩
  | false => exact ⟨hs.values, s.trace, rfl, hs.paced⟩

/-- Going on or giving up, as the callback tells. -/
lemma meets_running {running : Bool}
    (hP : ∀ w, P w → P' w) (hm : Meets (Going P) m Q (GivenUp P')) :
    Meets (fun s => if running then Going P s else GivenUp P .interrupted s)
      (if running then m else throw .interrupted) Q (GivenUp P') := by
  cases running with
  | true => exact hm
  | false => exact .throw fun s hs => GivenUp.imp hP _ s hs

lemma going_start (values : Fin n → α) : Going (· = values) ⟨values, 0, []⟩ := by
  refine ⟨⟨fun t ht => ?_, nofun⟩, ⟨Nat.zero_le _, Nat.zero_le _⟩, Nat.zero_lt_succ 255, rfl⟩
  rw [suffix_nil.1 ht]
  exact ⟨Nat.zero_le _, Nat.zero_le _⟩

/-- The sort ends with the stable sort of the values, or gives up with some order of them. -/
lemma meets_stableSortByInterruptible [Std.TransCmp compare] (reserved : Bool × Bool)
    (values : Fin n → α) :
    Meets (Going (· = values)) (stableSortByInterruptible compare answers reserved)
      (fun _ => Going fun w => IsStableSort compare (ofFn values) (ofFn w))
      (GivenUp fun w => (ofFn w).Perm (ofFn values)) := by
  have hsame : ∀ w, w = values → (ofFn w).Perm (ofFn values) := by
    rintro w rfl
    exact .refl _
  have hlift {β : Type} {m : SortM α n β} {Q : β → Sorter α n → Prop}
      (h : Meets (Going (· = values)) m Q (GivenUp (· = values))) :
      Meets (Going (· = values)) m Q
        (GivenUp fun w => (ofFn w).Perm (ofFn values)) :=
    h.imp_error (GivenUp.imp hsame)
  refine .bind (hlift meets_active) fun running => meets_running hsame ?_
  split_ifs with hn hfst hsnd
  · refine .bind_fact (hlift (meets_pushIndices _ [])) ?_
    rintro _ rfl
    refine .bind_fact (hlift (meets_mergePasses _ _ sortedRuns_one)) ?_
    rintro cur ⟨hperm, hpairwise⟩
    refine meets_arrange (by omega) cur hperm ?_
    have hstb := isStableSort_map (pairwise_lt_finRange n) hperm hpairwise
    rw [← ofFn_eq_map] at hstb
    refine .bind (meets_active.imp_error (GivenUp.imp fun w hw => hw ▸ hstb.perm)) fun running =>
      meets_running (fun w hw => hw ▸ hstb.perm) (.pure fun s hs => hs.imp ?_)
    exact hs.values ▸ hstb
  · refine .bind (hlift (meets_pushIndices _ [])) fun cur => ?_
    exact .throw fun s hs => ⟨hsame _ hs.2.values, hs.2.paced⟩
  · exact .throw fun s hs => ⟨hsame _ hs.values, hs.paced⟩
  · -- there is at most one value
    refine .pure fun s hs => hs.imp ?_
    rw [hs.values]
    refine ⟨.refl _, pairwise_iff_getElem.2 fun i j hi hj hij => ?_, fun a => rfl⟩
    rw [length_ofFn] at hj
    omega

lemma isStableSort_of_ok [Std.TransCmp compare] {reserved : Bool × Bool} {values : Fin n → α}
    {s : Sorter α n}
    (h : stableSortByInterruptible compare answers reserved ⟨values, 0, []⟩ = .ok () s) :
    IsStableSort compare (ofFn values) (ofFn s.values) := by
  have hsrt : Meets _ (stableSortByInterruptible compare answers reserved) _ _ :=
    meets_stableSortByInterruptible reserved values
  have hend := hsrt _ (going_start values)
  rw [h] at hend
  exact hend.values

end Proofs

/-- The sort of every slice under every sequence of answers: if it succeeds, the values are in the
only stable order; if it is given up, they are a permutation of what they were. The callback is
asked after at most 256 comparisons and 256 moves, and nothing is done after it has said no. -/
theorem stable_sort_by_interruptible_correct {α : Type} {n : ℕ} (compare : α → α → Ordering)
    [Std.TransCmp compare] (answers : ℕ → Bool) (reserved : Bool × Bool) (values : Fin n → α) :
    match stableSortByInterruptible compare answers reserved ⟨values, 0, []⟩ with
    | .ok _ s =>
      IsStableSort compare (ofFn values) (ofFn s.values) ∧
      (∀ l, IsStableSort compare (ofFn values) l → l = ofFn s.values) ∧ Paced s.trace
    | .error .interrupted s =>
      (ofFn s.values).Perm (ofFn values) ∧
      ∃ trace, s.trace = .asked false :: trace ∧ Paced trace
    | .error .allocation s =>
      (ofFn s.values).Perm (ofFn values) ∧ Paced s.trace := by
  have hsorted : Meets _ (stableSortByInterruptible compare answers reserved) _ _ :=
    meets_stableSortByInterruptible reserved values
  have hend := hsorted _ (going_start values)
  cases hresult : stableSortByInterruptible compare answers reserved ⟨values, 0, []⟩ with
  | ok u s =>
    rw [hresult] at hend
    exact ⟨hend.values, fun l hl => hl.unique hend.values, hend.paced⟩
  | error e s =>
    rw [hresult] at hend
    cases e with
    | interrupted | allocation => exact hend

/-- Three values under a callback that always tells to go on. -/
theorem stable_sort_by_interruptible_three :
    ∃ s, stableSortByInterruptible compare (fun _ => true) (true, true)
        ⟨fun i : Fin 3 => 2 - i.val, 0, []⟩ = .ok () s ∧ ofFn s.values = [0, 1, 2] ∧
      IsStableSort compare [2, 1, 0] (ofFn s.values) := by
  have hcorrect := stable_sort_by_interruptible_correct compare (fun _ => true) (true, true)
    fun i : Fin 3 => 2 - i.val
  have hrun : (match stableSortByInterruptible compare (fun _ => true) (true, true)
      ⟨fun i : Fin 3 => 2 - i.val, 0, []⟩ with
    | .ok _ s => decide (ofFn s.values = [0, 1, 2])
    | .error _ _ => false) = true := by decide +kernel
  cases hresult : stableSortByInterruptible compare (fun _ => true) (true, true)
      (⟨fun i : Fin 3 => 2 - i.val, 0, []⟩ : Sorter ℕ 3) with
  | ok u s =>
    rw [hresult] at hcorrect hrun
    exact ⟨s, rfl, of_decide_eq_true hrun, hcorrect.1⟩
  | error e s =>
    rw [hresult] at hrun
    cases hrun

end DufsRam.Listing
