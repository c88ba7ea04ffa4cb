import Mathlib.Data.List.Infix

/-!
# Trees by path

A tree is the partial map from its paths to its entries, with nothing below a path at which there is
nothing. A rename within a directory takes along everything below the entry.
-/

/-- The entries of a tree. -/
structure PathMap (ν α : Type*) where
  entry : List ν → Option α
  closed : ∀ p c, entry p = none → entry (p ++ [c]) = none

namespace PathMap

open List

variable {ν α : Type*} {f f' : PathMap ν α} {p q : List ν} {c : ν}

/-- There is nothing at the path or below it. -/
def Vacant (f : PathMap ν α) (p : List ν) : Prop := ∀ rest, f.entry (p ++ rest) = none

lemma vacant_of_entry (h : f.entry p = none) : f.Vacant p := by
  intro rest
  induction rest using reverseRecOn with
  | nil => rwa [append_nil]
  | append_singleton rest c ih =>
    rw [← append_assoc]
    exact f.closed _ c ih

lemma Vacant.entry (h : f.Vacant p) (hq : p <+: q) : f.entry q = none := by
  obtain ⟨rest, rfl⟩ := hq
  exact h rest

/-- The path of another name in the same directory. -/
def sibling (p : List ν) (c : ν) : List ν := p.dropLast ++ [c]

lemma not_prefix_of_dropLast (h : p ≠ []) : ¬ p <+: p.dropLast := by
  intro hp
  have hlen := hp.length_le
  rw [length_dropLast] at hlen
  have := length_pos_of_ne_nil h
  omega

lemma entry_directory_ne_none (hp : p ≠ []) (hent : f.entry p ≠ none) :
    f.entry p.dropLast ≠ none := by
  intro hnone
  rw [← dropLast_append_getLast hp] at hent
  exact hent (f.closed _ _ hnone)

/-- Change the entry at a path. -/
def modify [DecidableEq ν] (f : PathMap ν α) (p : List ν) (g : α → α) : PathMap ν α where
  entry q := if q = p then (f.entry q).map g else f.entry q
  closed q c h := by
    have hq : f.entry q = none := by
      split_ifs at h
      · exact Option.map_eq_none_iff.1 h
      · exact h
    simp [f.closed q c hq]

/-- Remove the entry at a path with everything below it. -/
def remove [DecidableEq ν] (f : PathMap ν α) (p : List ν) : PathMap ν α where
  entry q := if p <+: q then none else f.entry q
  closed q c h := by
    split_ifs with hbelow
    · rfl
    · rw [if_neg fun hq => hbelow (hq.trans (List.prefix_append q [c]))] at h
      exact f.closed q c h

lemma modify_entry [DecidableEq ν] {g : α → α} :
    (f.modify p g).entry q = if q = p then (f.entry q).map g else f.entry q := rfl

lemma remove_entry [DecidableEq ν] :
    (f.remove p).entry q = if p <+: q then none else f.entry q := rfl

/-- The entries after a rename of `p` to `d`. -/
def moved [DecidableEq ν] (f : PathMap ν α) (p d q : List ν) : Option α :=
  if d <+: q then f.entry (p ++ q.drop d.length) else if p <+: q then none else f.entry q

section Moved

variable [DecidableEq ν]

lemma moved_append (d rest : List ν) : f.moved p d (d ++ rest) = f.entry (p ++ rest) := by
  rw [moved, if_pos (prefix_append d rest), drop_left]

lemma moved_of_source {d : List ν} (hd : ¬ d <+: q) (hp : p <+: q) : f.moved p d q = none := by
  rw [moved, if_neg hd, if_pos hp]

lemma moved_of_other {d : List ν} (hd : ¬ d <+: q) (hp : ¬ p <+: q) :
    f.moved p d q = f.entry q := by
  rw [moved, if_neg hd, if_neg hp]

/-- The directory of an entry that moves within it stays. -/
lemma moved_directory (hp : p ≠ []) : f.moved p (sibling p c) p.dropLast = f.entry p.dropLast := by
  refine moved_of_other (fun h => ?_) (not_prefix_of_dropLast hp)
  have hlen := h.length_le
  rw [sibling, length_append, length_singleton] at hlen
  omega

lemma moved_closed (hp : p ≠ []) (hent : f.entry p ≠ none) (d : ν)
    (hq : f.moved p (sibling p c) q = none) : f.moved p (sibling p c) (q ++ [d]) = none := by
  by_cases hdest : sibling p c <+: q
  · obtain ⟨rest, rfl⟩ := hdest
    rw [moved_append] at hq
    rw [append_assoc, moved_append, ← append_assoc]
    exact f.closed _ d hq
  · by_cases hnew : sibling p c <+: q ++ [d]
    · -- the new entry itself, whose directory exists
      have heq := (prefix_concat_iff.1 hnew).resolve_right hdest
      have hpar : q = p.dropLast := (append_inj' heq rfl).1.symm
      rw [hpar, moved_directory hp] at hq
      exact absurd hq (entry_directory_ne_none hp hent)
    · by_cases hsrc : p <+: q ++ [d]
      · exact moved_of_source hnew hsrc
      · have hnot : ¬ p <+: q := fun h => hsrc (h.trans (prefix_append q [d]))
        rw [moved_of_other hdest hnot] at hq
        rw [moved_of_other hnew hsrc]
        exact f.closed q d hq

/-- Rename an entry within its directory; the new name must be free. -/
def renameEntry (f : PathMap ν α) (p : List ν) (c : ν) : Option (PathMap ν α) :=
  if h : p ≠ [] ∧ f.entry p ≠ none ∧ (f.entry (sibling p c)).isNone then
    some ⟨f.moved p (sibling p c), fun _ d => moved_closed h.1 h.2.1 d⟩
  else none

lemma renameEntry_eq_some (h : f.renameEntry p c = some f') :
    p ≠ [] ∧ f.entry p ≠ none ∧ f.Vacant (sibling p c) ∧ f'.entry = f.moved p (sibling p c) := by
  unfold renameEntry at h
  split_ifs at h with hgrd
  cases h
  exact ⟨hgrd.1, hgrd.2.1, vacant_of_entry (Option.isNone_iff_eq_none.1 hgrd.2.2), rfl⟩

end Moved

end PathMap
