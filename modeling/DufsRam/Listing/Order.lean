import DufsRam.Listing.Snapshot
import DufsRam.Listing.Sort

/-!
# The order of a listing

`compare_path_items` of `listing.rs`. The names of a directory are compared by a natural order of
their lower-case forms, under which different names can be equal; the names themselves break the
tie, so that entries with different names are never equal.
-/

namespace DufsRam.Listing

open StableSort Ordering List

/-- Directories come before files, whether they are reached through links or not. -/
def PathType.toValue : PathType → ℕ
  | .dir | .symlinkDir => 0
  | .file | .symlinkFile => 1

section Code

variable (compareStr : List UInt8 → List UInt8 → Ordering) (left right : PathItem)

def compareType : Ordering := compare left.pathType.toValue right.pathType.toValue

def sortByName : Ordering :=
  (compareType left right).then <| (compareStr left.sortName.text right.sortName.text).then
    (compare left.name.text right.name.text)

def sortByMtime : Ordering :=
  (compareType left right).then <| (compare left.mtime right.mtime).then
    (sortByName compareStr left right)

def sortBySize : Ordering :=
  (compareType left right).then <| (compare left.size right.size).then
    (sortByName compareStr left right)

def compareBy (sort : String) : Ordering :=
  match sort with
  | "mtime" => sortByMtime compareStr left right
  | "size" => sortBySize compareStr left right
  | _ => sortByName compareStr left right

def comparePathItems (sort order : String) : Ordering :=
  if order = "desc" then (compareBy compareStr left right sort).swap
  else compareBy compareStr left right sort

end Code

variable {compareStr : List UInt8 → List UInt8 → Ordering}

lemma name_eq_of_sortByName {left right : PathItem} (h : sortByName compareStr left right = .eq) :
    left.name.text = right.name.text := by
  obtain ⟨-, -, hname⟩ := by simpa [sortByName, then_eq_eq] using h
  exact hname

variable [Std.TransCmp compareStr]

instance : Std.TransCmp (sortByName compareStr) := by
  have hsortName : Std.TransCmp fun l r : PathItem => compareStr l.sortName.text r.sortName.text :=
    { eq_swap := Std.OrientedCmp.eq_swap
      isLE_trans := Std.TransCmp.isLE_trans }
  exact inferInstanceAs (Std.TransCmp (compareLex (compareOn fun i : PathItem => i.pathType.toValue)
    (compareLex (fun l r : PathItem => compareStr l.sortName.text r.sortName.text)
      (compareOn fun i : PathItem => i.name.text))))

instance : Std.TransCmp (sortByMtime compareStr) :=
  inferInstanceAs (Std.TransCmp (compareLex (compareOn fun i : PathItem => i.pathType.toValue)
    (compareLex (compareOn PathItem.mtime) (sortByName compareStr))))

instance : Std.TransCmp (sortBySize compareStr) :=
  inferInstanceAs (Std.TransCmp (compareLex (compareOn fun i : PathItem => i.pathType.toValue)
    (compareLex (compareOn PathItem.size) (sortByName compareStr))))

variable (compareStr) in
lemma compareBy_spec (sort : String) : Std.TransCmp (fun l r => compareBy compareStr l r sort) ∧
      ∀ {l r}, compareBy compareStr l r sort = .eq → l.name.text = r.name.text := by
  unfold compareBy
  split
  · refine ⟨inferInstanceAs (Std.TransCmp (sortByMtime compareStr)), fun {l r} h => ?_⟩
    exact name_eq_of_sortByName (then_eq_eq.mp (then_eq_eq.mp h).2).2
  · refine ⟨inferInstanceAs (Std.TransCmp (sortBySize compareStr)), fun {l r} h => ?_⟩
    exact name_eq_of_sortByName (then_eq_eq.mp (then_eq_eq.mp h).2).2
  · exact ⟨inferInstanceAs (Std.TransCmp (sortByName compareStr)), name_eq_of_sortByName⟩

variable (compareStr) in
lemma comparePathItems_spec (sort order : String) :
    Std.TransCmp (fun l r => comparePathItems compareStr l r sort order) ∧
      ∀ {l r}, comparePathItems compareStr l r sort order = .eq → l.name.text = r.name.text := by
  obtain ⟨htrans, hname⟩ := compareBy_spec compareStr sort
  unfold comparePathItems
  split_ifs
  · refine ⟨?_, fun {l r} h => hname (swap_eq_eq.mp h)⟩
    have hswap : (fun l r => (compareBy compareStr l r sort).swap) =
        fun l r => compareBy compareStr r l sort := by
      funext l r
      exact (htrans.toOrientedCmp.eq_swap (a := r) (b := l)).symm
    rw [hswap]
    infer_instance
  · exact ⟨htrans, hname⟩

/-- On entries with different names every key and direction gives a total order, and the sort of
the entries does not depend on the order in which they were enumerated. -/
theorem listing_order_canonical (compareStr : List UInt8 → List UInt8 → Ordering)
    [Std.TransCmp compareStr] (sort order : String) (items : List PathItem)
    (hnames : items.Pairwise fun a b => a.name.text ≠ b.name.text) :
    (∀ a b, comparePathItems compareStr a b sort order ≠ .gt ∨
      comparePathItems compareStr b a sort order ≠ .gt) ∧
    (∀ a b c, comparePathItems compareStr a b sort order ≠ .gt →
      comparePathItems compareStr b c sort order ≠ .gt →
      comparePathItems compareStr a c sort order ≠ .gt) ∧
    (∀ a ∈ items, ∀ b ∈ items, comparePathItems compareStr a b sort order ≠ .gt →
      comparePathItems compareStr b a sort order ≠ .gt → a = b) ∧
    ∀ n (values values' : Fin n → PathItem), (ofFn values).Perm items →
      (ofFn values').Perm items → ∀ answers answers' reserved reserved' s s',
      stableSortByInterruptible (comparePathItems compareStr · · sort order) answers reserved
        ⟨values, 0, []⟩ = .ok () s →
      stableSortByInterruptible (comparePathItems compareStr · · sort order) answers' reserved'
        ⟨values', 0, []⟩ = .ok () s' → ofFn s.values = ofFn s'.values := by
  obtain ⟨htrans, hname⟩ := comparePathItems_spec compareStr sort order
  have horiented {a b : PathItem} : comparePathItems compareStr a b sort order =
      (comparePathItems compareStr b a sort order).swap :=
    htrans.toOrientedCmp.eq_swap
  have hantisymm : ∀ a ∈ items, ∀ b ∈ items, comparePathItems compareStr a b sort order ≠ .gt →
      comparePathItems compareStr b a sort order ≠ .gt → a = b := by
    intro a ha b hb hab hba
    by_contra hne
    have hsymm : Std.Symm fun a b : PathItem => a.name.text ≠ b.name.text := ⟨fun _ _ h => h.symm⟩
    refine hnames.forall ha hb hne (hname ?_)
    cases hcmp : comparePathItems compareStr a b sort order with
    | eq => rfl
    | gt => exact absurd hcmp hab
    | lt =>
      rw [horiented, hcmp] at hba
      exact absurd rfl hba
  refine ⟨fun a b => ?_, fun a b c hab hbc => ?_, hantisymm, ?_⟩
  · rw [horiented (a := b)]
    cases comparePathItems compareStr a b sort order <;> simp
  · exact ne_gt_iff_isLE.mpr (htrans.isLE_trans (ne_gt_iff_isLE.mp hab) (ne_gt_iff_isLE.mp hbc))
  · intro n values values' hvalues hvalues' answers answers' reserved reserved' s s' hs hs'
    have hsorted := isStableSort_of_ok hs
    have hsorted' := isStableSort_of_ok hs'
    have hperm := hsorted.perm.trans hvalues
    have hperm' := hsorted'.perm.trans hvalues'
    refine List.Perm.eq_of_pairwise (fun a b ha hb => ?_) hsorted.sorted hsorted'.sorted
      (hperm.trans hperm'.symm)
    exact hantisymm a (hperm.subset ha) b (hperm'.subset hb)

/-- Two files whose names differ in case only. -/
def lowerCase : PathItem :=
  ⟨.file, ⟨[97], 8⟩, ⟨[97], 8⟩, 0, 1, ⟨replicate 32 0, by simp⟩⟩

def upperCase : PathItem :=
  ⟨.file, ⟨[97], 8⟩, ⟨[65], 8⟩, 0, 1, ⟨replicate 32 0, by simp⟩⟩

theorem caseVariants_ordered : comparePathItems compare lowerCase upperCase "size" "desc" = .gt ∨
      comparePathItems compare upperCase lowerCase "size" "desc" = .gt := by
  by_contra h
  obtain ⟨hle, hge⟩ := not_or.1 h
  have heq := (listing_order_canonical compare "size" "desc" [lowerCase, upperCase]
    (by decide)).2.2.1 lowerCase (by simp) upperCase (by simp) hle hge
  exact absurd heq (by decide)

end DufsRam.Listing
