import Mathlib.Data.List.Sort

/-!
# Keyset pagination

A page is what a query returns that sorts its entries by key, starts after a cursor and stops at a
limit; the cursor of the next page is the last key of a full page. No entry that is there when a
page is read is passed over: it is on the page, or its key comes after the next cursor.
-/

namespace Keyset

open List

variable {κ α : Type*} [LinearOrder κ]

/-- The key comes after the cursor, if there is one. -/
def After (cursor : Option κ) (k : κ) : Prop := ∀ c ∈ cursor, c < k

instance (cursor : Option κ) (k : κ) : Decidable (After cursor k) :=
  match cursor with
  | none => isTrue nofun
  | some c => decidable_of_iff (c < k) (by simp [After])

def page (cursor : Option κ) (limit : ℕ) (entries : List (κ × α)) : List (κ × α) :=
  ((entries.filter fun e => After cursor e.1).insertionSort fun a b => a.1 ≤ b.1).take limit

/-- The cursor after a page, if the page is full. -/
def next (limit : ℕ) (page : List (κ × α)) : Option κ :=
  if page.length = limit then page.getLast?.map Prod.fst else none

variable {cursor : Option κ} {limit : ℕ} {entries : List (κ × α)} {e : κ × α}

@[simp] lemma after_none (k : κ) : After none k := nofun

@[simp] lemma after_some {c k : κ} : After (some c) k ↔ c < k := by simp [After]

lemma mem_of_mem_page (h : e ∈ page cursor limit entries) : e ∈ entries :=
  mem_of_mem_filter ((mem_insertionSort _).1 (mem_of_mem_take h))

/-- The entries after a cursor, in strict order of their keys. -/
lemma pairwise_sorted (cursor : Option κ) (hnd : (entries.map Prod.fst).Nodup) :
    ((entries.filter fun e => After cursor e.1).insertionSort fun a b => a.1 ≤ b.1).Pairwise
      fun a b => a.1 < b.1 := by
  set found := entries.filter fun e => decide (After cursor e.1)
  have : Std.Total fun a b : κ × α => a.1 ≤ b.1 := ⟨fun a b => le_total a.1 b.1⟩
  have : IsTrans (κ × α) fun a b => a.1 ≤ b.1 := ⟨fun _ _ _ => le_trans⟩
  have hfnd : (found.map Prod.fst).Nodup := hnd.sublist (filter_sublist.map _)
  have hsrt := pairwise_insertionSort (fun a b : κ × α => a.1 ≤ b.1) found
  have hperm := (perm_insertionSort (fun a b : κ × α => a.1 ≤ b.1) found).map Prod.fst
  have hne := pairwise_map.1 (hperm.nodup_iff.2 hfnd)
  exact hsrt.imp₂ (fun _ _ hle hne => lt_of_le_of_ne hle hne) hne

/-- The first entry in the order of a key has the least key. -/
lemma head?_sorted {key : α → κ} {l : List α} {a : α}
    (h : (l.insertionSort fun a b => key a ≤ key b).head? = some a) :
    a ∈ l ∧ ∀ b ∈ l, key a ≤ key b := by
  have : Std.Total fun a b : α => key a ≤ key b := ⟨fun a b => le_total (key a) (key b)⟩
  have : IsTrans α fun a b => key a ≤ key b := ⟨fun _ _ _ => le_trans⟩
  have hsrt := pairwise_insertionSort (fun a b : α => key a ≤ key b) l
  obtain ⟨rest, hrest⟩ := head?_eq_some_iff.1 h
  rw [hrest] at hsrt
  refine ⟨(mem_insertionSort _).1 (mem_of_mem_head? h), fun b hb => ?_⟩
  rw [← mem_insertionSort (fun a b => key a ≤ key b), hrest, mem_cons] at hb
  rcases hb with rfl | hb
  · exact le_rfl
  · exact rel_of_pairwise_cons hsrt hb

/-- An entry after the cursor is on the page or after the next cursor. -/
theorem mem_page_or_after_next (hlim : 0 < limit) (hnd : (entries.map Prod.fst).Nodup)
    (he : e ∈ entries) (hafter : After cursor e.1) : e ∈ page cursor limit entries ∨
      ∃ c, next limit (page cursor limit entries) = some c ∧ c < e.1 := by
  have hstrc := pairwise_sorted cursor hnd
  unfold page
  set sorted := (entries.filter fun e => After cursor e.1).insertionSort fun a b => a.1 ≤ b.1
    with hsrt
  have hmem : e ∈ sorted := by
    rw [hsrt, mem_insertionSort, mem_filter]
    exact ⟨he, by simpa using hafter⟩
  rw [← take_append_drop limit sorted] at hmem hstrc
  rcases mem_append.1 hmem with hmem | hmem
  · exact .inl hmem
  · -- the page is full, and everything behind it has a greater key than its last entry
    right
    have hlen : (sorted.take limit).length = limit := by
      rw [length_take, Nat.min_eq_left]
      by_contra hlt
      rw [drop_eq_nil_of_le (by omega)] at hmem
      cases hmem
    have hne : sorted.take limit ≠ [] := by
      intro hnil
      rw [hnil] at hlen
      exact hlim.ne hlen
    refine ⟨((sorted.take limit).getLast hne).1, ?_, ?_⟩
    · rw [next, if_pos hlen, getLast?_eq_getLast_of_ne_nil hne]
      rfl
    · exact (pairwise_append.1 hstrc).2.2 _ (getLast_mem hne) e hmem

end Keyset
