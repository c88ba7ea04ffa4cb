import Mathlib.Data.List.Nodup
import Mathlib.Data.List.Lookmap
import Mathlib.Data.List.Pairwise

/-!
# Tables with a primary key, a unique column and row checks

A table is a list of rows whose primary keys are pairwise distinct, as are the values of its unique
column where it has one, and whose rows all pass the schema's check. Every statement is a list
transformation followed by a constraint check, so a statement that would violate a constraint has no
result and a stored table is always well formed.
-/

namespace Relational

open List

/-- The primary key of a row, its value in the unique column and the check every stored row
passes. -/
structure Schema (ρ κ υ : Type*) where
  key : ρ → κ
  unique : ρ → Option υ
  check : ρ → Bool

variable {ρ κ υ : Type*} {S : Schema ρ κ υ} {rows : List ρ} {k : κ} {r : ρ} {p q : ρ → Bool}
  {f : ρ → ρ}

/-- The stored rows, in insertion order, with the constraints they meet. -/
structure Table (S : Schema ρ κ υ) where
  rows : List ρ
  keys_nodup : (rows.map S.key).Nodup
  unique_nodup : (rows.filterMap S.unique).Nodup
  checked : ∀ r ∈ rows, S.check r = true

namespace Table

/-- The constraints of the schema on a list of rows. -/
def Constraints (S : Schema ρ κ υ) (rows : List ρ) : Prop :=
  (rows.map S.key).Nodup ∧ (rows.filterMap S.unique).Nodup ∧ ∀ r ∈ rows, S.check r = true

def empty : Table S := ⟨[], by simp, by simp, by simp⟩

/-! ### Statements that no constraint can stop -/

/-- SELECT by primary key. -/
def lookup [DecidableEq κ] (T : Table S) (k : κ) : Option ρ :=
  T.rows.find? fun r => decide (S.key r = k)

/-- SELECT COUNT. -/
def count (T : Table S) (p : ρ → Bool) : Nat := T.rows.countP p

/-- DELETE. It cannot violate a constraint. -/
def delete (T : Table S) (p : ρ → Bool) : Table S where
  rows := T.rows.filter fun r => !p r
  keys_nodup := T.keys_nodup.sublist (List.filter_sublist.map _)
  unique_nodup := T.unique_nodup.sublist (List.filter_sublist.filterMap _)
  checked r hr := T.checked r (List.mem_of_mem_filter hr)

/-- The effect of an UPDATE on one row. -/
def assign (p : ρ → Bool) (f : ρ → ρ) (r : ρ) : ρ := if p r then f r else r

variable {T : Table S}

lemma delete_eq_self (h : ∀ r ∈ T.rows, p r = false) : T.delete p = T := by
  have hrows : (T.rows.filter fun r => !p r) = T.rows :=
    filter_eq_self.2 fun r hr => by simp [h r hr]
  cases T
  simpa [delete] using hrows

lemma count_delete_le (T : Table S) (p q : ρ → Bool) : (T.delete p).count q ≤ T.count q :=
  List.Sublist.countP_le filter_sublist

/-- Rows with one value in the unique column are the same row. -/
lemma eq_of_unique {r' : ρ} {u : υ} (hr : r ∈ T.rows) (hr' : r' ∈ T.rows)
    (hu : S.unique r = some u) (hu' : S.unique r' = some u) : r = r' := by
  by_contra hne
  have hpair := pairwise_filterMap.1 T.unique_nodup
  have : Std.Symm fun a a' => ∀ b, S.unique a = some b → ∀ b', S.unique a' = some b' → b ≠ b' :=
    ⟨fun _ _ h b hb b' hb' heq => h b' hb' b hb heq.symm⟩
  exact hpair.forall hr hr' hne u hu u hu' rfl

/-! ### The row of a key -/

section Lookup

variable [DecidableEq κ]

lemma lookup_eq_some_iff : T.lookup k = some r ↔ r ∈ T.rows ∧ S.key r = k := by
  constructor
  · intro h
    exact ⟨mem_of_find?_eq_some h, by simpa using find?_some h⟩
  · rintro ⟨hmem, hkey⟩
    cases hfnd : T.lookup k with
    | none =>
      have := find?_eq_none.1 hfnd r hmem
      simp [hkey] at this
    | some r' =>
      have hmem' := mem_of_find?_eq_some hfnd
      have hkey' : S.key r' = k := by simpa using find?_some hfnd
      rw [inj_on_of_nodup_map T.keys_nodup hmem hmem' (hkey.trans hkey'.symm)]

lemma lookup_eq_none_iff : T.lookup k = none ↔ ∀ r ∈ T.rows, S.key r ≠ k := by
  simp [lookup]

lemma key_of_lookup (h : T.lookup k = some r) : S.key r = k :=
  (lookup_eq_some_iff.1 h).2

lemma check_of_lookup (h : T.lookup k = some r) : S.check r = true :=
  T.checked r (lookup_eq_some_iff.1 h).1

@[simp] lemma lookup_empty (k : κ) : (empty : Table S).lookup k = none := rfl

/-- Two tables with the same rows up to a row-wise description have the same lookups. -/
lemma lookup_eq_of_mem_iff {o : Option ρ}
    (hsome : ∀ r, o = some r ↔ r ∈ T.rows ∧ S.key r = k) : T.lookup k = o := by
  cases o with
  | none =>
    refine lookup_eq_none_iff.2 fun r hr hkey => ?_
    simpa using (hsome r).2 ⟨hr, hkey⟩
  | some r => exact lookup_eq_some_iff.2 ((hsome r).1 rfl)

lemma lookup_delete (T : Table S) (p : ρ → Bool) (k : κ) :
    (T.delete p).lookup k = (T.lookup k).filter fun r => !p r := by
  refine lookup_eq_of_mem_iff fun r => ?_
  simp only [Option.filter_eq_some_iff, lookup_eq_some_iff, delete, mem_filter]
  tauto

/-- A statement selects at most one row when it fixes the primary key. -/
lemma count_eq_one_iff (hp : ∀ r, p r = true → S.key r = k) :
    T.count p = 1 ↔ ∃ r, T.lookup k = some r ∧ p r = true := by
  unfold count
  have hle : T.rows.countP p ≤ 1 := by
    have h1 : T.rows.countP p ≤ (T.rows.map S.key).count k := by
      rw [List.count, countP_map]
      exact countP_mono_left fun r _ hr => by simpa using hp r hr
    exact Nat.le_trans h1 (nodup_iff_count_le_one.1 T.keys_nodup k)
  have hpos : 0 < T.rows.countP p ↔ ∃ r, T.lookup k = some r ∧ p r = true := by
    rw [countP_pos_iff]
    constructor
    · rintro ⟨r, hmem, hr⟩
      exact ⟨r, lookup_eq_some_iff.2 ⟨hmem, hp r hr⟩, hr⟩
    · rintro ⟨r, hfnd, hr⟩
      exact ⟨r, (lookup_eq_some_iff.1 hfnd).1, hr⟩
  rw [← hpos]
  omega

end Lookup

/-! ### Statements that may violate a constraint -/

section Constrained

variable [DecidableEq κ] [DecidableEq υ]

instance (rows : List ρ) : Decidable (Constraints S rows) :=
  inferInstanceAs (Decidable (_ ∧ _ ∧ _))

/-- The table of a list of rows, when it meets the constraints. -/
def ofRows? (rows : List ρ) : Option (Table S) :=
  if h : Constraints S rows then some ⟨rows, h.1, h.2.1, h.2.2⟩ else none

lemma ofRows?_eq_some (h : ofRows? rows = some T) : T.rows = rows := by
  unfold ofRows? at h
  split at h
  · cases h
    rfl
  · cases h

lemma ofRows?_isSome (h : Constraints S rows) :
    ∃ T : Table S, ofRows? rows = some T ∧ T.rows = rows :=
  ⟨⟨rows, h.1, h.2.1, h.2.2⟩, by simp [ofRows?, h], rfl⟩

/-- UPDATE. -/
def update (T : Table S) (p : ρ → Bool) (f : ρ → ρ) : Option (Table S) :=
  ofRows? (T.rows.map (assign p f))

/-- INSERT. -/
def insert (T : Table S) (r : ρ) : Option (Table S) :=
  ofRows? (T.rows ++ [r])

variable {T' : Table S}

lemma lookup_update (h : T.update p f = some T')
    (hkey : ∀ r, S.key (f r) = S.key r) (k : κ) : T'.lookup k = (T.lookup k).map (assign p f) := by
  have hasg : ∀ r, S.key (assign p f r) = S.key r := by
    intro r
    unfold assign
    split <;> simp [hkey]
  refine lookup_eq_of_mem_iff fun r => ?_
  simp only [ofRows?_eq_some h, Option.map_eq_some_iff, lookup_eq_some_iff, mem_map]
  constructor
  · rintro ⟨r', ⟨hmem, rfl⟩, rfl⟩
    exact ⟨⟨r', hmem, rfl⟩, hasg r'⟩
  · rintro ⟨⟨r', hmem, rfl⟩, hk⟩
    exact ⟨r', ⟨hmem, (hasg r').symm.trans hk⟩, rfl⟩

lemma lookup_insert (h : T.insert r = some T') (k : κ) :
    T'.lookup k = if S.key r = k then some r else T.lookup k := by
  have hrows := ofRows?_eq_some h
  refine lookup_eq_of_mem_iff fun r' => ?_
  have hnd := T'.keys_nodup
  simp only [hrows, map_append, map_cons, map_nil] at hnd
  split_ifs with hk
  · simp only [Option.some.injEq, hrows, mem_append, mem_singleton]
    constructor
    · rintro rfl
      exact ⟨.inr rfl, hk⟩
    · rintro ⟨hmem | rfl, hk'⟩
      · exact absurd (hk'.trans hk.symm)
          ((nodup_append.1 hnd).2.2 _ (mem_map_of_mem hmem) _ (by simp))
      · rfl
  · simp only [lookup_eq_some_iff, hrows, mem_append, mem_singleton]
    constructor
    · rintro ⟨hmem, hk'⟩
      exact ⟨.inl hmem, hk'⟩
    · rintro ⟨hmem | rfl, hk'⟩
      · exact ⟨hmem, hk'⟩
      · exact absurd hk' hk

lemma update_eq_self (h : ∀ r ∈ T.rows, p r = false) : T.update p f = some T := by
  have hrows : T.rows.map (assign p f) = T.rows := by
    conv_rhs => rw [← map_id T.rows]
    exact map_congr_left fun r hr => by simp [assign, h r hr]
  rw [update, hrows, ofRows?, dif_pos ⟨T.keys_nodup, T.unique_nodup, T.checked⟩]

/-! ### Counts -/

lemma count_update (h : T.update p f = some T')
    (hq : ∀ r, q (f r) = q r) : T'.count q = T.count q := by
  have hasg : q ∘ assign p f = q := by
    funext r
    simp only [Function.comp_apply, assign]
    split <;> simp [hq]
  rw [count, ofRows?_eq_some h, countP_map, hasg, count]

lemma count_insert (h : T.insert r = some T') :
    T'.count q = T.count q + if q r then 1 else 0 := by
  rw [count, ofRows?_eq_some h, countP_append, countP_singleton, count]

/-! ### Statements that cannot fail -/

lemma update_isSome (hkey : ∀ r, S.key (f r) = S.key r) (huniq : ∀ r, S.unique (f r) = S.unique r)
    (hchk : ∀ r ∈ T.rows, p r = true → S.check (f r) = true) : ∃ T', T.update p f = some T' := by
  have hkeys : (T.rows.map (assign p f)).map S.key = T.rows.map S.key := by
    rw [map_map]
    refine map_congr_left fun r _ => ?_
    simp only [Function.comp_apply, assign]
    split <;> simp [hkey]
  have huniques : (T.rows.map (assign p f)).filterMap S.unique = T.rows.filterMap S.unique := by
    rw [filterMap_map]
    refine filterMap_congr fun r _ => ?_
    simp only [Function.comp_apply, assign]
    split <;> simp [huniq]
  have hchks : ∀ r ∈ T.rows.map (assign p f), S.check r = true := by
    intro r hr
    obtain ⟨r', hmem, rfl⟩ := mem_map.1 hr
    unfold assign
    split
    · exact hchk r' hmem ‹_›
    · exact T.checked r' hmem
  obtain ⟨T', h, -⟩ := ofRows?_isSome ⟨hkeys ▸ T.keys_nodup, huniques ▸ T.unique_nodup, hchks⟩
  exact ⟨T', h⟩

lemma insert_isSome (hfr : T.lookup (S.key r) = none)
    (huniq : ∀ r' ∈ T.rows, ∀ u, S.unique r' = some u → S.unique r ≠ some u)
    (hchk : S.check r = true) : ∃ T', T.insert r = some T' := by
  have hkeys : ((T.rows ++ [r]).map S.key).Nodup := by
    rw [map_append, nodup_append]
    refine ⟨T.keys_nodup, by simp, ?_⟩
    rintro _ ha _ hb rfl
    obtain ⟨r', hmem, hkey⟩ := mem_map.1 ha
    simp only [map_cons, map_nil, mem_singleton] at hb
    exact lookup_eq_none_iff.1 hfr r' hmem (hkey.trans hb)
  have huniques : ((T.rows ++ [r]).filterMap S.unique).Nodup := by
    rw [filterMap_append, nodup_append]
    refine ⟨T.unique_nodup, ?_, ?_⟩
    · cases h : S.unique r <;> simp [h]
    · rintro _ ha _ hb rfl
      obtain ⟨r', hmem, hr'⟩ := mem_filterMap.1 ha
      obtain ⟨r'', hmem', hr⟩ := mem_filterMap.1 hb
      rw [mem_singleton.1 hmem'] at hr
      exact huniq r' hmem _ hr' hr
  have hchks : ∀ r' ∈ T.rows ++ [r], S.check r' = true := by
    intro r' hr'
    rcases mem_append.1 hr' with hmem | hmem
    · exact T.checked r' hmem
    · rw [mem_singleton.1 hmem]
      exact hchk
  obtain ⟨T', h, -⟩ := ofRows?_isSome ⟨hkeys, huniques, hchks⟩
  exact ⟨T', h⟩

end Constrained

end Table

end Relational
