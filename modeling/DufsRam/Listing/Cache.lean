import Mathlib.Algebra.Order.BigOperators.Group.List
import Mathlib.Logic.Relation
import DufsRam.Listing.Snapshot

/-!
# The bounds of the snapshot store

Every call removes snapshots, together with their place in the queue, and at most one call inserts
one, after the loops of `make_room` have made room for it.
-/

namespace DufsRam.Listing

open Transition List Option ListSnapshotStore AList

/-- A stored snapshot with its identifier. -/
abbrev Entry := Sigma fun _ : ByteBlock 32 => ListSnapshotRecord

/-- The weight of some snapshots. -/
def weightOf (entries : List Entry) : ℕ := (entries.map fun e => e.2.weight).sum

@[simp] lemma weightOf_nil : weightOf [] = 0 := rfl

@[simp] lemma weightOf_cons (e : Entry) (l : List Entry) :
    weightOf (e :: l) = e.2.weight + weightOf l := rfl

@[simp] lemma weightOf_append (l l' : List Entry) :
    weightOf (l ++ l') = weightOf l + weightOf l' := by
  rw [weightOf, map_append, sum_append, weightOf, weightOf]

lemma weightOf_le {l l' : List Entry} (h : l.Sublist l') : weightOf l ≤ weightOf l' :=
  (h.map _).sum_le_sum fun _ _ => Nat.zero_le _

variable {answer : Answer} {c : Call}

namespace ListSnapshotStore

variable {s s' : ListSnapshotStore} {id owner : ByteBlock 32} {r : ListSnapshotRecord}
  {now n weight : ℕ} {P : Platform} {binding : ListSnapshotBinding} {paths : PathVec}
  {draws : List (Option (ByteBlock 32 × ByteBlock 32))}

/-- The snapshots of an owner. -/
def owned (owner : ByteBlock 32) (s : ListSnapshotStore) : List Entry :=
  s.snapshots.entries.filter fun e => e.2.binding.owner = owner

/-- The queue lists the snapshots, and the bounds are kept. -/
structure Inv (s : ListSnapshotStore) : Prop where
  nodup : s.insertionOrder.Nodup
  queued : ∀ id, id ∈ s.insertionOrder ↔ id ∈ s.snapshots
  balance : s.totalWeight = weightOf s.snapshots.entries
  count_le : s.snapshots.entries.length ≤ maxCachedListSnapshots
  weight_le : s.totalWeight ≤ maxCachedListSnapshotBytes
  owned_count_le : ∀ owner, (s.owned owner).length ≤ maxCachedListSnapshotsPerOwner
  owned_weight_le : ∀ owner, weightOf (s.owned owner) ≤ maxCachedListSnapshotBytesPerOwner

/-! ### Removal -/

/-- The store without one of its snapshots. -/
def remove (id : ByteBlock 32) (r : ListSnapshotRecord) (s : ListSnapshotStore) :
    ListSnapshotStore :=
  ⟨s.snapshots.erase id, s.insertionOrder.erase id, s.totalWeight - r.weight⟩

section

variable (hr : s.snapshots.lookup id = some r)

include hr

/-- The snapshots around one that is removed. -/
lemma entries_erase : ∃ before after, s.snapshots.entries = before ++ ⟨id, r⟩ :: after ∧
      (s.snapshots.erase id).entries = before ++ after := by
  have hmem : id ∈ s.snapshots.entries.keys :=
    lookup_isSome.mp (by rw [hr]; rfl)
  obtain ⟨r', before, after, -, hents, herase⟩ := exists_of_kerase hmem
  have hr' : s.snapshots.lookup id = some r' := by
    refine mem_lookup_iff.mpr ?_
    rw [hents]
    exact mem_append_right _ mem_cons_self
  obtain rfl : r = r' := some.inj (hr.symm.trans hr')
  exact ⟨before, after, hents, herase⟩

lemma entries_remove_sublist : (s.remove id r).snapshots.entries.Sublist s.snapshots.entries := by
  obtain ⟨before, after, hents, herase⟩ := entries_erase hr
  change (s.snapshots.erase id).entries.Sublist _
  rw [hents, herase]
  exact (List.Sublist.refl before).append (sublist_cons_self _ _)

lemma owned_remove_sublist (owner : ByteBlock 32) :
    ((s.remove id r).owned owner).Sublist (s.owned owner) :=
  (entries_remove_sublist hr).filter _

end

lemma Inv.remove (hinv : s.Inv) (hr : s.snapshots.lookup id = some r) : (s.remove id r).Inv where
  nodup := hinv.nodup.erase id
  queued i := by
    change i ∈ s.insertionOrder.erase id ↔ i ∈ s.snapshots.erase id
    rw [hinv.nodup.mem_erase_iff, mem_erase, hinv.queued]
  balance := by
    obtain ⟨before, after, hents, herase⟩ := entries_erase hr
    have hbal := hinv.balance
    rw [hents, weightOf_append, weightOf_cons] at hbal
    change s.totalWeight - r.weight = weightOf (s.snapshots.erase id).entries
    rw [herase, weightOf_append]
    dsimp only at hbal
    omega
  count_le := (entries_remove_sublist hr).length_le.trans hinv.count_le
  weight_le := (Nat.sub_le _ _).trans hinv.weight_le
  owned_count_le owner :=
    (owned_remove_sublist hr owner).length_le.trans (hinv.owned_count_le owner)
  owned_weight_le owner :=
    (weightOf_le (owned_remove_sublist hr owner)).trans (hinv.owned_weight_le owner)

lemma exists_lookup (hinv : s.Inv) (hid : id ∈ s.insertionOrder) :
    ∃ r, s.snapshots.lookup id = some r :=
  isSome_iff_exists.mp (lookup_isSome.mpr ((hinv.queued id).mp hid))

/-- The queue is shorter without a snapshot. -/
lemma length_remove_lt (hinv : s.Inv) (hr : s.snapshots.lookup id = some r) :
    (s.remove id r).insertionOrder.length < s.insertionOrder.length := by
  have hid : id ∈ s.insertionOrder :=
    (hinv.queued id).mpr (lookup_isSome.mp (by rw [hr]; rfl))
  change (s.insertionOrder.erase id).length < _
  rw [length_erase_of_mem hid]
  have := length_pos_of_mem hid
  omega

lemma removeOldest_eq {rest : List (ByteBlock 32)} (hord : s.insertionOrder = id :: rest)
    (hr : s.snapshots.lookup id = some r) : s.removeOldest = s.remove id r := by
  rw [removeOldest, hord, removeOldestFrom, hr, remove, hord, erase_cons_head]

lemma removeOldestForOwner_eq (h : s.removeOldestForOwner owner = some s') :
    ∃ id r, s.snapshots.lookup id = some r ∧ s' = s.remove id r := by
  obtain ⟨id, -, h⟩ := bind_eq_some_iff.mp h
  obtain ⟨r, hr, h⟩ := bind_eq_some_iff.mp h
  exact ⟨id, r, hr, (some.inj h).symm⟩

/-- An owner without a snapshot to remove has no snapshot. -/
lemma owned_eq_nil (hinv : s.Inv) (h : s.removeOldestForOwner owner = none) :
    s.owned owner = [] := by
  rw [owned, filter_eq_nil_iff]
  intro e he hown
  have hr : s.snapshots.lookup e.1 = some e.2 := mem_lookup_iff.mpr he
  have hqd : e.1 ∈ s.insertionOrder :=
    (hinv.queued e.1).mpr (lookup_isSome.mp (by rw [hr]; rfl))
  rw [removeOldestForOwner, bind_eq_bind, bind_eq_none_iff] at h
  cases hfind : s.insertionOrder.find? fun id =>
      (s.snapshots.lookup id).any fun snapshot => decide (snapshot.binding.owner = owner) with
  | none =>
    have hnone := find?_eq_none.mp hfind e.1 hqd
    rw [hr, any_some] at hnone
    exact hnone hown
  | some id =>
    have hid := find?_some hfind
    obtain ⟨r, hr', -⟩ := (any_eq_true _ _).mp hid
    have hcontra := h id hfind
    rw [hr'] at hcontra
    cases hcontra

/-- One snapshot goes. -/
def Drops (s s' : ListSnapshotStore) : Prop :=
  ∃ id r, s.snapshots.lookup id = some r ∧ s' = s.remove id r

lemma Inv.drops (hinv : s.Inv) (h : s.Drops s') :
    s'.Inv ∧ s'.insertionOrder.length < s.insertionOrder.length := by
  obtain ⟨id, r, hr, rfl⟩ := h
  exact ⟨hinv.remove hr, length_remove_lt hinv hr⟩

/-- Some snapshots go. -/
abbrev Thins : ListSnapshotStore → ListSnapshotStore → Prop := Relation.ReflTransGen Drops

lemma Inv.thins (hinv : s.Inv) (h : s.Thins s') :
    s'.Inv ∧ s'.insertionOrder.length ≤ s.insertionOrder.length := by
  induction h with
  | refl => exact ⟨hinv, le_refl _⟩
  | tail _ hdrops ih =>
    obtain ⟨hinv', hlt⟩ := ih.1.drops hdrops
    exact ⟨hinv', hlt.le.trans ih.2⟩

/-! ### The loops -/

/-- A round of the purge removes the front of the queue, which has expired. -/
lemma purgeRound_cases (hinv : s.Inv) (h : s.purgeRound now = some s') :
    ∃ id rest r, s.insertionOrder = id :: rest ∧ s.snapshots.lookup id = some r ∧
      r.expiresAt ≤ now ∧ s' = s.remove id r := by
  unfold purgeRound at h
  split at h
  · cases h
  · next id rest hord =>
    obtain ⟨hexp, ⟨⟩⟩ := ite_none_right_eq_some.mp h
    obtain ⟨r, hr⟩ := exists_lookup hinv (hord ▸ mem_cons_self)
    rw [hr, all_some, decide_eq_true_iff] at hexp
    exact ⟨id, rest, r, hord, hr, hexp, removeOldest_eq hord hr⟩

lemma purgeRound_drops (hinv : s.Inv) (h : s.purgeRound now = some s') : s.Drops s' := by
  obtain ⟨id, rest, r, -, hr, -, rfl⟩ := purgeRound_cases hinv h
  exact ⟨id, r, hr, rfl⟩

lemma ownerRound_drops (h : s.ownerRound owner weight = some s') : s.Drops s' := by
  obtain ⟨-, h⟩ := ite_none_left_eq_some.mp h
  exact removeOldestForOwner_eq h

lemma globalRound_drops (hinv : s.Inv) (h : s.globalRound weight = some s') : s.Drops s' := by
  obtain ⟨⟨hne, -⟩, ⟨⟩⟩ := ite_none_right_eq_some.mp h
  obtain ⟨e, he⟩ := exists_mem_of_ne_nil _ hne
  have hqd : e.1 ∈ s.insertionOrder := by
    refine (hinv.queued e.1).mpr (lookup_isSome.mp ?_)
    rw [show s.snapshots.lookup e.1 = some e.2 from mem_lookup_iff.mpr he]
    rfl
  obtain ⟨id, rest, hord⟩ := exists_cons_of_ne_nil (ne_nil_of_mem hqd)
  obtain ⟨r, hr⟩ := exists_lookup hinv (hord ▸ mem_cons_self)
  exact ⟨id, r, hr, removeOldest_eq hord hr⟩

/-- A loop that drops a snapshot in each round is over after as many rounds as there are snapshots,
and what every removal keeps holds at its end. -/
lemma drops_iterate (round : ListSnapshotStore → Option ListSnapshotStore)
    (hround : ∀ s s', s.Inv → round s = some s' → s.Drops s') (hinv : s.Inv)
    (hn : s.insertionOrder.length < n) : ∃ s', Loop.iterate round n s = some s' :=
  Loop.exists_iterate (fun s => s.insertionOrder.length)
    (fun s s' hs hnext => hs.drops (hround s s' hs hnext)) hinv hn

lemma Inv.iterate {round : ListSnapshotStore → Option ListSnapshotStore}
    (hround : ∀ s s', s.Inv → round s = some s' → s.Drops s') (hinv : s.Inv)
    (h : Loop.iterate round n s = some s') : s.Thins s' ∧ round s' = none :=
  Loop.iterate_spec (P := s.Thins)
    (fun t t' ht hnext => ht.tail (hround t t' (hinv.thins ht).1 hnext)) .refl h

lemma exists_purgeExpired (hinv : s.Inv) (hn : s.insertionOrder.length < n) (now : ℕ) :
    ∃ s', s.purgeExpired n now = some s' :=
  drops_iterate (purgeRound now) (fun _ _ => purgeRound_drops) hinv hn

lemma Inv.purgeExpired (hinv : s.Inv) (h : s.purgeExpired n now = some s') : s.Thins s' :=
  (Inv.iterate (fun _ _ => purgeRound_drops) hinv h).1

/-- Both loops of `make_room` terminate, whatever the weight. -/
lemma exists_makeRoom (hinv : s.Inv) (hn : s.insertionOrder.length < n) (owner : ByteBlock 32)
    (weight : ℕ) : ∃ s', s.makeRoom n owner weight = some s' := by
  obtain ⟨s₁, hs₁⟩ := drops_iterate (ownerRound owner weight)
    (fun _ _ _ => ownerRound_drops) hinv hn
  obtain ⟨hinv₁, hle⟩ := hinv.thins (Inv.iterate (fun _ _ _ => ownerRound_drops) hinv hs₁).1
  obtain ⟨s₂, hs₂⟩ := drops_iterate (globalRound weight) (fun _ _ => globalRound_drops)
    hinv₁ (hle.trans_lt hn)
  exact ⟨s₂, bind_eq_some_iff.mpr ⟨s₁, hs₁, hs₂⟩⟩

lemma Inv.makeRoom (hinv : s.Inv) (h : s.makeRoom n owner weight = some s') : s.Thins s' := by
  obtain ⟨s₁, hs₁, hs₂⟩ := bind_eq_some_iff.mp h
  have hthn := (Inv.iterate (fun _ _ _ => ownerRound_drops) hinv hs₁).1
  exact hthn.trans (Inv.iterate (fun _ _ => globalRound_drops) (hinv.thins hthn).1 hs₂).1

/-! ### Room -/

/-- The sums saturate only beyond what the store ever holds. -/
lemma foldl_usage (l : List Entry) (count total : ℕ) (hcount : count + l.length ≤ usizeMax)
    (htot : total + weightOf l ≤ usizeMax) :
    l.foldl (fun (usage : ℕ × ℕ) e => (saturatingAdd usage.1 1, saturatingAdd usage.2 e.2.weight))
      (count, total) = (count + l.length, total + weightOf l) := by
  induction l generalizing count total with
  | nil => rfl
  | cons e l ih =>
    rw [length_cons] at hcount
    rw [weightOf_cons] at htot
    have hone : saturatingAdd count 1 = count + 1 := min_eq_left (by omega)
    have hwgt : saturatingAdd total e.2.weight = total + e.2.weight := min_eq_left (by omega)
    rw [foldl_cons, hone, hwgt, ih _ _ (by omega) (by omega), weightOf_cons, length_cons]
    congr 1 <;> omega

lemma ownerUsage_eq (hinv : s.Inv) (owner : ByteBlock 32) :
    s.ownerUsage owner = ((s.owned owner).length, weightOf (s.owned owner)) := by
  have hcount := hinv.owned_count_le owner
  have hwgt := hinv.owned_weight_le owner
  have husage := foldl_usage (s.owned owner) 0 0
    (by rw [Nat.zero_add]; exact hcount.trans (by decide))
    (by rw [Nat.zero_add]; exact hwgt.trans (by decide))
  rwa [Nat.zero_add, Nat.zero_add] at husage

/-- There is room for one more snapshot of an owner. -/
structure Roomy (owner : ByteBlock 32) (weight : ℕ) (s : ListSnapshotStore) : Prop where
  owned_count : (s.owned owner).length < maxCachedListSnapshotsPerOwner
  owned_weight : weightOf (s.owned owner) + weight ≤ maxCachedListSnapshotBytesPerOwner
  count : s.snapshots.entries.length < maxCachedListSnapshots
  weight : s.totalWeight + weight ≤ maxCachedListSnapshotBytes

section

variable (hinv : s.Inv) (hwgt : weight ≤ maxCachedListSnapshotBytesPerOwner)

include hinv hwgt

/-- When the first loop is over, the owner has room. -/
lemma ownerRound_none (h : s.ownerRound owner weight = none) :
    (s.owned owner).length < maxCachedListSnapshotsPerOwner ∧
      weightOf (s.owned owner) + weight ≤ maxCachedListSnapshotBytesPerOwner := by
  unfold ownerRound at h
  rw [ownerUsage_eq hinv owner] at h
  dsimp only at h
  split at h
  · next hroom =>
    refine ⟨hroom.1, ?_⟩
    have hown := hinv.owned_weight_le owner
    have hsum : weightOf (s.owned owner) + weight ≤ usizeMax :=
      (Nat.add_le_add hown hwgt).trans (by decide)
    have hle := hroom.2
    rwa [saturatingAdd, min_eq_left hsum] at hle
  · rw [owned_eq_nil hinv h, weightOf_nil, Nat.zero_add]
    exact ⟨by decide, hwgt⟩

/-- When the second loop is over, the store has room. -/
lemma globalRound_none (h : s.globalRound weight = none) :
    s.snapshots.entries.length < maxCachedListSnapshots ∧
      s.totalWeight + weight ≤ maxCachedListSnapshotBytes := by
  have hsum : s.totalWeight + weight ≤ usizeMax :=
    (Nat.add_le_add hinv.weight_le hwgt).trans (by decide)
  unfold globalRound at h
  split at h
  · cases h
  · next hroom =>
    by_cases hemp : s.snapshots.entries = []
    · rw [hinv.balance, hemp, weightOf_nil, Nat.zero_add]
      exact ⟨by decide, hwgt.trans (by decide)⟩
    · have hroom := fun h => hroom ⟨hemp, h⟩
      rw [saturatingAdd, min_eq_left hsum] at hroom
      exact ⟨not_le.mp fun h => hroom (.inl h), not_lt.mp fun h => hroom (.inr h)⟩

lemma Inv.roomy (h : s.makeRoom n owner weight = some s') : s'.Roomy owner weight := by
  obtain ⟨s₁, hs₁, hs₂⟩ := bind_eq_some_iff.mp h
  obtain ⟨hthn, hover⟩ := Inv.iterate (fun _ _ _ => ownerRound_drops) hinv hs₁
  have hinv₁ := (hinv.thins hthn).1
  obtain ⟨hcount, hown⟩ := ownerRound_none hinv₁ hwgt hover
  obtain ⟨⟨hinv₂, hcount₂, hown₂⟩, hover₂⟩ := Loop.iterate_spec
    (P := fun t : ListSnapshotStore => t.Inv ∧
      (t.owned owner).length < maxCachedListSnapshotsPerOwner ∧
      weightOf (t.owned owner) + weight ≤ maxCachedListSnapshotBytesPerOwner)
    (fun t t' ht hnext => by
      obtain ⟨id, r, hr, rfl⟩ := globalRound_drops ht.1 hnext
      have hsub := owned_remove_sublist hr owner
      exact ⟨ht.1.remove hr, hsub.length_le.trans_lt ht.2.1,
        (Nat.add_le_add_right (weightOf_le hsub) _).trans ht.2.2⟩)
    ⟨hinv₁, hcount, hown⟩ hs₂
  obtain ⟨hlen, htot⟩ := globalRound_none hinv₂ hwgt hover₂
  exact ⟨hcount₂, hown₂, hlen, htot⟩

end

/-- The store with one more snapshot. -/
lemma Inv.insert (hinv : s.Inv) (hroomy : s.Roomy r.binding.owner r.weight)
    (hfree : id ∉ s.snapshots) : Inv ⟨s.snapshots.insert id r, s.insertionOrder ++ [id],
      saturatingAdd s.totalWeight r.weight⟩ := by
  have hents := entries_insert_of_notMem (b := r) hfree
  have hsum : saturatingAdd s.totalWeight r.weight = s.totalWeight + r.weight :=
    min_eq_left (hroomy.weight.trans (by decide))
  have howned : ∀ owner, owned owner ⟨s.snapshots.insert id r, s.insertionOrder ++ [id],
      saturatingAdd s.totalWeight r.weight⟩ =
        if r.binding.owner = owner then ⟨id, r⟩ :: s.owned owner else s.owned owner := by
    intro owner
    rw [owned, hents, filter_cons]
    simp only [decide_eq_true_eq]
    rfl
  refine ⟨?_, fun i => ?_, ?_, ?_, ?_, fun owner => ?_, fun owner => ?_⟩
  · refine hinv.nodup.append (nodup_singleton id) ?_
    rw [disjoint_singleton]
    exact fun hid => hfree ((hinv.queued id).mp hid)
  · change i ∈ s.insertionOrder ++ [id] ↔ i ∈ s.snapshots.insert id r
    rw [mem_append, mem_singleton, mem_insert, hinv.queued, or_comm]
  · change saturatingAdd s.totalWeight r.weight = weightOf (s.snapshots.insert id r).entries
    rw [hsum, hents, weightOf_cons, hinv.balance, Nat.add_comm]
  · change (s.snapshots.insert id r).entries.length ≤ _
    rw [hents, length_cons]
    exact hroomy.count
  · change saturatingAdd s.totalWeight r.weight ≤ _
    rw [hsum]
    exact hroomy.weight
  · rw [howned owner]
    split
    · next hown => rw [length_cons, ← hown]; exact hroomy.owned_count
    · exact hinv.owned_count_le owner
  · rw [howned owner]
    split
    · next hown =>
      rw [weightOf_cons, Nat.add_comm, ← hown]
      exact hroomy.owned_weight
    · exact hinv.owned_weight_le owner

/-! ### Calls -/

lemma freshIdentifier_free {draws : List (Option (ByteBlock 32 × ByteBlock 32))}
    {drawn : ByteBlock 32 × ByteBlock 32} (h : freshIdentifier s draws = some drawn) :
    drawn.1 ∉ s.snapshots := by
  obtain ⟨draw, -, hdraw⟩ := exists_of_findSome?_eq_some h
  obtain ⟨random, -, hrandom⟩ := bind_eq_some_iff.mp hdraw
  obtain ⟨hfree, hsame⟩ := ite_none_left_eq_some.mp hrandom
  rwa [← some.inj hsame]

/-- The record that `cache` stores. -/
def newRecord (P : Platform) (binding : ListSnapshotBinding) (paths : PathVec) (now : ℕ)
    (secret : ByteBlock 32) : ListSnapshotRecord :=
  ⟨secret, binding, paths.items, now + listSnapshotTtl,
    listSnapshotWeight P binding paths.items paths.capacity⟩

/-- Everything `cache` can do. -/
inductive Cached (P : Platform) (n : ℕ) (binding : ListSnapshotBinding) (paths : PathVec) (now : ℕ)
    (s : ListSnapshotStore) : ListSnapshotStore → Except ListingError ListSnapshotPage → Prop
  | refused : Cached P n binding paths now s s (.error ⟨"list_snapshot_cache", binding.path,
      "snapshot_memory_budget", .listSnapshotLimit⟩)
  | unlucky (purged roomy : ListSnapshotStore) (hpurged : s.purgeExpired n now = some purged)
      (hroomy : purged.makeRoom n binding.owner
        (listSnapshotWeight P binding paths.items paths.capacity) = some roomy) :
      Cached P n binding paths now s roomy (.error ⟨"list_snapshot_cache", binding.path,
        "random_cursor_generation", .directoryOperationFailed⟩)
  | stored (purged roomy : ListSnapshotStore) (id secret : ByteBlock 32)
      (hweight : listSnapshotWeight P binding paths.items paths.capacity ≤
        maxCachedListSnapshotBytesPerOwner)
      (hpurged : s.purgeExpired n now = some purged)
      (hroomy : purged.makeRoom n binding.owner
        (listSnapshotWeight P binding paths.items paths.capacity) = some roomy)
      (hfree : id ∉ roomy.snapshots) :
      Cached P n binding paths now s
        ⟨roomy.snapshots.insert id (newRecord P binding paths now secret),
          roomy.insertionOrder ++ [id],
          saturatingAdd roomy.totalWeight (newRecord P binding paths now secret).weight⟩
        (.ok ⟨paths.items, 0, binding.limit, some (encodeListCursor P id secret binding.limit)⟩)

lemma cache_cases {result : Except ListingError ListSnapshotPage}
    (h : s.cache P n binding paths now draws = some (s', result)) :
    Cached P n binding paths now s s' result := by
  unfold cache at h
  dsimp only at h
  split at h
  · cases h
    exact .refused
  · next hwgt =>
    obtain ⟨purged, hpur, h⟩ := bind_eq_some_iff.mp h
    obtain ⟨roomy, hroomy, h⟩ := bind_eq_some_iff.mp h
    split at h
    · cases h
      exact .unlucky purged _ hpur hroomy
    · next id secret hfr =>
      cases h
      exact .stored purged roomy id secret (not_lt.mp hwgt) hpur hroomy (freshIdentifier_free hfr)

lemma exists_cache (hinv : s.Inv) (hn : s.insertionOrder.length < n) (P : Platform)
    (binding : ListSnapshotBinding) (paths : PathVec) (now : ℕ)
    (draws : List (Option (ByteBlock 32 × ByteBlock 32))) :
    ∃ result, s.cache P n binding paths now draws = some result := by
  unfold cache
  dsimp only
  split
  · exact ⟨_, rfl⟩
  · obtain ⟨purged, hpur⟩ := exists_purgeExpired hinv hn now
    obtain ⟨hinv', hle⟩ := hinv.thins (hinv.purgeExpired hpur)
    obtain ⟨roomy, hroomy⟩ := exists_makeRoom hinv' (hle.trans_lt hn) binding.owner
      (listSnapshotWeight P binding paths.items paths.capacity)
    simp only [hpur, hroomy, bind_eq_bind, bind_some]
    split
    · exact ⟨_, rfl⟩
    · exact ⟨_, rfl⟩

/-- Everything a call can do to the store. -/
inductive Performed (P : Platform) (s : ListSnapshotStore) : Call → ListSnapshotStore → Prop
  | thinned {c : Call} {s' : ListSnapshotStore} (hthins : s.Thins s') : Performed P s c s'
  | stored {binding : ListSnapshotBinding} {paths : PathVec} {now : ℕ}
      {draws : List (Option (ByteBlock 32 × ByteBlock 32))} {roomy : ListSnapshotStore}
      {id secret : ByteBlock 32} (hthins : s.Thins roomy)
      (hroomy : roomy.Roomy binding.owner (newRecord P binding paths now secret).weight)
      (hfree : id ∉ roomy.snapshots) :
      Performed P s (.cache binding paths now draws)
        ⟨roomy.snapshots.insert id (newRecord P binding paths now secret),
          roomy.insertionOrder ++ [id],
          saturatingAdd roomy.totalWeight (newRecord P binding paths now secret).weight⟩

lemma perform_cases (hinv : s.Inv)
    (h : s.perform P c = some (s', answer)) : Performed P s c s' := by
  cases c with
  | cache binding paths now draws =>
    obtain ⟨⟨s₁, result⟩, hcch, ⟨⟩⟩ := map_eq_some_iff.mp h
    cases cache_cases hcch with
    | refused => exact .thinned .refl
    | unlucky purged _ hpur hroomy =>
      have hthn := hinv.purgeExpired hpur
      exact .thinned (hthn.trans ((hinv.thins hthn).1.makeRoom hroomy))
    | stored purged roomy id secret hwgt hpur hroomy hfree =>
      have hthn := hinv.purgeExpired hpur
      have hinv' := (hinv.thins hthn).1
      exact .stored (hthn.trans (hinv'.makeRoom hroomy)) (hinv'.roomy hwgt hroomy) hfree
  | page cursor request now =>
    obtain ⟨⟨s₁, result⟩, hpage, ⟨⟩⟩ := map_eq_some_iff.mp h
    obtain ⟨s₂, hpur, ⟨⟩⟩ := map_eq_some_iff.mp hpage
    exact .thinned (hinv.purgeExpired hpur)
  | purgeExpired now =>
    obtain ⟨s₁, hpur, ⟨⟩⟩ := map_eq_some_iff.mp h
    exact .thinned (hinv.purgeExpired hpur)
  | removeOldest =>
    cases h
    cases hord : s.insertionOrder with
    | nil =>
      rw [removeOldest, hord, removeOldestFrom, ← hord]
      exact .thinned .refl
    | cons id rest =>
      obtain ⟨r, hr⟩ := exists_lookup hinv (hord ▸ mem_cons_self)
      exact .thinned (.single ⟨id, r, hr, removeOldest_eq hord hr⟩)
  | removeOldestForOwner owner =>
    cases h
    cases hrmv : s.removeOldestForOwner owner with
    | none => exact .thinned .refl
    | some s₁ => exact .thinned (.single (removeOldestForOwner_eq hrmv))
  | makeRoom owner weight =>
    obtain ⟨s₁, hroomy, ⟨⟩⟩ := map_eq_some_iff.mp h
    exact .thinned (hinv.makeRoom hroomy)

lemma Inv.perform (hinv : s.Inv) (h : s.perform P c = some (s', answer)) : s'.Inv := by
  cases perform_cases hinv h with
  | thinned hthn => exact (hinv.thins hthn).1
  | stored hthn hroomy hfree => exact (hinv.thins hthn).1.insert hroomy hfree

/-- Every call returns. -/
lemma exists_perform (hinv : s.Inv) (c : Call) : ∃ result, s.perform P c = some result := by
  have hrounds : s.insertionOrder.length < s.rounds := Nat.lt_succ_self _
  cases c with
  | cache binding paths now draws =>
    obtain ⟨result, hres⟩ := exists_cache hinv hrounds P binding paths now draws
    exact ⟨_, map_eq_some_iff.mpr ⟨result, hres, rfl⟩⟩
  | page cursor request now =>
    obtain ⟨s₁, hs₁⟩ := exists_purgeExpired hinv hrounds now
    exact ⟨_, map_eq_some_iff.mpr ⟨_, map_eq_some_iff.mpr ⟨s₁, hs₁, rfl⟩, rfl⟩⟩
  | purgeExpired now =>
    obtain ⟨s₁, hs₁⟩ := exists_purgeExpired hinv hrounds now
    exact ⟨_, map_eq_some_iff.mpr ⟨s₁, hs₁, rfl⟩⟩
  | removeOldest | removeOldestForOwner => exact ⟨_, rfl⟩
  | makeRoom owner weight =>
    obtain ⟨s₁, hs₁⟩ := exists_makeRoom hinv hrounds owner weight
    exact ⟨_, map_eq_some_iff.mpr ⟨s₁, hs₁, rfl⟩⟩

lemma inv_empty : empty.Inv where
  nodup := nodup_nil
  queued id := by simp [empty]
  balance := rfl
  count_le := Nat.zero_le _
  weight_le := Nat.zero_le _
  owned_count_le _ := Nat.zero_le _
  owned_weight_le _ := Nat.zero_le _

end ListSnapshotStore

lemma inv_run (P : Platform) (calls : ℕ → Call) (n : ℕ) : ((storeMachine P).run calls n).Inv := by
  refine Machine.run_invariant inv_empty (fun s c s' hinv hstep => ?_) n
  obtain ⟨⟨s₁, answer⟩, hperf, rfl⟩ := map_eq_some_iff.mp hstep
  exact hinv.perform hperf

/-- After any calls the queue lists exactly the snapshots, the total weight is right and the bounds
hold, in total and for each owner; every further call returns, and more rounds than there are
snapshots are always enough for the loops of `make_room`. -/
theorem store_bounded (P : Platform) (calls : ℕ → Call) (n : ℕ) :
    let s := (storeMachine P).run calls n
    s.insertionOrder.Nodup ∧ (∀ id, id ∈ s.insertionOrder ↔ id ∈ s.snapshots) ∧
    s.totalWeight = (s.snapshots.entries.map fun e => e.2.weight).sum ∧
    s.snapshots.entries.length ≤ 32 ∧ s.totalWeight ≤ 64 * 1024 * 1024 ∧
    (∀ owner, (s.snapshots.entries.filter fun e => e.2.binding.owner = owner).length ≤ 8 ∧
      ((s.snapshots.entries.filter fun e => e.2.binding.owner = owner).map
        fun e => e.2.weight).sum ≤ 32 * 1024 * 1024) ∧
    (∀ c, (s.perform P c).isSome) ∧
    ∀ owner weight rounds, s.insertionOrder.length < rounds →
      (s.makeRoom rounds owner weight).isSome := by
  have hinv := inv_run P calls n
  refine ⟨hinv.nodup, hinv.queued, hinv.balance, hinv.count_le, hinv.weight_le,
    fun owner => ⟨hinv.owned_count_le owner, hinv.owned_weight_le owner⟩, fun c => ?_,
    fun owner weight rounds hrounds => ?_⟩
  · exact isSome_iff_exists.mpr (ListSnapshotStore.exists_perform hinv c)
  · exact isSome_iff_exists.mpr (ListSnapshotStore.exists_makeRoom hinv hrounds owner weight)

end DufsRam.Listing
