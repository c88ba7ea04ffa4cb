import DufsRam.Listing.Cache

/-!
# The expiry of snapshots

`purge_expired` looks at the front of the queue and stops at the first snapshot that has not
expired. Nothing else compares the time of a request with the expiry of a snapshot, so an expired
snapshot is withheld only if no snapshot that expires later stands before it.
-/

namespace DufsRam.Listing

open Transition List ListSnapshotStore Option AList

namespace ListSnapshotStore

variable {P : Platform} {s s' : ListSnapshotStore} {id : ByteBlock 32} {r : ListSnapshotRecord}
  {now n weight : ℕ} {owner i : ByteBlock 32} {r' : ListSnapshotRecord}

/-- Snapshots stand in the queue in the order of their expiry. -/
def Ordered (s : ListSnapshotStore) : Prop :=
  s.insertionOrder.Pairwise fun a b => ∀ ra rb, s.snapshots.lookup a = some ra →
    s.snapshots.lookup b = some rb → ra.expiresAt ≤ rb.expiresAt

/-- What is stored after a removal was stored before. -/
lemma lookup_of_remove (h : (s.remove id r).snapshots.lookup i = some r') :
    s.snapshots.lookup i = some r' := by
  by_cases hi : i = id
  · have hmem : i ∈ s.snapshots.erase id := lookup_isSome.mp (by
      rw [show (s.snapshots.erase id).lookup i = some r' from h]; rfl)
    exact absurd hi (mem_erase.mp hmem).1
  · rwa [← lookup_erase_ne hi]

lemma Ordered.remove (hord : s.Ordered) : (s.remove id r).Ordered := by
  refine (hord.sublist erase_sublist).imp fun {a b} hab ra rb ha hb => ?_
  exact hab ra rb (lookup_of_remove ha) (lookup_of_remove hb)

/-- What is stored after some snapshots are dropped was stored before, in the same order. -/
lemma Thins.keeps (h : s.Thins s') : (s.Ordered → s'.Ordered) ∧
    ∀ i r, s'.snapshots.lookup i = some r → s.snapshots.lookup i = some r := by
  induction h with
  | refl => exact ⟨fun hord => hord, fun _ _ hr => hr⟩
  | tail _ hdrops ih =>
    obtain ⟨id, r, -, rfl⟩ := hdrops
    exact ⟨fun hord => (ih.1 hord).remove, fun i r' hr' => ih.2 i r' (lookup_of_remove hr')⟩

/-- A snapshot that expires last may join the queue. -/
lemma Ordered.insert {total : ℕ} (hord : s.Ordered) (hinv : s.Inv) (hfree : id ∉ s.snapshots)
    (hlast : ∀ i r', s.snapshots.lookup i = some r' → r'.expiresAt ≤ r.expiresAt) :
    Ordered ⟨s.snapshots.insert id r, s.insertionOrder ++ [id], total⟩ := by
  have hne : ∀ a ∈ s.insertionOrder, a ≠ id := fun a ha haid => hfree (haid ▸ (hinv.queued a).mp ha)
  have hold : ∀ a ∈ s.insertionOrder,
      (s.snapshots.insert id r).lookup a = s.snapshots.lookup a := fun a ha =>
    lookup_insert_ne (hne a ha)
  refine pairwise_append.mpr ⟨?_, pairwise_singleton _ _, ?_⟩
  · refine hord.imp_of_mem fun {a b} ha hb hab ra rb hra hrb => ?_
    exact hab ra rb ((hold a ha).symm.trans hra) ((hold b hb).symm.trans hrb)
  · intro a ha b hb ra rb hra hrb
    obtain rfl := mem_singleton.mp hb
    change (s.snapshots.insert b r).lookup b = some rb at hrb
    rw [lookup_insert] at hrb
    obtain rfl := some.inj hrb
    exact hlast a ra ((hold a ha).symm.trans hra)

/-- A call stores a snapshot only after the snapshots of calls that are not later. -/
def InTurn (s : ListSnapshotStore) : Call → Prop
  | .cache _ _ now _ => ∀ i r, s.snapshots.lookup i = some r → r.expiresAt ≤ now + listSnapshotTtl
  | _ => True

lemma Ordered.perform {c : Call} {answer : Answer} (hord : s.Ordered) (hinv : s.Inv)
    (hturn : s.InTurn c) (h : s.perform P c = some (s', answer)) : s'.Ordered := by
  cases perform_cases hinv h with
  | thinned hthn => exact (Thins.keeps hthn).1 hord
  | stored hthn hroomy hfree =>
    obtain ⟨hkept, hlook⟩ := Thins.keeps hthn
    exact (hkept hord).insert (hinv.thins hthn).1 hfree fun i r' hr' => hturn i r' (hlook i r' hr')

/-- A page comes from a stored snapshot. -/
lemma cut_eq_ok {cur : DecodedListCursor} {req : ListSnapshotRequest}
    {page : ListSnapshotPage} (h : s.cut P cur req = .ok page) :
    ∃ r, s.snapshots.lookup cur.id = some r ∧ page.paths = r.paths := by
  unfold cut at h
  split at h
  · cases h
  · next r hr =>
    refine ⟨r, hr, ?_⟩
    split_ifs at h
    cases h
    rfl

/-- In an ordered queue the purge leaves no expired snapshot. -/
lemma Ordered.unexpired (hordered : s.Ordered) (hinv : s.Inv) (hover : s.purgeRound now = none)
    (hr : s.snapshots.lookup id = some r) : now < r.expiresAt := by
  have hid : id ∈ s.insertionOrder :=
    (hinv.queued id).mpr (lookup_isSome.mp (by rw [hr]; rfl))
  obtain ⟨front, rest, hord⟩ := exists_cons_of_ne_nil (ne_nil_of_mem hid)
  obtain ⟨rf, hrf⟩ := exists_lookup hinv (hord ▸ mem_cons_self)
  -- the purge stops at a snapshot that has not expired
  have hfront : now < rf.expiresAt := by
    rw [purgeRound, hord] at hover
    dsimp only at hover
    rw [hrf] at hover
    by_contra hle
    simp [not_lt.mp hle] at hover
  rw [hord, mem_cons] at hid
  obtain rfl | hrest := hid
  · obtain rfl := some.inj (hrf.symm.trans hr)
    exact hfront
  · rw [Ordered, hord, pairwise_cons] at hordered
    exact hfront.trans_le (hordered.1 id hrest rf r hrf hr)

end ListSnapshotStore

/-- Every snapshot is stored after the snapshots of calls that are not later. -/
def CachedInTurn (P : Platform) (calls : ℕ → Call) : Prop :=
  ∀ n, ((storeMachine P).run calls n).InTurn (calls n)

lemma CachedInTurn.ordered {P : Platform} {calls : ℕ → Call} (h : CachedInTurn P calls) (n : ℕ) :
    ((storeMachine P).run calls n).Ordered := by
  induction n with
  | zero => exact List.Pairwise.nil
  | succ n ih =>
    refine Machine.exec_cases (P := ListSnapshotStore.Ordered) ih fun s' hstep => ?_
    obtain ⟨⟨s₁, answer⟩, hperf, rfl⟩ := map_eq_some_iff.mp hstep
    exact ih.perform (inv_run P calls n) (h n) hperf

/-- If snapshots are stored in the order of the clock, no page comes from a snapshot that has
expired when it is requested. -/
theorem page_unexpired (P : Platform) (calls : ℕ → Call) (hturn : CachedInTurn P calls) (n : ℕ)
    (rounds now : ℕ) (cursor : DecodedListCursor) (request : ListSnapshotRequest)
    (s' : ListSnapshotStore) (page : ListSnapshotPage)
    (hpage : ((storeMachine P).run calls n).page P rounds cursor request now =
      some (s', .ok page)) :
    ∃ r, ((storeMachine P).run calls n).snapshots.lookup cursor.id = some r ∧
      page.paths = r.paths ∧ now < r.expiresAt := by
  have hinv := inv_run P calls n
  obtain ⟨s₁, hpurged, hcut⟩ := map_eq_some_iff.mp hpage
  obtain ⟨hthins, hover⟩ := ListSnapshotStore.Inv.iterate
    (fun _ _ => purgeRound_drops) hinv hpurged
  obtain ⟨hkept, hlookup⟩ := ListSnapshotStore.Thins.keeps hthins
  obtain ⟨r, hr, hpaths⟩ := cut_eq_ok (Prod.mk.inj hcut).2
  refine ⟨r, hlookup cursor.id r hr, hpaths, ?_⟩
  exact (hkept (hturn.ordered n)).unexpired (hinv.thins hthins).1 hover hr

/-! ### A listing of two files -/

namespace Sample

def platform : Platform := ⟨fun _ => ⟨replicate 32 0, rfl⟩, 256, 128, by decide⟩

def block (b : UInt8) : ByteBlock 32 := ⟨replicate 32 b, length_replicate⟩

def item (c : UInt8) : PathItem := ⟨.file, ⟨[c], 8⟩, ⟨[c], 8⟩, 0, 0, block 0⟩

def paths : PathVec := ⟨[item 97, item 98], 2, le_refl _⟩

def directory : DirectorySnapshot := ⟨1, 2, 3, 4, 5, 6⟩

def binding : ListSnapshotBinding :=
  ⟨block 0, [47], directory, ⟨ascii "name", 4⟩, ⟨ascii "asc", 3⟩, ⟨[], 0⟩, 1⟩

def request : ListSnapshotRequest :=
  ⟨block 0, [47], directory, ascii "name", ascii "asc", [], 1⟩

/-- The cursor of the second page of a snapshot. -/
def cursor (id : ByteBlock 32) : DecodedListCursor :=
  ⟨id, 1, listCursorTag platform (block 9) id 1⟩

/-- The second page. -/
def second : ListSnapshotPage := ⟨paths.items, 1, 2, none⟩

/-- One listing. -/
def once : ℕ → Call
  | 0 => .cache binding paths 0 [some (block 1, block 9)]
  | _ => .removeOldestForOwner (block 7)

/-- Two listings, of which the one that took its time first gets the lock last. -/
def overtaken : ℕ → Call
  | 0 => .cache binding paths 1 [some (block 1, block 9)]
  | 1 => .cache binding paths 0 [some (block 2, block 9)]
  | _ => .removeOldestForOwner (block 7)

lemma once_inTurn : CachedInTurn platform once := by
  intro n
  cases n with
  | zero => nofun
  | succ n => trivial

end Sample

open Sample

theorem page_unexpired_once : ∃ r,
    ((storeMachine platform).run once 1).snapshots.lookup (block 1) = some r ∧
      second.paths = r.paths ∧ 5 < r.expiresAt := by
  have hanswer : (((storeMachine platform).run once 1).page platform 2 (cursor (block 1)) request
      5).map Prod.snd = some (.ok second) := by decide +kernel
  obtain ⟨⟨s', result⟩, hpage, hresult⟩ := map_eq_some_iff.mp hanswer
  cases hresult
  exact page_unexpired platform once once_inTurn 1 2 5 (cursor (block 1)) request s' second hpage

/-- The second of two snapshots is served at the time of its expiry, behind a snapshot that was
stored before it by a later call. -/
theorem page_expired : ∃ s' r,
    ((storeMachine platform).run overtaken 2).page platform 3 (cursor (block 2)) request
      listSnapshotTtl = some (s', .ok second) ∧
    ((storeMachine platform).run overtaken 2).snapshots.lookup (block 2) = some r ∧
    second.paths = r.paths ∧ r.expiresAt ≤ listSnapshotTtl := by
  have hanswer : (((storeMachine platform).run overtaken 2).page platform 3 (cursor (block 2))
      request listSnapshotTtl).map Prod.snd = some (.ok second) := by decide +kernel
  have hstored : ((storeMachine platform).run overtaken 2).snapshots.lookup (block 2) =
      some (newRecord platform binding paths 0 (block 9)) := by decide +kernel
  obtain ⟨⟨s', result⟩, hpage, hresult⟩ := map_eq_some_iff.mp hanswer
  cases hresult
  exact ⟨s', _, hpage, hstored, rfl, le_of_eq (Nat.zero_add _)⟩

end DufsRam.Listing
