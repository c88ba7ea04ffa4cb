import DufsRam.Listing.Pages

/-!
# What a cursor authorises

The server hands out cursors with the pages of a snapshot. A tag is taken to be known only from a
cursor that was handed out: whoever presents a tag that is right for a stored snapshot has it from
an answer to an earlier call. Under this assumption a page answers only a text that was handed out
for the snapshot, in a request with the values under which the snapshot was cached.
-/

namespace DufsRam.Listing

open Transition ListSnapshotStore Option

/-- The cursor that an answer hands out. -/
def Answer.nextCursor : Answer → Option (List UInt8)
  | .cached (.ok page) | .paged (.ok page) => page.nextCursor
  | _ => none

section Authority

variable (P : Platform) (calls : ℕ → Call) (n : ℕ)

/-- An earlier call has left a snapshot in the store and has handed out a cursor for an offset into
it. -/
def Issued (id : ByteBlock 32) (r : ListSnapshotRecord) (offset : ℕ) : Prop :=
  ∃ m < n, ((storeMachine P).run calls (m + 1)).snapshots.lookup id = some r ∧
    ∃ s' answer, ((storeMachine P).run calls m).perform P (calls m) = some (s', answer) ∧
      answer.nextCursor = some (encodeListCursor P id r.secret offset)

/-- The tag of the cursor is not guessed: if it is right for a stored snapshot, it was issued. -/
def Unforged (cursor : DecodedListCursor) : Prop :=
  ∀ r, ((storeMachine P).run calls n).snapshots.lookup cursor.id = some r →
    cursor.tag = listCursorTag P r.secret cursor.id cursor.offset →
    Issued P calls n cursor.id r cursor.offset

/-- An earlier call has cached the snapshot. -/
def Collected (r : ListSnapshotRecord) : Prop :=
  ∃ m < n, ∃ binding paths now draws secret, calls m = .cache binding paths now draws ∧
    r = newRecord P binding paths now secret ∧
      r.weight ≤ maxCachedListSnapshotBytesPerOwner

variable {P calls n} {cursor : DecodedListCursor} {request : ListSnapshotRequest}
  {s s' : ListSnapshotStore} {page : ListSnapshotPage} {r : ListSnapshotRecord}
  {id : ByteBlock 32} {value : List UInt8}

lemma Collected.succ (h : Collected P calls n r) : Collected P calls (n + 1) r := by
  obtain ⟨m, hm, hcall⟩ := h
  exact ⟨m, hm.trans (Nat.lt_succ_self n), hcall⟩

/-- The snapshots of a store come from calls to `cache`. -/
lemma collected_run (h : ((storeMachine P).run calls n).snapshots.lookup id = some r) :
    Collected P calls n r := by
  induction n generalizing id r with
  | zero => cases h
  | succ n ih =>
    have hinv := inv_run P calls n
    revert h
    refine Machine.exec_cases (P := fun s : ListSnapshotStore => s.snapshots.lookup id = some r →
      Collected P calls (n + 1) r) (fun h => (ih h).succ) fun s' hstep h => ?_
    obtain ⟨⟨s₁, answer⟩, hperf, rfl⟩ := map_eq_some_iff.mp hstep
    generalize hcall : calls n = c at hperf
    cases perform_cases hinv hperf with
    | thinned hthn => exact (ih ((Thins.keeps hthn).2 id r h)).succ
    | @stored binding paths now draws roomy fresh secret hthn hroomy hfree =>
      by_cases hid : id = fresh
      · subst hid
        obtain rfl := some.inj ((AList.lookup_insert _).symm.trans h)
        exact ⟨n, Nat.lt_succ_self n, binding, paths, now, draws, secret, hcall, rfl,
          (Nat.le_add_left _ _).trans hroomy.owned_weight⟩
      · have hold := (AList.lookup_insert_ne hid).symm.trans h
        exact (ih ((Thins.keeps hthn).2 id r hold)).succ

lemma Collected.length_le (h : Collected P calls n r) : r.paths.length ≤ usizeMax := by
  obtain ⟨m, -, binding, paths, now, draws, secret, -, rfl, hwgt⟩ := h
  exact (length_le_of_weight hwgt).trans (by decide)

/-- Everything that is checked before a page is cut. -/
structure Serves (P : Platform) (cursor : DecodedListCursor) (request : ListSnapshotRequest)
    (r : ListSnapshotRecord) (page : ListSnapshotPage) : Prop where
  tag : cursor.tag = listCursorTag P r.secret cursor.id cursor.offset
  request : request = ⟨r.binding.owner, r.binding.path, r.binding.directory, r.binding.sort.text,
    r.binding.order.text, r.binding.query.text, r.binding.limit⟩
  entries : r.paths.length ≤ usizeMax →
    page.entries = (r.paths.drop cursor.offset).take r.binding.limit

lemma eq_of_matchesRequest {b : ListSnapshotBinding} (h : b.matchesRequest request = true)
    (hdir : b.directory = request.directory) :
    request = ⟨b.owner, b.path, b.directory, b.sort.text, b.order.text, b.query.text, b.limit⟩ := by
  simp only [ListSnapshotBinding.matchesRequest, Bool.and_eq_true, beq_iff_eq] at h
  obtain ⟨⟨⟨⟨⟨hown, hpath⟩, hsort⟩, hord⟩, hqry⟩, hlim⟩ := h
  rw [hown, hpath, hdir, hsort, hord, hqry, hlim]

lemma cut_serves (h : s.cut P cursor request = .ok page) :
    ∃ r, s.snapshots.lookup cursor.id = some r ∧ Serves P cursor request r page := by
  unfold ListSnapshotStore.cut at h
  split at h
  · cases h
  · next r hr =>
    split_ifs at h with htag hmat hdir hlarge hrng
    cases h
    refine ⟨r, hr, (not_not.mp htag).symm,
      eq_of_matchesRequest hmat (not_not.mp hdir), fun hlen => ?_⟩
    have hstop : min (saturatingAdd cursor.offset r.binding.limit) r.paths.length -
        cursor.offset = min r.binding.limit (r.paths.drop cursor.offset).length := by
      rw [List.length_drop, saturatingAdd]
      omega
    change (r.paths.take (min (saturatingAdd _ _) _)).drop cursor.offset = _
    rw [List.drop_take, hstop, ← List.take_eq_take_min]

/-- The text was handed out for a snapshot that is still stored, the request has the owner, path,
directory, sort, order, query and limit under which an earlier call has cached the snapshot, and the
page is the slice of the paths of that call at the offset for which the text was handed out. -/
def Authorised (P : Platform) (calls : ℕ → Call) (n : ℕ) (s : ListSnapshotStore)
    (value : List UInt8) (request : ListSnapshotRequest) (page : ListSnapshotPage) : Prop :=
  ∃ id r offset, s.snapshots.lookup id = some r ∧ Issued P calls n id r offset ∧
    value = encodeListCursor P id r.secret offset ∧
    (∃ m < n, ∃ paths time draws, calls m = .cache r.binding paths time draws ∧
      paths.items = r.paths) ∧
    request = ⟨r.binding.owner, r.binding.path, r.binding.directory, r.binding.sort.text,
      r.binding.order.text, r.binding.query.text, r.binding.limit⟩ ∧
    page.entries = (r.paths.drop offset).take r.binding.limit

/-- A page answers only what its cursor was handed out for. -/
theorem page_authorised (P : Platform) (calls : ℕ → Call) (n : ℕ) (value : List UInt8)
    (cursor : DecodedListCursor) (request : ListSnapshotRequest) (rounds now : ℕ)
    (s' : ListSnapshotStore) (page : ListSnapshotPage)
    (hdecode : decodeListCursor value = .ok cursor) (hunforged : Unforged P calls n cursor)
    (hpage : ((storeMachine P).run calls n).page P rounds cursor request now =
      some (s', .ok page)) : Authorised P calls n s' value request page := by
  obtain ⟨s₁, hpurged, hcut⟩ := map_eq_some_iff.mp hpage
  obtain ⟨r, hr, hserves⟩ := cut_serves (Prod.mk.inj hcut).2
  obtain rfl := (Prod.mk.inj hcut).1
  have hthins := (inv_run P calls n).purgeExpired hpurged
  have hstored := (Thins.keeps hthins).2 _ r hr
  have hcollected := collected_run hstored
  refine ⟨cursor.id, r, cursor.offset, hr, hunforged r hstored hserves.tag, ?_, ?_, hserves.request,
    hserves.entries hcollected.length_le⟩
  · rw [eq_encode_of_decodeListCursor hdecode, hserves.tag, encodeListCursor]
  · obtain ⟨m, hm, binding, paths, time, draws, secret, hcall, rfl, -⟩ := hcollected
    exact ⟨m, hm, paths, time, draws, hcall, rfl⟩

end Authority

open Sample

lemma unforged_once : Unforged platform once 1 (cursor (block 1)) := by
  intro r hr _
  have hstr : ((storeMachine platform).run once 1).snapshots.lookup (block 1) =
      some (newRecord platform binding paths 0 (block 9)) := by decide +kernel
  obtain rfl := some.inj (hstr.symm.trans hr)
  have hanswer : (((storeMachine platform).run once 0).perform platform (once 0)).map
      (fun x => x.2.nextCursor) =
        some (some (encodeListCursor platform (block 1) (block 9) 1)) := by
    decide +kernel
  obtain ⟨⟨s', answer⟩, hperf, hnext⟩ := map_eq_some_iff.mp hanswer
  exact ⟨0, Nat.zero_lt_one, hstr, s', answer, hperf, hnext⟩

/-- The second page of the listing of two files. -/
theorem page_authorised_once : ∃ s', Authorised platform once 1 s'
    (encodeListCursor platform (block 1) (block 9) 1) request second := by
  have hanswer : (((storeMachine platform).run once 1).page platform 2 (cursor (block 1)) request
      5).map Prod.snd = some (.ok second) := by decide +kernel
  obtain ⟨⟨s', result⟩, hpage, hresult⟩ := map_eq_some_iff.mp hanswer
  cases hresult
  exact ⟨s', page_authorised platform once 1 _ (cursor (block 1)) request 2 5 s' second
    (decodeListCursor_encodeListCursor platform (block 1) (block 9) (by decide)) unforged_once
    hpage⟩

end DufsRam.Listing
