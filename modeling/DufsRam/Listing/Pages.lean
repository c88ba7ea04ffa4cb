import DufsRam.Listing.Expiry
import DufsRam.Listing.Handler

/-!
# The pages of a listing

A client that follows the cursors of a listing gets every path once, in order, as long as the
snapshot of the listing stays in the store, whatever else happens to the store in between.
-/

namespace DufsRam.Listing

open Transition List Option ListSnapshotStore ListSnapshotBinding Prod

/-! ### What a client asks for -/

/-- The request that continues a listing. -/
def ListSnapshotBinding.request (b : ListSnapshotBinding) : ListSnapshotRequest :=
  ⟨b.owner, b.path, b.directory, b.sort.text, b.order.text, b.query.text, b.limit⟩

/-- The event starts a listing of these paths. -/
inductive AsksFirst (S : Service) (b : ListSnapshotBinding) (paths : PathVec) : Event → Prop
  | handler (r : ListRequest) (p : ListParameters) (hquery : parseListQuery S r.query = .ok p)
      (hcursor : r.query.cursor = none) (hbefore : r.before = .ok (some b.directory))
      (hwalk : r.walk = some (.ok paths))
      (hbinding : p.binding (listSnapshotOwner S.platform r.account) b.directory = b) :
      AsksFirst S b paths (.list r)
  | cache (now : ℕ) (draws : List (Option (ByteBlock 32 × ByteBlock 32)))
      (hmore : b.limit < paths.items.length) :
      AsksFirst S b paths (.call (.cache b paths now draws))

/-- The event continues a listing with the same parameters, in the unchanged directory. -/
inductive AsksNext (S : Service) (b : ListSnapshotBinding) (cursor : List UInt8) (now : ℕ) :
    Event → Prop
  | handler (r : ListRequest) (p : ListParameters)
      (hquery : parseListQuery S { r.query with cursor := none } = .ok p)
      (hcursor : r.query.cursor = some cursor) (hbefore : r.before = .ok (some b.directory))
      (hrequest : p.request (listSnapshotOwner S.platform r.account) b.directory = b.request)
      (hnow : r.now = now) : AsksNext S b cursor now (.list r)
  | page (c : DecodedListCursor) (hdecode : decodeListCursor cursor = .ok c) :
      AsksNext S b cursor now (.call (.page c b.request now))

variable {S : Service} {schedule : ℕ → Event} {resp : ListResponse} {s s' : ListSnapshotStore}
  {P : Platform} {page : ListSnapshotPage} {p : ListParameters} {n now offset limit : ℕ}
  {q : ListQuery} {c : DecodedListCursor} {cur : List UInt8} {e : Event} {id : ByteBlock 32}
  {r : ListSnapshotRecord} {b : ListSnapshotBinding} {paths : PathVec} {times : ℕ → ℕ}

/-- The response to the event that is scheduled at a time. -/
def responseAt (S : Service) (schedule : ℕ → Event) (n : ℕ) : Option ListResponse :=
  (respond S ((machine S).run schedule n) (schedule n)).map snd

/-- A client starts a listing and continues it as long as it gets cursors. Whenever it does, the
snapshot that was stored first is still there and has not expired. -/
structure Browses (S : Service) (schedule : ℕ → Event) (b : ListSnapshotBinding) (paths : PathVec)
    (times : ℕ → ℕ) : Prop where
  increasing : StrictMono times
  limited : 1 ≤ b.limit
  first : AsksFirst S b paths (schedule (times 0))
  follows : ∀ i page cursor, responseAt S schedule (times i) = some (.page page) →
    page.nextCursor = some cursor → ∃ now, AsksNext S b cursor now (schedule (times (i + 1))) ∧
      ∀ c r, decodeListCursor cursor = .ok c →
        ((machine S).run schedule (times 0 + 1)).snapshots.lookup c.id = some r →
        ((machine S).run schedule (times (i + 1))).snapshots.lookup c.id = some r ∧
          now < r.expiresAt

/-! ### The store keeps its invariant -/

lemma handleListApi_cases {r : ListRequest} (h : handleListApi S r s = some (s', resp)) :
    s' = s ∨ ∃ c answer, s.perform S.platform c = some (s', answer) := by
  unfold handleListApi at h
  split at h
  · cases h
    exact .inl rfl
  · split at h
    · cases h
      exact .inl rfl
    · split at h
      · cases h
        exact .inl rfl
      · split at h
        · next cursor _ =>
          obtain ⟨⟨s₁, result⟩, hpage, ⟨⟩⟩ := map_eq_some_iff.mp h
          exact .inr ⟨.page cursor _ r.now, _, map_eq_some_iff.mpr ⟨_, hpage, rfl⟩⟩
        · split at h
          · cases h
            exact .inl rfl
          · cases h
            exact .inl rfl
          · next paths _ =>
            unfold respondFirst at h
            split at h
            · cases h
              exact .inl rfl
            · split at h
              · cases h
                exact .inl rfl
              · split at h
                · obtain ⟨⟨s₁, result⟩, hcch, ⟨⟩⟩ := map_eq_some_iff.mp h
                  exact .inr ⟨.cache _ paths r.now r.draws, _, map_eq_some_iff.mpr ⟨_, hcch, rfl⟩⟩
                · cases h
                  exact .inl rfl

lemma inv_machine (S : Service) (schedule : ℕ → Event) (n : ℕ) :
    ((machine S).run schedule n).Inv := by
  refine Machine.run_invariant inv_empty (fun s e s' hinv hstep => ?_) n
  obtain ⟨⟨s₁, response⟩, hresp, rfl⟩ := map_eq_some_iff.mp hstep
  cases e with
  | list r =>
    obtain rfl | ⟨c, answer, hperf⟩ := handleListApi_cases hresp
    · exact hinv
    · exact hinv.perform hperf
  | call c =>
    obtain ⟨⟨s₂, answer⟩, hperf, ⟨⟩⟩ := map_eq_some_iff.mp hresp
    exact hinv.perform hperf

/-! ### The size of a snapshot -/

lemma le_saturatingAdd_left {a b c : ℕ} (ha : a ≤ usizeMax) (h : saturatingAdd a b ≤ c) : a ≤ c :=
  (le_min (Nat.le_add_right a b) ha).trans h

lemma saturatingAdd_le (a b : ℕ) : saturatingAdd a b ≤ usizeMax := min_le_right _ _

/-- The fixed part of a weight does not exceed the weight. -/
lemma le_foldl_weight (items : List PathItem) (start : ℕ) (hst : start ≤ usizeMax) :
    start ≤ items.foldl (fun weight item =>
      saturatingAdd (saturatingAdd weight item.name.capacity) item.sortName.capacity) start := by
  induction items generalizing start with
  | nil => exact le_refl _
  | cons item items ih =>
    refine le_trans ?_ (ih _ (saturatingAdd_le _ _))
    exact le_saturatingAdd_left hst (le_saturatingAdd_left (saturatingAdd_le _ _) (le_refl _))

/-- A snapshot that is accepted has fewer paths than bytes. -/
lemma length_le_of_weight {b : ListSnapshotBinding} {paths : PathVec}
    (h : listSnapshotWeight P b paths.items paths.capacity ≤ maxCachedListSnapshotBytesPerOwner) :
    paths.items.length ≤ maxCachedListSnapshotBytesPerOwner := by
  have hbd := (le_foldl_weight paths.items _ (saturatingAdd_le _ _)).trans h
  have hfixed := le_saturatingAdd_left (saturatingAdd_le _ _) (le_saturatingAdd_left
    (saturatingAdd_le _ _) (le_saturatingAdd_left (saturatingAdd_le _ _) (le_saturatingAdd_left
      (saturatingAdd_le _ _) hbd)))
  have hitems : saturatingMul paths.capacity P.itemBytes ≤ maxCachedListSnapshotBytesPerOwner :=
    (le_min (Nat.le_add_left _ _) (min_le_right _ _)).trans hfixed
  have hproduct : paths.capacity * P.itemBytes ≤ maxCachedListSnapshotBytesPerOwner := by
    rcases min_le_iff.mp hitems with hle | hle
    · exact hle
    · exact absurd hle (by decide)
  exact paths.fits.trans ((Nat.le_mul_of_pos_right _ P.itemBytes_pos).trans hproduct)

/-! ### The first page -/

/-- What the store has after a listing has been started, and the first page. -/
inductive Started (S : Service) (b : ListSnapshotBinding) (paths : PathVec)
    (s : ListSnapshotStore) : ListSnapshotPage → Prop
  | whole (hfits : paths.items.length ≤ b.limit) : Started S b paths s (.fromVec paths.items none)
  | part (id secret : ByteBlock 32) (r : ListSnapshotRecord)
      (hmore : b.limit < paths.items.length)
      (hsize : paths.items.length ≤ maxCachedListSnapshotBytesPerOwner)
      (hr : s.snapshots.lookup id = some r) (hsecret : r.secret = secret) (hbinding : r.binding = b)
      (hpaths : r.paths = paths.items) :
      Started S b paths s
        ⟨paths.items, 0, b.limit, some (encodeListCursor S.platform id secret b.limit)⟩

lemma started_of_cache {b : ListSnapshotBinding} {paths : PathVec}
    {draws : List (Option (ByteBlock 32 × ByteBlock 32))} (hmore : b.limit < paths.items.length)
    (h : s.cache S.platform n b paths now draws = some (s', .ok page)) :
    Started S b paths s' page := by
  cases cache_cases h with
  | stored purged roomy id secret hwgt hpur hroomy hfree =>
    refine .part id secret (newRecord S.platform b paths now secret) hmore
      (length_le_of_weight hwgt) ?_ rfl rfl rfl
    exact AList.lookup_insert _

lemma respondCached_page {res : Except ListingError ListSnapshotPage}
    (h : respondCached res = .page page) : res = .ok page := by
  cases res with
  | error e => cases h
  | ok page' =>
    cases h
    rfl

lemma parseListQuery_eq_ok :
    parseListQuery S q = .ok p ↔ listTarget S q.path = .ok p.path ∧ listSearch q.q = .ok p.query ∧
      listLimit q.limit = .ok p.limit ∧ listCursor q.cursor = .ok p.cursor ∧
      p.sort = listSort q.sort ∧ p.order = listOrder q.order := by
  constructor
  · intro h
    unfold parseListQuery at h
    cases htgt : listTarget S q.path with
    | error e => rw [htgt] at h; cases h
    | ok path =>
      cases hsrch : listSearch q.q with
      | error e => rw [htgt, hsrch] at h; cases h
      | ok query =>
        cases hlim : listLimit q.limit with
        | error e => rw [htgt, hsrch, hlim] at h; cases h
        | ok limit =>
          cases hcur : listCursor q.cursor with
          | error e => rw [htgt, hsrch, hlim, hcur] at h; cases h
          | ok cursor =>
            rw [htgt, hsrch, hlim, hcur] at h
            cases h
            exact ⟨rfl, rfl, rfl, rfl, rfl, rfl⟩
  · rintro ⟨htgt, hsrch, hlim, hcur, hsort, hord⟩
    rw [parseListQuery, htgt, hsrch, hlim, hcur, ← hsort, ← hord]
    rfl

/-- The same parameters, continued from a cursor. -/
lemma parseListQuery_cursor (h : parseListQuery S { q with cursor := none } = .ok p)
    (hcur : q.cursor = some cur) (hdcd : decodeListCursor cur = .ok c) :
    parseListQuery S q = .ok { p with cursor := some c } := by
  obtain ⟨htgt, hsrch, hlim, -, hsort, hord⟩ := parseListQuery_eq_ok.mp h
  refine parseListQuery_eq_ok.mpr ⟨htgt, hsrch, hlim, ?_, hsort, hord⟩
  rw [hcur, listCursor, hdcd]

lemma respondFirst_started {r : ListRequest} {b : ListSnapshotBinding} {paths : PathVec}
    (hbnd : p.binding (listSnapshotOwner S.platform r.account) b.directory = b)
    (h : respondFirst S r p b.directory paths s = some (s', .page page)) :
    Started S b paths s' page := by
  have hlim : p.limit = b.limit := congrArg limit hbnd
  unfold respondFirst at h
  split at h
  · cases h
  · split at h
    · cases h
    · split at h
      · next hmore =>
        obtain ⟨⟨s₁, result⟩, hcch, hpage⟩ := map_eq_some_iff.mp h
        obtain ⟨rfl, hres⟩ := mk.inj hpage
        rw [respondCached_page hres, hbnd] at hcch
        exact started_of_cache (hlim ▸ hmore) hcch
      · next hmore =>
        cases h
        exact .whole (hlim ▸ not_lt.mp hmore)

/-- What there is after a listing has been started successfully. -/
lemma AsksFirst.started {b : ListSnapshotBinding} {paths : PathVec} (hasks : AsksFirst S b paths e)
    (h : respond S s e = some (s', .page page)) : Started S b paths s' page := by
  cases hasks with
  | handler r p hqry hcur hbef hwalk hbnd =>
    have hnone : p.cursor = none := by
      have hlist := (parseListQuery_eq_ok.mp hqry).2.2.2.1
      rw [hcur] at hlist
      exact (Except.ok.inj hlist).symm
    change handleListApi S r s = _ at h
    unfold handleListApi at h
    rw [hqry] at h
    dsimp only at h
    split at h
    · cases h
    · rw [hbef] at h
      simp only [inspectBefore, hnone, hwalk] at h
      exact respondFirst_started hbnd h
  | cache now draws hmore =>
    obtain ⟨⟨s₁, answer⟩, hperf, hpage⟩ := map_eq_some_iff.mp h
    obtain ⟨⟨s₂, result⟩, hcch, ⟨⟩⟩ := map_eq_some_iff.mp hperf
    obtain ⟨rfl, hres⟩ := mk.inj hpage
    rw [respondCached_page hres] at hcch
    exact started_of_cache hmore hcch

/-! ### Further pages -/

namespace ListSnapshotStore

/-- The purge keeps what has not expired. -/
lemma lookup_purgeExpired (hinv : s.Inv) (hr : s.snapshots.lookup id = some r)
    (hlive : now < r.expiresAt) (h : s.purgeExpired n now = some s') :
    s'.snapshots.lookup id = some r := by
  refine (Loop.iterate_spec
    (P := fun t : ListSnapshotStore => t.Inv ∧ t.snapshots.lookup id = some r)
    (fun t t' ht hnext => ?_) ⟨hinv, hr⟩ h).1.2
  obtain ⟨front, rest, r', -, hr', hexp, rfl⟩ := purgeRound_cases ht.1 hnext
  refine ⟨ht.1.remove hr', ?_⟩
  have hne : id ≠ front := by
    rintro rfl
    obtain rfl := some.inj (ht.2.symm.trans hr')
    exact absurd hlive (not_lt.mpr hexp)
  exact (AList.lookup_erase_ne hne).trans ht.2

lemma matchesRequest_request (b : ListSnapshotBinding) : b.matchesRequest b.request = true := by
  simp [matchesRequest, request]

/-- The page at an offset of a stored snapshot. -/
lemma cut_eq {b : ListSnapshotBinding}
    (hr : s.snapshots.lookup id = some r) (hbnd : r.binding = b) (hpos : 0 < offset)
    (hoff : offset < r.paths.length) (hsize : r.paths.length ≤ usizeMax) :
    s.cut P ⟨id, offset, listCursorTag P r.secret id offset⟩ b.request = .ok {
      paths := r.paths
      start := offset
      stop := min (offset + b.limit) r.paths.length
      nextCursor := if offset + b.limit < r.paths.length then
        some (encodeListCursor P id r.secret (offset + b.limit)) else none } := by
  have hstop : min (saturatingAdd offset b.limit) r.paths.length =
      min (offset + b.limit) r.paths.length := by
    rw [saturatingAdd, min_assoc, min_eq_right hsize]
  have hcut : min (offset + b.limit) r.paths.length < r.paths.length ↔
      offset + b.limit < r.paths.length := by omega
  unfold cut
  rw [hr]
  dsimp only
  have hdir : ¬ b.directory ≠ b.request.directory := not_not.mpr rfl
  rw [if_neg (not_not.mpr rfl), hbnd, if_neg (not_not.mpr (matchesRequest_request b)),
    if_neg hdir, if_neg (by omega), if_neg (by omega), hstop]
  simp only [hcut]
  split
  · next hlt => rw [min_eq_left hlt.le]
  · rfl

end ListSnapshotStore

/-- A request that continues a listing from a snapshot that is there is answered with a page. -/
lemma AsksNext.answered {b : ListSnapshotBinding}
    (hasks : AsksNext S b cur now e) (hinv : s.Inv) (hdcd : decodeListCursor cur =
      .ok ⟨id, offset, listCursorTag S.platform r.secret id offset⟩)
    (hr : s.snapshots.lookup id = some r) (hlive : now < r.expiresAt) (hbnd : r.binding = b)
    (hpos : 0 < offset) (hoff : offset < r.paths.length) (hsize : r.paths.length ≤ usizeMax) :
    (respond S s e).map snd = some (.page {
      paths := r.paths
      start := offset
      stop := min (offset + b.limit) r.paths.length
      nextCursor := if offset + b.limit < r.paths.length then
        some (encodeListCursor S.platform id r.secret (offset + b.limit)) else none }) := by
  obtain ⟨s₁, hs₁⟩ := exists_purgeExpired hinv (Nat.lt_succ_self _) now
  have hcut := cut_eq (P := S.platform)
    (ListSnapshotStore.lookup_purgeExpired hinv hr hlive hs₁) hbnd hpos hoff hsize
  have hpage : s.page S.platform s.rounds
      ⟨id, offset, listCursorTag S.platform r.secret id offset⟩ b.request now = some (s₁, .ok _) :=
    map_eq_some_iff.mpr ⟨s₁, hs₁, by rw [hcut]⟩
  cases hasks with
  | handler q p hqry hcur hbef hreq hnow =>
    change (handleListApi S q s).map snd = _
    unfold handleListApi
    rw [parseListQuery_cursor hqry hcur hdcd]
    dsimp only
    rw [if_neg (fun h => by cases h.1), hbef]
    dsimp only [inspectBefore]
    have hsame : ListParameters.request { p with
        cursor := some ⟨id, offset, listCursorTag S.platform r.secret id offset⟩ }
          (listSnapshotOwner S.platform q.account) b.directory = b.request := hreq
    rw [hsame, hnow, hpage]
    rfl
  | page c hc =>
    obtain rfl := Except.ok.inj (hdcd.symm.trans hc)
    change ((s.perform S.platform (.page _ b.request now)).map _).map snd = _
    rw [perform, hpage]
    rfl

/-! ### All pages -/

/-- Consecutive pieces of a list make up its beginning. -/
lemma flatMap_pieces {α : Type*} (l : List α) (k m : ℕ) :
    ((List.range m).flatMap fun i => (l.drop (i * k)).take k) = l.take (m * k) := by
  induction m with
  | zero => rw [range_zero, flatMap_nil, Nat.zero_mul, take_zero]
  | succ m ih =>
    rw [range_succ, flatMap_append, ih, flatMap_singleton, Nat.succ_mul, take_add]

/-- The number of pages of a listing. -/
def pageCount (paths limit : ℕ) : ℕ := max 1 ((paths + limit - 1) / limit)

lemma succ_lt_pageCount (paths i : ℕ) (hlim : 1 ≤ limit) :
    i + 1 < pageCount paths limit ↔ (i + 1) * limit < paths := by
  have hdiv : i + 1 < (paths + limit - 1) / limit ↔ (i + 1) * limit < paths := by
    rw [← Nat.succ_le_iff, Nat.le_div_iff_mul_le (by omega), Nat.succ_eq_add_one, Nat.succ_mul]
    omega
  rw [pageCount, lt_max_iff, hdiv]
  omega

lemma le_pageCount_mul {paths : ℕ} (hlim : 1 ≤ limit) : paths ≤ pageCount paths limit * limit := by
  by_contra hlt
  have hpos : 1 ≤ pageCount paths limit := le_max_left _ _
  obtain ⟨k, hk⟩ := Nat.exists_eq_add_of_le' hpos
  rw [hk] at hlt
  have hnext := (succ_lt_pageCount paths k hlim).mpr (by omega)
  omega

/-- The entries of a page that starts and ends at multiples of the limit. -/
lemma entries_eq (paths : List PathItem) (limit i : ℕ) (cur : Option (List UInt8)) :
    ListSnapshotPage.entries ⟨paths, i * limit, min (i * limit + limit) paths.length, cur⟩ =
      (paths.drop (i * limit)).take limit := by
  unfold ListSnapshotPage.entries
  dsimp only
  rw [drop_take]
  refine take_eq_take_iff.mpr ?_
  rw [length_drop]
  omega

/-- The page of a snapshot after some pages. -/
def pageAfter (P : Platform) (id secret : ByteBlock 32) (paths : List PathItem) (limit i : ℕ) :
    ListSnapshotPage where
  paths := paths
  start := i * limit
  stop := min (i * limit + limit) paths.length
  nextCursor := if i * limit + limit < paths.length then
    some (encodeListCursor P id secret (i * limit + limit)) else none

/-- Every page of a listing that does not fit on one. -/
lemma Browses.pageAfter (hbrowses : Browses S schedule b paths times) {secret : ByteBlock 32}
    (hsize : paths.items.length ≤ maxCachedListSnapshotBytesPerOwner)
    (hr : ((machine S).run schedule (times 0 + 1)).snapshots.lookup id = some r)
    (hsecret : r.secret = secret) (hbnd : r.binding = b) (hpths : r.paths = paths.items)
    (hfst : responseAt S schedule (times 0) =
      some (.page (pageAfter S.platform id secret paths.items b.limit 0))) (i : ℕ)
    (hi : i < pageCount paths.items.length b.limit) : responseAt S schedule (times i) =
      some (.page (Listing.pageAfter S.platform id secret paths.items b.limit i)) := by
  induction i with
  | zero => exact hfst
  | succ i ih =>
    have hlt := (succ_lt_pageCount _ _ hbrowses.limited).mp hi
    rw [Nat.succ_mul] at hlt
    have hpage := ih (Nat.lt_of_succ_lt hi)
    obtain ⟨now, hasks, hkept⟩ := hbrowses.follows i _ _ hpage (if_pos hlt)
    have hoff : i * b.limit + b.limit < 2 ^ 64 := hlt.trans_le (hsize.trans (by decide))
    have hdcd := decodeListCursor_encodeListCursor S.platform id secret hoff
    obtain ⟨hstr, hlive⟩ := hkept _ r hdcd hr
    subst hsecret
    have hlimd := hbrowses.limited
    have hanswer := hasks.answered (inv_machine S schedule _) hdcd hstr hlive hbnd
      (by omega) (by rw [hpths]; exact hlt)
      (by rw [hpths]; exact hsize.trans (by decide))
    rw [hpths] at hanswer
    rw [responseAt, hanswer, Listing.pageAfter, Nat.succ_mul]

/-- The state after a response. -/
lemma run_succ_of_response (h : responseAt S schedule n = some resp) :
    respond S ((machine S).run schedule n) (schedule n) =
      some ((machine S).run schedule (n + 1), resp) := by
  obtain ⟨⟨s', resp'⟩, hresp, rfl⟩ := map_eq_some_iff.mp h
  have hstep : (machine S).step ((machine S).run schedule n) (schedule n) = some s' :=
    map_eq_some_iff.mpr ⟨_, hresp, rfl⟩
  rw [Machine.run_succ_of_step hstep, hresp]

/-- The responses to a client that follows the cursors are pages, as many as it takes; every page
but the last is full and has a cursor, the last has none, and together they are the listing. -/
theorem pages_complete (S : Service) (schedule : ℕ → Event) (b : ListSnapshotBinding)
    (paths : PathVec) (times : ℕ → ℕ) (hbrowses : Browses S schedule b paths times)
    (first : ListSnapshotPage) (hfirst : responseAt S schedule (times 0) = some (.page first)) :
    ∃ pages : ℕ → ListSnapshotPage, (∀ i < max 1 ((paths.items.length + b.limit - 1) / b.limit),
        responseAt S schedule (times i) = some (.page (pages i))) ∧
      (∀ i, i + 1 < max 1 ((paths.items.length + b.limit - 1) / b.limit) →
        (pages i).entries.length = b.limit ∧ (pages i).nextCursor.isSome) ∧
      (pages (max 1 ((paths.items.length + b.limit - 1) / b.limit) - 1)).nextCursor = none ∧
      (List.range (max 1 ((paths.items.length + b.limit - 1) / b.limit))).flatMap
        (fun i => (pages i).entries) = paths.items := by
  change ∃ pages : ℕ → ListSnapshotPage,
    (∀ i < pageCount paths.items.length b.limit, _) ∧
    (∀ i, i + 1 < pageCount paths.items.length b.limit → _) ∧
    (pages (pageCount paths.items.length b.limit - 1)).nextCursor = none ∧
    (List.range (pageCount paths.items.length b.limit)).flatMap _ = _
  have hlimited := hbrowses.limited
  have hcount : 1 ≤ pageCount paths.items.length b.limit := le_max_left _ _
  cases hbrowses.first.started (run_succ_of_response hfirst) with
  | whole hfits =>
    have hone : pageCount paths.items.length b.limit = 1 := by
      by_contra hne
      have hlt := (succ_lt_pageCount paths.items.length 0 hlimited).mp (by omega)
      omega
    refine ⟨fun _ => .fromVec paths.items none, ?_, ?_, rfl, ?_⟩
    · intro i hi
      obtain rfl : i = 0 := by omega
      exact hfirst
    · intro i hi
      omega
    · rw [hone, List.range_one, List.flatMap_singleton]
      exact (List.drop_zero).trans List.take_length
  | part id secret r hmore hsize hr hsecret hbinding hpaths =>
    have hzero : (⟨paths.items, 0, b.limit, some (encodeListCursor S.platform id secret b.limit)⟩ :
        ListSnapshotPage) = pageAfter S.platform id secret paths.items b.limit 0 := by
      rw [pageAfter, Nat.zero_mul, Nat.zero_add, if_pos hmore, min_eq_left hmore.le]
    rw [hzero] at hfirst
    refine ⟨pageAfter S.platform id secret paths.items b.limit,
      hbrowses.pageAfter hsize hr hsecret hbinding hpaths hfirst, fun i hi => ?_, ?_, ?_⟩
    · have hlt := (succ_lt_pageCount _ _ hlimited).mp hi
      rw [Nat.succ_mul] at hlt
      refine ⟨?_, ?_⟩
      · rw [pageAfter, entries_eq, List.length_take, List.length_drop]
        omega
      · rw [pageAfter, if_pos hlt]
        rfl
    · refine if_neg fun hlt => ?_
      rw [← Nat.succ_mul] at hlt
      have := (succ_lt_pageCount _ _ hlimited).mpr hlt
      omega
    · have hentries : ∀ i, (pageAfter S.platform id secret paths.items b.limit i).entries =
          (paths.items.drop (i * b.limit)).take b.limit := fun i => entries_eq _ _ _ _
      simp only [hentries]
      rw [flatMap_pieces]
      exact List.take_of_length_le (le_pageCount_mul hlimited)

/-! ### A listing of three files -/

namespace Sample

def service : Service := ⟨platform, some⟩

def threePaths : PathVec := ⟨[item 97, item 98, item 99], 3, le_refl _⟩

/-- A request for pages of one entry. -/
def listRequest (cursor : Option (List UInt8)) (now : ℕ) : ListRequest where
  account := []
  query := ⟨some [47], none, none, none, some [49], cursor⟩
  admitted := true
  before := .ok (some directory)
  walk := some (.ok threePaths)
  after := .ok (some directory)
  now := now
  draws := [some (block 1, block 9)]

/-- The cursor after some entries. -/
def after (offset : ℕ) : List UInt8 := encodeListCursor platform (block 1) (block 9) offset

/-- Somebody else starts a listing after the first page. -/
def browsing : ℕ → Event
  | 0 => .list (listRequest none 0)
  | 1 => .call (.cache { binding with owner := block 5 } Sample.paths 0 [some (block 3, block 9)])
  | 2 => .list (listRequest (some (after 1)) 7)
  | 3 => .call (.page ⟨block 1, 2, listCursorTag platform (block 9) (block 1) 2⟩ request 8)
  | _ => .call (.removeOldestForOwner (block 7))

def browsingTimes : ℕ → ℕ
  | 0 => 0
  | i + 1 => i + 2

def threeRecord : ListSnapshotRecord :=
  ListSnapshotStore.newRecord platform binding threePaths 0 (block 9)

/-- The page of one entry. -/
def pageOf (i : ℕ) : ListSnapshotPage := pageAfter platform (block 1) (block 9) threePaths.items 1 i

lemma browsing_first : responseAt service browsing 0 = some (.page (pageOf 0)) := by
  decide +kernel

lemma browsing_stored :
    ((machine service).run browsing 1).snapshots.lookup (block 1) = some threeRecord := by
  decide +kernel

/-- What the client needs when it continues with the cursor of a page. -/
lemma browsing_kept {i : ℕ} {off : ℕ}
    (hoff : off < 2 ^ 64) (hdcd : decodeListCursor (after off) = .ok c)
    (hr : ((machine service).run browsing 1).snapshots.lookup c.id = some r)
    (hstr : ((machine service).run browsing i).snapshots.lookup (block 1) = some threeRecord)
    (hnow : now < listSnapshotTtl) :
    ((machine service).run browsing i).snapshots.lookup c.id = some r ∧ now < r.expiresAt := by
  rw [after, decodeListCursor_encodeListCursor platform (block 1) (block 9) hoff] at hdcd
  obtain rfl := Except.ok.inj hdcd
  obtain rfl := some.inj (browsing_stored.symm.trans hr)
  exact ⟨hstr, hnow.trans_le (Nat.le_add_left _ _)⟩

lemma browsing_browses : Browses service browsing binding threePaths browsingTimes where
  increasing := strictMono_nat_of_lt_succ fun i => by
    cases i <;> simp [browsingTimes]
  limited := le_refl _
  first := .handler (listRequest none 0) ⟨[47], ascii "name", ascii "asc", [], 1, none⟩
    (by decide +kernel) rfl rfl rfl (by decide +kernel)
  follows i page cursor hrsp hcur := by
    match i with
    | 0 =>
      obtain rfl : pageOf 0 = page :=
        ListResponse.page.inj (some.inj (browsing_first.symm.trans hrsp))
      obtain rfl : after 1 = cursor := some.inj hcur
      refine ⟨7, .handler (listRequest (some (after 1)) 7)
        ⟨[47], ascii "name", ascii "asc", [], 1, none⟩ (by decide +kernel) rfl rfl
        (by decide +kernel) rfl, fun c r hdcd hr => ?_⟩
      exact browsing_kept (by decide) hdcd hr (by decide +kernel) (by decide)
    | 1 =>
      have hsnd : responseAt service browsing 2 = some (.page (pageOf 1)) := by decide +kernel
      obtain rfl : pageOf 1 = page :=
        ListResponse.page.inj (some.inj (hsnd.symm.trans hrsp))
      obtain rfl : after 2 = cursor := some.inj hcur
      refine ⟨8, .page _ (decodeListCursor_encodeListCursor platform (block 1) (block 9)
        (by decide)), fun c r hdcd hr => ?_⟩
      exact browsing_kept (by decide) hdcd hr (by decide +kernel) (by decide)
    | 2 =>
      have hthird : responseAt service browsing 3 = some (.page (pageOf 2)) := by decide +kernel
      obtain rfl : pageOf 2 = page :=
        ListResponse.page.inj (some.inj (hthird.symm.trans hrsp))
      cases hcur
    | _ + 3 => cases hrsp

end Sample

open Sample

theorem pages_complete_browsing : ∃ pages : ℕ → ListSnapshotPage,
      (∀ i < 3, responseAt service browsing (browsingTimes i) = some (.page (pages i))) ∧
      (∀ i, i + 1 < 3 → (pages i).entries.length = 1 ∧ (pages i).nextCursor.isSome) ∧
      (pages 2).nextCursor = none ∧
      (List.range 3).flatMap (fun i => (pages i).entries) = [item 97, item 98, item 99] :=
  pages_complete service browsing binding threePaths browsingTimes browsing_browses (pageOf 0)
    browsing_first

end DufsRam.Listing
