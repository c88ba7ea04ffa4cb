import DufsRam.PathCoordinator.Scan

/-!
# A scan of the state database, page by page

`has_persisted_path_conflict` and `has_persisted_path_descendant` of `server.rs` read the blocking
paths in pages and stop at the first conflict. What they answer depends on the paths and not on the
pages, and it is never a clearance for something that could not be read or resolved.
-/

namespace DufsRam

open List

namespace StatePathScanner

/-- Why a scan is not finished: there is no slot for it, or the store does not answer. -/
inductive ScanError where
  | admission
  | store
  deriving DecidableEq

/-- The loop over the pages, where the store may fail to answer for one of them. -/
def scan (resolve : RelPath → Option ResolvedPathKey) :
    StatePathScanner → List (Except ScanError (List StateBlockingPath)) → Except ScanError Bool
  | _, [] => .ok false
  | _, .error e :: _ => .error e
  | scanner, .ok page :: rest =>
    match scanner.pageConflicts resolve page with
    | (true, _) => .ok true
    | (false, scanner) => scan resolve scanner rest

/-- The key of a blocking path, unless the path is invalid or cannot be resolved. -/
def candidateKey (resolve : RelPath → Option ResolvedPathKey) (b : StateBlockingPath) :
    Option LeaseKey :=
  (resolveStatePath b.path).bind fun p => (resolve p).map (LeaseKey.mk p)

/-- The blocking path is resolved and does not stand in the relation to the sources. -/
def Clears (resolve : RelPath → Option ResolvedPathKey) (relation : StatePathScanRelation)
    (sources : List LeaseKey) (b : StateBlockingPath) : Prop :=
  ∃ key, candidateKey resolve b = some key ∧
    relation.holds sources [(key, b.allowsExactReplacement)] = false

end StatePathScanner

/-- `has_persisted_path_conflict`. -/
def hasPersistedPathConflict (resolve : RelPath → Option ResolvedPathKey) (admitted : Bool)
    (paths : List RelPath)
    (answers : List (Except StatePathScanner.ScanError (List StateBlockingPath))) :
    Except StatePathScanner.ScanError Bool :=
  if admitted then (statePathConflictScanner paths).scan resolve answers else .error .admission

/-- `has_persisted_path_descendant`. -/
def hasPersistedPathDescendant (resolve : RelPath → Option ResolvedPathKey) (admitted : Bool)
    (path : RelPath)
    (answers : List (Except StatePathScanner.ScanError (List StateBlockingPath))) :
    Except StatePathScanner.ScanError Bool :=
  if admitted then (statePathDescendantScanner path).scan resolve answers else .error .admission

variable {answers : List (Except ScanError (List StateBlockingPath))} {b : StateBlockingPath}
  {α β : Type}

namespace StatePathScanner

variable {resolve : RelPath → Option ResolvedPathKey} {scanner : StatePathScanner}
  {page : List StateBlockingPath}

/-! ### One page -/

/-- The relation holds for a list of candidates if it holds for one of them. -/
lemma holds_eq_any (relation : StatePathScanRelation) (srcs : List LeaseKey)
    (cands : List (LeaseKey × Bool)) : relation.holds srcs cands =
      cands.any fun candidate => relation.holds srcs [candidate] := by
  cases relation with
  | symmetricConflict =>
    simp only [StatePathScanRelation.holds, any_cons, any_nil, Bool.or_false]
    rw [Bool.eq_iff_iff]
    simp only [any_eq_true]
    constructor
    · rintro ⟨source, hsrc, candidate, hcand, h⟩
      exact ⟨candidate, hcand, source, hsrc, h⟩
    · rintro ⟨candidate, hcand, source, hsrc, h⟩
      exact ⟨source, hsrc, candidate, hcand, h⟩
  | strictDescendant =>
    cases srcs with
    | nil | cons => simp [StatePathScanRelation.holds]

/-- Two passes over a list that stop at a failure are one. -/
lemma mapM_bind_mapM {γ : Type} (f : α → Option β) (g : β → Option γ) (l : List α) :
    ((l.mapM f).bind fun l' => l'.mapM g) = l.mapM fun a => (f a).bind g := by
  induction l with
  | nil => rfl
  | cons a l ih =>
    simp only [mapM_cons, Option.bind_eq_bind, Option.pure_def, ← ih]
    cases f a with
    | none => rfl
    | some b =>
      cases l.mapM f with
      | none => cases hg : g b <;> simp [hg]
      | some l' => simp

/-- In a pass over a list that does not fail, every element has its result. -/
lemma mem_of_mapM {f : α → Option β} {l : List α} {l' : List β}
    (h : l.mapM f = some l') {a : α} (ha : a ∈ l) : ∃ b ∈ l', f a = some b := by
  induction l generalizing l' with
  | nil => cases ha
  | cons c l ih =>
    rw [mapM_cons] at h
    obtain ⟨b, hb, hrest⟩ := Option.bind_eq_some_iff.1 h
    obtain ⟨l'', hmap, hcons⟩ := Option.bind_eq_some_iff.1 hrest
    cases hcons
    rcases mem_cons.1 ha with rfl | ha
    · exact ⟨b, mem_cons_self, hb⟩
    · obtain ⟨b', hb', hfa⟩ := ih hmap ha
      exact ⟨b', mem_cons_of_mem b hb', hfa⟩

/-- All of a list succeeds, with what holds of each of its results. -/
lemma exists_mapM_iff {f : α → Option β} {p : α → β → Bool} {l : List α} :
    (∃ l', l.mapM f = some l' ∧ (l'.zip l).any (fun x => p x.2 x.1) = false) ↔
      ∀ a ∈ l, ∃ b, f a = some b ∧ p a b = false := by
  induction l with
  | nil => simp
  | cons a l ih =>
    rw [forall_mem_cons, ← ih]
    constructor
    · rintro ⟨l', hl', hany⟩
      rw [mapM_cons] at hl'
      obtain ⟨b, hb, hrest⟩ := Option.bind_eq_some_iff.1 hl'
      obtain ⟨l'', hmap, hcons⟩ := Option.bind_eq_some_iff.1 hrest
      cases hcons
      rw [zip_cons_cons, any_cons, Bool.or_eq_false_iff] at hany
      exact ⟨⟨b, hb, hany.1⟩, l'', hmap, hany.2⟩
    · rintro ⟨⟨b, hb, hp⟩, l', hl', hany⟩
      refine ⟨b :: l', ?_, ?_⟩
      · rw [mapM_cons, hb, hl']
        rfl
      · rw [zip_cons_cons, any_cons, hp, hany]
        rfl

/-- The keys that the scanner has cached are those that would be resolved again. -/
def Cached (resolve : RelPath → Option ResolvedPathKey) (scanner : StatePathScanner) : Prop :=
  ∀ keys ∈ scanner.resolvedSources, resolveKeys resolve scanner.sources = some keys

lemma Cached.or_eq (h : scanner.Cached resolve) :
    scanner.resolvedSources.or (resolveKeys resolve scanner.sources) =
      resolveKeys resolve scanner.sources := by
  cases hcch : scanner.resolvedSources with
  | none => rfl
  | some keys => exact (h keys hcch).symm

/-- There is nothing to compare, or the sources are resolved and every path is clear of them. -/
def AllClear (resolve : RelPath → Option ResolvedPathKey) (scanner : StatePathScanner)
    (paths : List StateBlockingPath) : Prop :=
  paths ≠ [] → ∃ sources, resolveKeys resolve scanner.sources = some sources ∧
    ∀ b ∈ paths, Clears resolve scanner.relation sources b

lemma allClear_append {l l' : List StateBlockingPath} : scanner.AllClear resolve (l ++ l') ↔
      scanner.AllClear resolve l ∧ scanner.AllClear resolve l' := by
  constructor
  · intro h
    constructor
    · intro hl
      obtain ⟨sources, hsrcs, hclr⟩ := h (by simp [hl])
      exact ⟨sources, hsrcs, fun b hb => hclr b (mem_append_left _ hb)⟩
    · intro hl'
      obtain ⟨sources, hsrcs, hclr⟩ := h (by simp [hl'])
      exact ⟨sources, hsrcs, fun b hb => hclr b (mem_append_right _ hb)⟩
  · rintro ⟨h, h'⟩ hne
    by_cases hl : l = []
    · subst hl
      exact h' hne
    · obtain ⟨sources, hsrcs, hclr⟩ := h hl
      refine ⟨sources, hsrcs, fun b hb => ?_⟩
      rcases mem_append.1 hb with hb | hb
      · exact hclr b hb
      · obtain ⟨sources', hsrcs', hclr'⟩ := h' (ne_nil_of_mem hb)
        cases hsrcs.symm.trans hsrcs'
        exact hclr' b hb

/-- What a page says is what holds of its paths. -/
lemma pageConflicts_eq_false_iff (hcch : scanner.Cached resolve) :
    (scanner.pageConflicts resolve page).1 = false ↔ scanner.AllClear resolve page := by
  by_cases hpage : page = []
  · simp [pageConflicts, AllClear, hpage]
  rw [AllClear, forall_prop_of_true hpage]
  have hkeys : ((page.mapM fun b => resolveStatePath b.path).bind (resolveKeys resolve)) =
      page.mapM (candidateKey resolve) := mapM_bind_mapM _ _ _
  have hclr : ∀ srcs, (∀ b ∈ page, Clears resolve scanner.relation srcs b) ↔
      ∃ cands, page.mapM (candidateKey resolve) = some cands ∧
        (cands.zip page).any (fun x =>
          scanner.relation.holds srcs [(x.1, x.2.allowsExactReplacement)]) = false :=
    fun srcs => exists_mapM_iff.symm
  have hholds : ∀ (srcs : List LeaseKey) (cands : List LeaseKey), scanner.relation.holds srcs
      (cands.zip (page.map StateBlockingPath.allowsExactReplacement)) =
      (cands.zip page).any fun x =>
        scanner.relation.holds srcs [(x.1, x.2.allowsExactReplacement)] := by
    intro srcs cands
    rw [holds_eq_any, zip_map_right, any_map]
    rfl
  simp only [hclr, ← hkeys, pageConflicts, if_neg hpage, hcch.or_eq]
  cases page.mapM fun b => resolveStatePath b.path with
  | none => simp
  | some lexical =>
    cases resolveKeys resolve scanner.sources with
    | none => simp
    | some srcs =>
      cases hcand : resolveKeys resolve lexical with
      | none => simp [hcand]
      | some cands => simp [hcand, hholds]

/-- The scanner keeps its sources and caches their keys. -/
lemma cached_pageConflicts (hcch : scanner.Cached resolve) :
    (scanner.pageConflicts resolve page).2.Cached resolve := by
  unfold pageConflicts
  split_ifs
  · exact hcch
  · split
    · exact hcch
    · split
      · next sources candidates hsrcs hcand =>
        rw [hcch.or_eq] at hsrcs
        rintro keys ⟨⟩
        exact hsrcs
      · exact hcch

/-! ### All pages -/

/-- The scan has found nothing: every page was read, and all paths are clear of the sources. -/
theorem scan_eq_ok_false_iff (hcch : scanner.Cached resolve) :
    scanner.scan resolve answers = .ok false ↔
      ∃ pages : List (List StateBlockingPath), answers = pages.map .ok ∧
        scanner.AllClear resolve pages.flatten := by
  induction answers generalizing scanner with
  | nil => exact ⟨fun _ => ⟨[], rfl, fun hne => absurd rfl hne⟩, fun _ => rfl⟩
  | cons answer rest ih =>
    cases answer with
    | error e =>
      refine ⟨nofun, ?_⟩
      rintro ⟨pages, hpages, -⟩
      cases pages <;> cases hpages
    | ok page =>
      have hpage : (scanner.pageConflicts resolve page).1 = false ↔ scanner.AllClear resolve page :=
        pageConflicts_eq_false_iff hcch
      have hnext : (scanner.pageConflicts resolve page).2.Cached resolve :=
        cached_pageConflicts hcch
      obtain ⟨hsrcs, hrel⟩ : (scanner.pageConflicts resolve page).2.sources =
          scanner.sources ∧ (scanner.pageConflicts resolve page).2.relation = scanner.relation :=
        pageConflicts_sources
      unfold scan
      cases hcon : scanner.pageConflicts resolve page with
      | mk conflict next =>
        rw [hcon] at hpage hnext hsrcs hrel
        have hsame : ∀ l, next.AllClear resolve l ↔ scanner.AllClear resolve l := by
          intro l
          rw [AllClear, AllClear, hsrcs, hrel]
        cases conflict with
        | true =>
          refine ⟨nofun, ?_⟩
          rintro ⟨pages, hpages, hclr⟩
          cases pages with
          | nil => cases hpages
          | cons first others =>
            cases hpages
            rw [flatten_cons, allClear_append] at hclr
            cases hpage.2 hclr.1
        | false =>
          refine (ih hnext).trans ⟨?_, ?_⟩
          · rintro ⟨pages, rfl, hclr⟩
            refine ⟨page :: pages, rfl, ?_⟩
            rw [flatten_cons, allClear_append]
            exact ⟨hpage.1 rfl, (hsame _).1 hclr⟩
          · rintro ⟨pages, hpages, hclr⟩
            cases pages with
            | nil => cases hpages
            | cons first others =>
              cases hpages
              rw [flatten_cons, allClear_append] at hclr
              exact ⟨others, rfl, (hsame _).2 hclr.2⟩

/-- A scan whose pages are all read comes to an answer. -/
lemma exists_scan_ok (scanner : StatePathScanner) (pages : List (List StateBlockingPath)) :
    ∃ conflict, scanner.scan resolve (pages.map .ok) = .ok conflict := by
  induction pages generalizing scanner with
  | nil => exact ⟨false, rfl⟩
  | cons page rest ih =>
    rw [map_cons, scan]
    split
    · exact ⟨true, rfl⟩
    · exact ih _

/-- The answer is that of one page with all paths. -/
theorem scan_eq_pageConflicts (hcch : scanner.Cached resolve)
    (pages : List (List StateBlockingPath)) : scanner.scan resolve (pages.map .ok) =
      .ok (scanner.pageConflicts resolve pages.flatten).1 := by
  have hscan : scanner.scan resolve (pages.map .ok) = .ok false ↔
      (scanner.pageConflicts resolve pages.flatten).1 = false := by
    rw [scan_eq_ok_false_iff hcch, pageConflicts_eq_false_iff hcch]
    constructor
    · rintro ⟨pages', hpages, hclr⟩
      rwa [map_injective_iff.2 (fun _ _ h => Except.ok.inj h) hpages]
    · exact fun hclr => ⟨pages, rfl, hclr⟩
  obtain ⟨conflict, hcon⟩ :
      ∃ conflict, scanner.scan resolve (pages.map .ok) = .ok conflict := exists_scan_ok _ _
  rw [hcon] at hscan ⊢
  cases conflict with
  | false => rw [hscan.1 rfl]
  | true =>
    cases hpage : (scanner.pageConflicts resolve pages.flatten).1 with
    | true => rfl
    | false => cases hscan.2 hpage

/-- A scan whose pages are all read reports what is not clear. -/
lemma scan_eq_ok_true (hcch : scanner.Cached resolve) {pages : List (List StateBlockingPath)}
    (h : ¬ scanner.AllClear resolve pages.flatten) :
    scanner.scan resolve (pages.map .ok) = .ok true := by
  rw [scan_eq_pageConflicts hcch]
  cases hpage : (scanner.pageConflicts resolve pages.flatten).1 with
  | true => rfl
  | false => exact absurd ((pageConflicts_eq_false_iff hcch).1 hpage) h

/-! ### What a clearance says -/

lemma mem_of_resolveKeys {paths : List RelPath} {keys : List LeaseKey}
    (h : resolveKeys resolve paths = some keys) {p : RelPath} (hp : p ∈ paths) :
    ∃ resolved, resolve p = some resolved ∧ ⟨p, resolved⟩ ∈ keys := by
  obtain ⟨key, hmem, hkey⟩ := mem_of_mapM h hp
  obtain ⟨resolved, hrsl, rfl⟩ := Option.map_eq_some_iff.1 hkey
  exact ⟨resolved, hrsl, hmem⟩

lemma Clears.isSome {relation : StatePathScanRelation} {srcs : List LeaseKey}
    (h : Clears resolve relation srcs b) :
    (resolveStatePath b.path).isSome = true ∧ (resolve b.path).isSome = true := by
  obtain ⟨key, hkey, -⟩ := h
  obtain ⟨p, hp, hrsl⟩ := Option.bind_eq_some_iff.1 hkey
  obtain ⟨resolved, hrsl, -⟩ := Option.map_eq_some_iff.1 hrsl
  have heq : p = b.path := by
    unfold resolveStatePath at hp
    split_ifs at hp
    exact (Option.some.inj hp).symm
  subst heq
  rw [hp, hrsl]
  exact ⟨rfl, rfl⟩

/-- Nothing that stands in the relation of a descendant is clear of a conflict. -/
lemma Clears.strictDescendant {src : LeaseKey} (h : Clears resolve .symmetricConflict [src] b) :
    Clears resolve .strictDescendant [src] b := by
  obtain ⟨key, hkey, hholds⟩ := h
  refine ⟨key, hkey, ?_⟩
  simp only [StatePathScanRelation.holds, any_cons, any_nil, Bool.or_false,
    decide_eq_false_iff_not] at hholds
  have hsame : ¬ pathsIdentifySameEntry src key := by
    rintro (hlex | ⟨hpar, htail⟩)
    · exact hholds (.inl (.inl (hlex ▸ List.prefix_rfl)))
    · refine hholds (.inr (.inl (anchoredTailIsPrefix_iff.2 ⟨hpar, ?_⟩)))
      rw [htail]
  have hbel : ¬ pathStrictlyContains src key := by
    rintro (⟨-, hpre⟩ | ⟨-, htail⟩ | htgt)
    · exact hholds (.inl (.inr hpre))
    · exact hholds (.inr (.inl htail))
    · exact hholds (.inr (.inr (.inr (.inl htgt))))
  simp [StatePathScanRelation.holds, hsame, hbel]

/-- Whoever is told that there is no conflict has had everything read and resolved. -/
lemma resolved_of_scan
    (hcch : scanner.Cached resolve) (h : scanner.scan resolve answers = .ok false) :
    ∃ pages : List (List StateBlockingPath), answers = pages.map .ok ∧
      (pages.flatten ≠ [] → (∀ p ∈ scanner.sources, (resolve p).isSome = true) ∧
        ∀ b ∈ pages.flatten, (resolveStatePath b.path).isSome = true ∧
          (resolve b.path).isSome = true) := by
  obtain ⟨pages, hpages, hclr⟩ := (scan_eq_ok_false_iff hcch).1 h
  refine ⟨pages, hpages, fun hne => ?_⟩
  obtain ⟨sources, hsrcs, hclr⟩ := hclr hne
  refine ⟨fun p hp => ?_, fun b hb => (hclr b hb).isSome⟩
  obtain ⟨resolved, hrsl, -⟩ := mem_of_resolveKeys hsrcs hp
  rw [hrsl]
  rfl

/-- Paths that are clear of conflicts with a path are clear of its descendants. -/
lemma AllClear.strictDescendant {path : RelPath} {paths : List StateBlockingPath}
    (h : (statePathConflictScanner [path]).AllClear resolve paths) :
    (statePathDescendantScanner path).AllClear resolve paths := by
  intro hne
  obtain ⟨sources, hsrcs, hclr⟩ := h hne
  refine ⟨sources, hsrcs, ?_⟩
  obtain ⟨src, rfl⟩ : ∃ src, sources = [src] := by
    have hlex := congrArg List.length (resolveKeys_lexical hsrcs)
    rw [length_map] at hlex
    exact length_eq_one_iff.1 hlex
  exact fun b hb => (hclr b hb).strictDescendant

lemma cached_conflictScanner (paths : List RelPath) :
    (statePathConflictScanner paths).Cached resolve := nofun

lemma cached_descendantScanner (path : RelPath) :
    (statePathDescendantScanner path).Cached resolve := nofun

end StatePathScanner

open StatePathScanner

/-- A scan answers as if all paths were on one page; it clears nothing that was not read and
resolved; and a conflict with a descendant is a conflict. -/
theorem persisted_scan_sound (resolve : RelPath → Option ResolvedPathKey) :
    (∀ (paths : List RelPath) (pages : List (List StateBlockingPath)),
      hasPersistedPathConflict resolve true paths (pages.map .ok) =
        .ok ((statePathConflictScanner paths).pageConflicts resolve pages.flatten).1) ∧
    (∀ (path : RelPath) (pages : List (List StateBlockingPath)),
      hasPersistedPathDescendant resolve true path (pages.map .ok) =
        .ok ((statePathDescendantScanner path).pageConflicts resolve pages.flatten).1) ∧
    (∀ (admitted : Bool) (paths : List RelPath)
      (answers : List (Except ScanError (List StateBlockingPath))),
      hasPersistedPathConflict resolve admitted paths answers = .ok false →
      admitted = true ∧ ∃ pages : List (List StateBlockingPath), answers = pages.map .ok ∧
        (pages.flatten ≠ [] → (∀ p ∈ paths, (resolve p).isSome = true) ∧
          ∀ b ∈ pages.flatten, (resolveStatePath b.path).isSome = true ∧
            (resolve b.path).isSome = true)) ∧ (∀ (admitted : Bool) (path : RelPath)
      (answers : List (Except ScanError (List StateBlockingPath))),
      hasPersistedPathDescendant resolve admitted path answers = .ok false →
      admitted = true ∧ ∃ pages : List (List StateBlockingPath), answers = pages.map .ok ∧
        (pages.flatten ≠ [] → (resolve path).isSome = true ∧
          ∀ b ∈ pages.flatten, (resolveStatePath b.path).isSome = true ∧
            (resolve b.path).isSome = true)) ∧
    ∀ (path : RelPath) (pages : List (List StateBlockingPath)),
      hasPersistedPathDescendant resolve true path (pages.map .ok) = .ok true →
      hasPersistedPathConflict resolve true [path] (pages.map .ok) = .ok true := by
  refine ⟨fun paths => scan_eq_pageConflicts (cached_conflictScanner paths),
    fun path => scan_eq_pageConflicts (cached_descendantScanner path), ?_, ?_, ?_⟩
  · intro admitted paths answers h
    cases admitted with
    | false => cases h
    | true => exact ⟨rfl, resolved_of_scan (cached_conflictScanner paths) h⟩
  · intro admitted path answers h
    cases admitted with
    | false => cases h
    | true =>
      obtain ⟨pages, hpages, hresolved⟩ := resolved_of_scan (cached_descendantScanner path) h
      refine ⟨rfl, pages, hpages, fun hne => ?_⟩
      exact ⟨(hresolved hne).1 path (mem_singleton_self path), (hresolved hne).2⟩
  · intro path pages h
    refine scan_eq_ok_true (cached_conflictScanner [path]) fun hclear => ?_
    have hdescendant := (scan_eq_ok_false_iff (cached_descendantScanner path)).2
      ⟨pages, rfl, hclear.strictDescendant⟩
    cases h.symm.trans hdescendant

/-- In a root without links, the upload to `a/c` is no obstacle to a change of `b`, but to one of
`a`. -/
theorem persisted_scan_sound_siblings :
    (∃ pages : List (List StateBlockingPath), [[⟨["a", "c"], true⟩], []].map
        (Except.ok : _ → Except ScanError _) = pages.map Except.ok ∧
      (pages.flatten ≠ [] → ∀ p ∈ [["b"]],
        ((fun p => some ⟨⟨1, 2⟩, p, [⟨1, 2⟩], none⟩ : RelPath → Option ResolvedPathKey)
          p).isSome = true)) ∧
    hasPersistedPathConflict (fun p => some ⟨⟨1, 2⟩, p, [⟨1, 2⟩], none⟩) true [["a"]]
      [.ok [⟨["a", "c"], true⟩]] = .ok true := by
  have hsound := persisted_scan_sound fun p => some ⟨⟨1, 2⟩, p, [⟨1, 2⟩], none⟩
  obtain ⟨-, pages, hpages, hresolved⟩ := hsound.2.2.1 true [["b"]]
    [.ok [⟨["a", "c"], true⟩], .ok []] (by decide)
  exact ⟨⟨pages, hpages, fun hne => (hresolved hne).1⟩,
    hsound.2.2.2.2 ["a"] [[⟨["a", "c"], true⟩]] (by decide)⟩

end DufsRam
