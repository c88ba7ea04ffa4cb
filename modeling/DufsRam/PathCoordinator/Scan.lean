import DufsRam.PathCoordinator.Key

/-!
# Comparing paths with the state database

A request that is about to change the tree compares its paths with those on which uploads and purge
jobs rely, one page of them after the other. A page that cannot be resolved counts as a conflict.
-/

namespace DufsRam

open List StateBlockingPath

/-! ### Containment of keys -/

def resolvedPathStrictlyContains (ancestor descendant : ResolvedPathKey) : Prop :=
  (ancestor.unresolvedTail.length < descendant.unresolvedTail.length ∧
    anchoredTailIsPrefix ancestor descendant) ∨ targetContains ancestor descendant

instance (ancestor descendant : ResolvedPathKey) :
    Decidable (resolvedPathStrictlyContains ancestor descendant) :=
  inferInstanceAs (Decidable (_ ∨ _))

/-- The path lies below the other one. -/
def strictlyBelow (ancestor descendant : RelPath) : Prop :=
  ancestor ≠ descendant ∧ ancestor <+: descendant

instance (ancestor descendant : RelPath) : Decidable (strictlyBelow ancestor descendant) :=
  inferInstanceAs (Decidable (_ ∧ _))

def pathStrictlyContains (ancestor descendant : LeaseKey) : Prop :=
  strictlyBelow ancestor.lexical descendant.lexical ∨
    resolvedPathStrictlyContains ancestor.resolved descendant.resolved

instance (ancestor descendant : LeaseKey) : Decidable (pathStrictlyContains ancestor descendant) :=
  inferInstanceAs (Decidable (_ ∨ _))

def pathsIdentifySameEntry (left right : LeaseKey) : Prop :=
  left.lexical = right.lexical ∨
    (left.resolved.resolvedParent = right.resolved.resolvedParent ∧
      left.resolved.unresolvedTail = right.resolved.unresolvedTail)

instance (left right : LeaseKey) : Decidable (pathsIdentifySameEntry left right) :=
  inferInstanceAs (Decidable (_ ∨ _))

/-! ### The scanner -/

inductive StatePathScanRelation where
  | symmetricConflict
  | strictDescendant
  deriving DecidableEq

structure StatePathScanner where
  sources : List RelPath
  resolvedSources : Option (List LeaseKey)
  relation : StatePathScanRelation
  deriving DecidableEq

def statePathConflictScanner (sources : List RelPath) : StatePathScanner :=
  ⟨sources, none, .symmetricConflict⟩

def statePathDescendantScanner (ancestor : RelPath) : StatePathScanner :=
  ⟨[ancestor], none, .strictDescendant⟩

/-- `resolve_state_path` followed by `normalize_key`. -/
def resolveStatePath (p : RelPath) : Option RelPath :=
  if p.byteLength = 0 ∨ ∃ c ∈ p, '\x00' ∈ c.toList then none else some p

/-- The keys of a list of paths, unless one of them cannot be resolved. -/
def resolveKeys (resolve : RelPath → Option ResolvedPathKey) (paths : List RelPath) :
    Option (List LeaseKey) :=
  paths.mapM fun p => (resolve p).map (LeaseKey.mk p)

/-- Whether one of the candidates stands in the relation to the sources. -/
def StatePathScanRelation.holds (sources : List LeaseKey) (candidates : List (LeaseKey × Bool)) :
    StatePathScanRelation → Bool
  | .symmetricConflict => sources.any fun source =>
    candidates.any fun candidate => pathKeysConflict source candidate.1
  | .strictDescendant => sources.head?.any fun ancestor =>
    candidates.any fun candidate =>
      if pathsIdentifySameEntry ancestor candidate.1 then !candidate.2
      else pathStrictlyContains ancestor candidate.1

/-- `page_conflicts`, with the scanner that has cached its sources. An empty page resolves
nothing. -/
def StatePathScanner.pageConflicts (resolve : RelPath → Option ResolvedPathKey)
    (scanner : StatePathScanner) (page : List StateBlockingPath) : Bool × StatePathScanner :=
  if page = [] then (false, scanner)
  else
    match page.mapM fun b => resolveStatePath b.path with
    | none => (true, scanner)
    | some lexical =>
      match scanner.resolvedSources.or (resolveKeys resolve scanner.sources),
          resolveKeys resolve lexical with
      | some sources, some candidates =>
        (scanner.relation.holds sources
          (candidates.zip (page.map StateBlockingPath.allowsExactReplacement)),
          { scanner with resolvedSources := some sources })
      | _, _ => (true, scanner)

/-! ### What a page without conflicts says -/

/-- A list that is mapped as long as nothing fails keeps what the function keeps. -/
lemma map_of_mapM {α β γ : Type} {f : α → Option β} {g : β → γ} {h : α → γ}
    (hf : ∀ a b, f a = some b → g b = h a) {l : List α} {l' : List β}
    (hl : l.mapM f = some l') : l'.map g = l.map h := by
  induction l generalizing l' with
  | nil =>
    cases hl
    rfl
  | cons a l ih =>
    rw [mapM_cons] at hl
    obtain ⟨b, hb, hrest⟩ := Option.bind_eq_some_iff.1 hl
    obtain ⟨l'', hmap, hcons⟩ := Option.bind_eq_some_iff.1 hrest
    cases hcons
    rw [map_cons, map_cons, hf a b hb, ih hmap]

lemma resolveKeys_lexical {resolve : RelPath → Option ResolvedPathKey} {paths : List RelPath}
    {keys : List LeaseKey} (h : resolveKeys resolve paths = some keys) :
    keys.map LeaseKey.lexical = paths := by
  have hmap : keys.map LeaseKey.lexical = paths.map id := by
    refine map_of_mapM (fun p key hkey => ?_) h
    obtain ⟨resolved, -, rfl⟩ := Option.map_eq_some_iff.1 hkey
    rfl
  rw [hmap, map_id]

lemma mapM_resolveStatePath {page : List StateBlockingPath} {lexical : List RelPath}
    (h : (page.mapM fun b => resolveStatePath b.path) = some lexical) :
    lexical = page.map path := by
  have hmap : lexical.map id = page.map path := by
    refine map_of_mapM (fun b p hp => ?_) h
    unfold resolveStatePath at hp
    split_ifs at hp
    exact (Option.some.inj hp).symm
  rw [← hmap, map_id]

variable {p : RelPath} {b : StateBlockingPath}

namespace StatePathScanner

/-- The cached keys are those of the sources. -/
def Wf (scanner : StatePathScanner) : Prop :=
  ∀ keys ∈ scanner.resolvedSources, keys.map LeaseKey.lexical = scanner.sources

variable {resolve : RelPath → Option ResolvedPathKey} {scanner : StatePathScanner}
  {page : List StateBlockingPath}

lemma pageConflicts_sources : (scanner.pageConflicts resolve page).2.sources = scanner.sources ∧
      (scanner.pageConflicts resolve page).2.relation = scanner.relation := by
  unfold pageConflicts
  split_ifs
  · exact ⟨rfl, rfl⟩
  · split
    · exact ⟨rfl, rfl⟩
    · split <;> exact ⟨rfl, rfl⟩

/-- A page without conflicts is empty or resolved, and its candidates stand in no relation to the
sources. -/
lemma pageConflicts_eq_false (hwf : scanner.Wf)
    (h : (scanner.pageConflicts resolve page).1 = false) :
    (scanner.pageConflicts resolve page).2.Wf ∧
      (page = [] ∨ ∃ srcs candidates : List LeaseKey, srcs.map LeaseKey.lexical = scanner.sources ∧
        candidates.map LeaseKey.lexical = page.map path ∧
        scanner.relation.holds srcs
          (candidates.zip (page.map allowsExactReplacement)) = false) := by
  unfold pageConflicts at h ⊢
  split_ifs at h ⊢ with hpage
  · exact ⟨hwf, .inl hpage⟩
  · split at h
    · cases h
    · rename_i lexical hlex
      split at h
      · rename_i srcs candidates hsrcs hcand
        have hlexicals : srcs.map LeaseKey.lexical = scanner.sources := by
          rcases Option.or_eq_some_iff.1 hsrcs with hcch | ⟨-, hrsl⟩
          · exact hwf _ hcch
          · exact resolveKeys_lexical hrsl
        refine ⟨?_, .inr ⟨srcs, candidates, hlexicals, ?_, h⟩⟩
        · rintro keys ⟨⟩
          exact hlexicals
        · rw [resolveKeys_lexical hcand, mapM_resolveStatePath hlex]
      · cases h

/-- A candidate of a resolved page, with its key. -/
lemma exists_candidate {cands : List LeaseKey} (h : cands.map LeaseKey.lexical = page.map path)
    (hb : b ∈ page) : ∃ key, key.lexical = b.path ∧ (key, b.allowsExactReplacement) ∈
      cands.zip (page.map allowsExactReplacement) := by
  obtain ⟨i, hi, rfl⟩ := getElem_of_mem hb
  have hlen : cands.length = page.length := by simpa using congrArg List.length h
  have hkey : cands[i].lexical = page[i].path := by
    have := getElem_of_eq h (i := i) (by simpa using by omega)
    simpa using this
  refine ⟨cands[i], hkey, mem_iff_getElem.2 ⟨i, by simp; omega, by simp⟩⟩

/-- No path of the page overlaps a source. -/
theorem not_lexicalOverlap_of_page (hwf : scanner.Wf) (hrel : scanner.relation = .symmetricConflict)
    (h : (scanner.pageConflicts resolve page).1 = false) (hp : p ∈ scanner.sources)
    (hb : b ∈ page) : ¬ lexicalOverlap p b.path := by
  obtain ⟨-, rfl | ⟨sources, candidates, hsrcs, hcand, hholds⟩⟩ :=
    pageConflicts_eq_false hwf h
  · cases hb
  · intro hov
    rw [← hsrcs] at hp
    obtain ⟨source, hsrc, rfl⟩ := mem_map.1 hp
    obtain ⟨key, hkey, hmem⟩ := exists_candidate hcand hb
    rw [hrel, StatePathScanRelation.holds, any_eq_false] at hholds
    have hnone := hholds source hsrc
    rw [Bool.not_eq_true, any_eq_false] at hnone
    have hcon := hnone _ hmem
    rw [decide_eq_true_eq] at hcon
    exact hcon (.inl (hkey ▸ hov))

/-- No path of the page lies below the source, but the target of an upload may if it names the same
entry. -/
theorem not_strictlyBelow_of_page (hwf : scanner.Wf) (hrel : scanner.relation = .strictDescendant)
    (h : (scanner.pageConflicts resolve page).1 = false) (hp : scanner.sources = [p])
    (hb : b ∈ page) (hprot : b.allowsExactReplacement = false) : ¬ strictlyBelow p b.path := by
  obtain ⟨-, rfl | ⟨sources, candidates, hsrcs, hcand, hholds⟩⟩ :=
    pageConflicts_eq_false hwf h
  · cases hb
  · rintro ⟨hne, hbel⟩
    rw [hp] at hsrcs
    obtain ⟨ancestor, rest, rfl, rfl, -⟩ := map_eq_cons_iff.1 hsrcs
    obtain ⟨key, hkey, hmem⟩ := exists_candidate hcand hb
    rw [hrel, StatePathScanRelation.holds, head?_cons, Option.any_some, any_eq_false] at hholds
    have hcon := hholds _ hmem
    split_ifs at hcon with hsame
    · simp [hprot] at hcon
    · rw [decide_eq_true_eq] at hcon
      exact hcon (.inl ⟨hkey ▸ hne, hkey ▸ hbel⟩)

end StatePathScanner

end DufsRam
