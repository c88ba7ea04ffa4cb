import DufsRam.PathCoordinator.Paging
import DufsRam.RootedFs.PathKey

/-!
# What a durable path depends on

The kernel looks up every component of a path, and every component of the links on its way. A
request that changes one of those entries changes what the path means. The scanner compares the
path as it is written and the directory to which its parent leads; here is which of the entries on
the way that covers.
-/

namespace DufsRam

variable {d e : FileIdentity} {xs : List PathComponent} {T : Tree} {m : RelPath}

namespace Tree

variable (T : Tree)

/-! ### What the scanner sees -/

/-- The paths are the same or end in the same directory with the same names. -/
def SameEntry (m s : RelPath) : Prop :=
  m = s ∨ ∃ d tail, T.DeepestParent m d tail ∧ T.DeepestParent s d tail

/-- `m` is written above `s`, or both end in one directory and `m` is above `s` there, or `m` is a
directory around the one in which `s` ends. -/
def Above (m s : RelPath) : Prop :=
  m <+: s ∨ (∃ d t u, T.DeepestParent m d t ∧ T.DeepestParent s d u ∧ t <+: u) ∨
    ∃ D, T.NamesDirectory m D ∧ T.EntryWithin D s

/-- The key of a path in a tree that does not change, with no call that fails. -/
def keyOf (path : RelPath) : Option ResolvedPathKey :=
  (RootedFs.resolvedPathKeyBlocking T (fun _ => none) path).toOption

/-- A key is missing, or the change of `m` replaces the entry of a path that may not be replaced, or
`m` is above the path. -/
def Seen (m : RelPath) (b : StateBlockingPath) : Prop :=
  resolveStatePath b.path = none ∨ T.keyOf m = none ∨ T.keyOf b.path = none ∨
    (T.SameEntry m b.path ∧ b.allowsExactReplacement = false) ∨
    (¬ T.SameEntry m b.path ∧ T.Above m b.path)

variable {T}

/-! ### Directories below the root -/

/-- A directory below the root is an entry of its parent, which is below the root, too. -/
lemma Within.parent (h : T.Within T.root d) (hd : d ≠ T.root) :
    T.Within T.root (T.parent d) ∧ T.Child (T.parent d) d := by
  rcases Relation.ReflTransGen.cases_tail h with hroot | ⟨d', hd', n, hn⟩
  · exact absurd hroot hd
  · rw [T.parent_entry hn]
    exact ⟨hd', n, hn⟩

lemma within_of_walkWith {follow : Follow}
    (hfol : ∀ {d target rest e}, T.Within T.root d → follow d target rest = .ok e →
      T.Within T.root e) (hd : T.Within T.root d)
    (h : T.walkWith follow d xs = .ok e) : T.Within T.root e := by
  induction xs generalizing d with
  | nil =>
    cases h
    exact hd
  | cons c rest ih =>
    cases c with
    | curDir => exact ih hd h
    | parentDir =>
      simp only [walkWith] at h
      split_ifs at h with hroot
      exact ih (hd.parent hroot).1 h
    | normal n =>
      simp only [walkWith] at h
      cases hent : T.entry d n with
      | none => simp [hent] at h
      | some entry =>
        rw [hent] at h
        cases entry with
        | file fileType => cases h
        | directory e => exact ih (hd.tail ⟨n, hent⟩) h
        | symlink target => exact hfol hd h

/-- A walk from the root stays below it. -/
lemma within_of_walk {links : ℕ}
    (hd : T.Within T.root d) (h : T.walk links d xs = .ok e) : T.Within T.root e := by
  induction links generalizing d e xs with
  | zero => exact within_of_walkWith (fun {_ _ _ _} _ h => by cases h) hd h
  | succ links ih =>
    refine within_of_walkWith (fun {d target rest e} hd h => ?_) hd h
    split_ifs at h
    exact ih hd h

end Tree

namespace RootedFs

variable {faults : Faults} {s : RelPath} {left right : ResolvedPathKey}

/-! ### Keys are exact -/

/-- Only the directories around the given one are collected. -/
lemma within_of_ancestryLoop {fuel : ℕ} {below l : List FileIdentity} (hd : T.Within T.root d)
    (h : ancestryLoop T faults fuel d below = .ok l) : ∀ D ∈ l, D ∈ below ∨ T.Within D d := by
  induction fuel generalizing d below with
  | zero => cases h
  | succ fuel ih =>
    obtain ⟨-, h⟩ := guard_eq_ok.1 h
    split at h
    case isTrue hroot =>
      cases h
      intro D hD
      rcases List.mem_cons.1 hD with rfl | hD
      · exact .inr .refl
      · exact .inl hD
    case isFalse hroot =>
      obtain ⟨-, h⟩ := guard_eq_ok.1 h
      split_ifs at h with hself
      obtain ⟨hpar, hchild⟩ := hd.parent hroot
      intro D hD
      rcases ih hpar h D hD with hbel | hwin
      · rcases List.mem_cons.1 hbel with rfl | hbel
        · exact .inr .refl
        · exact .inl hbel
      · exact .inr (hwin.tail hchild)

/-- The directory that is recorded for an entry is the entry. -/
lemma entry_of_targetDirectory {D : FileIdentity} {name : String}
    (h : targetDirectory T faults d name = .ok (some D)) :
    T.entry d name = some (.directory D) := by
  unfold targetDirectory at h
  split at h
  · next d' hstat =>
    cases (guard_eq_ok.1 h).2
    exact Except.ok.inj (guard_eq_ok.1 hstat).2
  all_goals cases h

lemma openable_none : Faults.Openable fun _ => none := ⟨nofun, nofun⟩

/-- What a key tells of its path, where nothing fails. -/
structure Tells (T : Tree) (path : RelPath) (key : ResolvedPathKey) : Prop where
  parent : T.DeepestParent path key.resolvedParent key.unresolvedTail
  ancestors : ∀ D, D ∈ key.ancestorDirectories ↔ T.Within D key.resolvedParent
  target : ∀ D, key.targetDirectory = some D ↔ T.NamesDirectory path D

lemma tells_of_resolved {path : RelPath} {key : ResolvedPathKey}
    (h : resolvedPathKeyBlocking T (fun _ => none) path = .ok key) : Tells T path key := by
  have hdesc := describes_of_resolved openable_none h
  refine ⟨hdesc.parent, fun D => ⟨fun hD => ?_, hdesc.ancestors D⟩,
    fun D => ⟨fun hD => ?_, hdesc.target D⟩⟩
  · obtain ⟨parents, name, d, k, l, -, hdeep, hanc, -, hpar, -, rfl⟩ :=
      resolvedPathKeyBlocking_eq_ok h
    rw [(directoryAncestryFromRoot_spec hanc).1] at hpar
    obtain ⟨-, hd, -⟩ := resolveDeepestParentPrefix_spec openable_none hdeep
    have hroot : T.Within T.root d := Tree.within_of_walk .refl hd
    rcases within_of_ancestryLoop hroot hanc D hD with hnil | hwin
    · cases hnil
    · rwa [hpar]
  · obtain ⟨parents, name, d, k, l, rfl, hdeep, -, htgt, -, -, -⟩ :=
      resolvedPathKeyBlocking_eq_ok h
    obtain ⟨-, hd, -⟩ := resolveDeepestParentPrefix_spec openable_none hdeep
    split_ifs at htgt with hk
    · subst hk
      rw [List.take_length] at hd
      rw [hD] at htgt
      exact ⟨parents, name, d, rfl, hd, entry_of_targetDirectory htgt⟩
    · cases (Except.ok.inj htgt).trans hD

/-! ### What the comparison of two keys says -/

section

variable (hleft : Tells T m left) (hrt : Tells T s right)

include hleft hrt

lemma pathsIdentifySameEntry_iff :
    pathsIdentifySameEntry ⟨m, left⟩ ⟨s, right⟩ ↔ T.SameEntry m s := by
  apply or_congr Iff.rfl
  constructor
  · rintro ⟨hpar, htail⟩
    refine ⟨_, _, hleft.parent, ?_⟩
    rw [hpar, htail]
    exact hrt.parent
  · rintro ⟨d, tail, hm, hs⟩
    obtain ⟨hd, htail⟩ := hleft.parent.unique hm
    obtain ⟨hd', htail'⟩ := hrt.parent.unique hs
    exact ⟨hd.trans hd'.symm, htail.trans htail'.symm⟩

lemma targetContains_iff :
    targetContains left right ↔ ∃ D, T.NamesDirectory m D ∧ T.EntryWithin D s := by
  constructor
  · rintro ⟨D, hD, hmem⟩
    exact ⟨D, (hleft.target D).1 hD, _, _, hrt.parent, (hrt.ancestors D).1 hmem⟩
  · rintro ⟨D, hD, d, tail, hs, hwin⟩
    obtain ⟨rfl, -⟩ := hrt.parent.unique hs
    exact ⟨D, (hleft.target D).2 hD, (hrt.ancestors D).2 hwin⟩

lemma anchoredTailIsPrefix_iff_deepest : anchoredTailIsPrefix left right ↔
      ∃ d t u, T.DeepestParent m d t ∧ T.DeepestParent s d u ∧ t <+: u := by
  rw [anchoredTailIsPrefix_iff]
  constructor
  · rintro ⟨hpar, hpre⟩
    exact ⟨_, _, _, hleft.parent, hpar ▸ hrt.parent, hpre⟩
  · rintro ⟨d, t, u, hm, hs, hpre⟩
    obtain ⟨rfl, rfl⟩ := hleft.parent.unique hm
    obtain ⟨hd, rfl⟩ := hrt.parent.unique hs
    exact ⟨hd.symm, hpre⟩

/-- Of two different entries, the strict comparison says which is above the other. -/
lemma pathStrictlyContains_iff (hsame : ¬ T.SameEntry m s) :
    pathStrictlyContains ⟨m, left⟩ ⟨s, right⟩ ↔ T.Above m s := by
  rw [← pathsIdentifySameEntry_iff hleft hrt, pathsIdentifySameEntry, not_or, not_and] at hsame
  obtain ⟨hlex, htail⟩ := hsame
  apply or_congr
  · exact and_iff_right hlex
  · apply or_congr
    · rw [← anchoredTailIsPrefix_iff_deepest hleft hrt]
      refine and_iff_right_of_imp fun hanch => ?_
      obtain ⟨hpar, hpre⟩ := anchoredTailIsPrefix_iff.1 hanch
      refine lt_of_le_of_ne hpre.length_le fun hlen => ?_
      exact htail hpar (hpre.eq_of_length hlen)
    · exact targetContains_iff hleft hrt

end

/-- The key of a path tells what the path is. -/
lemma tells_of_keyOf (h : T.keyOf m = some left) : Tells T m left := by
  unfold Tree.keyOf at h
  cases hkey : resolvedPathKeyBlocking T (fun _ => none) m with
  | error e => simp [hkey, Except.toOption] at h
  | ok key =>
    rw [hkey] at h
    cases h
    exact tells_of_resolved hkey

end RootedFs

open RootedFs StatePathScanRelation

namespace StatePathScanner

variable {b : StateBlockingPath} {paths : List StateBlockingPath}

/-! ### What the scanner reports -/

/-- A path is clear of the descendants of `m` if it is not seen from there. -/
lemma clears_strictDescendant_iff {left : ResolvedPathKey} (hleft : T.keyOf m = some left) :
    Clears T.keyOf .strictDescendant [⟨m, left⟩] b ↔ ¬ T.Seen m b := by
  by_cases hst : resolveStatePath b.path = none
  · have hseen : T.Seen m b := .inl hst
    simp [Clears, candidateKey, hst, hseen]
  have hlex : resolveStatePath b.path = some b.path := by
    unfold resolveStatePath at hst ⊢
    split_ifs at hst ⊢
    · exact absurd rfl hst
    · rfl
  cases hrt : T.keyOf b.path with
  | none =>
    have hseen : T.Seen m b := .inr (.inr (.inl hrt))
    simp [Clears, candidateKey, hlex, hrt, hseen]
  | some right =>
    have hsame := pathsIdentifySameEntry_iff (tells_of_keyOf hleft) (tells_of_keyOf hrt)
    have habove := pathStrictlyContains_iff (tells_of_keyOf hleft) (tells_of_keyOf hrt)
    have hclears : Clears T.keyOf .strictDescendant [⟨m, left⟩] b ↔
        holds [⟨m, left⟩] [(⟨b.path, right⟩, b.allowsExactReplacement)]
          .strictDescendant = false := by
      simp [Clears, candidateKey, hlex, hrt]
    simp only [hclears, Tree.Seen, hst, hleft, hrt, reduceCtorEq, false_or,
      holds, List.head?_cons, Option.any_some, List.any_cons, List.any_nil,
      Bool.or_false]
    by_cases hent : T.SameEntry m b.path
    · simp [hsame.2 hent, hent]
    · simp [mt hsame.1 hent, hent, habove hent]

/-- No path is reported to be a descendant of `m` if none is seen from there. -/
lemma allClear_descendant_iff :
    (statePathDescendantScanner m).AllClear T.keyOf paths ↔ ∀ b ∈ paths, ¬ T.Seen m b := by
  cases hleft : T.keyOf m with
  | none =>
    have hsrcs : resolveKeys T.keyOf [m] = none := by simp [resolveKeys, hleft]
    have hseen : ∀ b, T.Seen m b := fun b => .inr (.inl hleft)
    constructor
    · intro h b hb
      obtain ⟨sources, hsome, -⟩ := h (List.ne_nil_of_mem hb)
      cases hsrcs.symm.trans hsome
    · intro h hne
      obtain ⟨b, hb⟩ := List.exists_mem_of_ne_nil _ hne
      exact absurd (hseen b) (h b hb)
  | some left =>
    have hsrcs : resolveKeys T.keyOf [m] = some [⟨m, left⟩] := by simp [resolveKeys, hleft]
    constructor
    · intro h b hb
      obtain ⟨sources, hsome, hclr⟩ := h (List.ne_nil_of_mem hb)
      cases hsrcs.symm.trans hsome
      exact (clears_strictDescendant_iff hleft).1 (hclr b hb)
    · exact fun h _ => ⟨_, hsrcs, fun b hb => (clears_strictDescendant_iff hleft).2 (h b hb)⟩

/-- What is clear of several sources is clear of each of them. -/
lemma AllClear.of_mem {resolve : RelPath → Option ResolvedPathKey} {srcs : List RelPath}
    (hm : m ∈ srcs) (h : (statePathConflictScanner srcs).AllClear resolve paths) :
    (statePathConflictScanner [m]).AllClear resolve paths := by
  intro hne
  obtain ⟨keys, hkeys, hclr⟩ := h hne
  obtain ⟨resolved, hrsl, hsrc⟩ := mem_of_resolveKeys hkeys hm
  have hsrcs : resolveKeys resolve [m] = some [⟨m, resolved⟩] := by
    simp [resolveKeys, hrsl]
  refine ⟨_, hsrcs, fun b hb => ?_⟩
  obtain ⟨key, hkey, hholds⟩ := hclr b hb
  refine ⟨key, hkey, ?_⟩
  simp only [statePathConflictScanner, holds, List.any_eq_false,
    List.any_cons, List.any_nil, Bool.or_false] at hholds ⊢
  simpa using hholds _ hsrc

end StatePathScanner

open StatePathScanner

/-- For a path and an entry on the way to it, every scan that has the entry among its sources and
the path on its pages reports a conflict just in case the path is seen from the entry. -/
theorem dependencies_reported_iff (T : Tree) (m : RelPath) (b : StateBlockingPath) :
    (T.Traverses b.path m → ∀ (sources : List RelPath) (pages : List (List StateBlockingPath)),
        m ∈ sources → b ∈ pages.flatten →
        hasPersistedPathConflict T.keyOf true sources (pages.map .ok) = .ok true ∧
          hasPersistedPathDescendant T.keyOf true m (pages.map .ok) = .ok true) ↔
    (T.Traverses b.path m → T.Seen m b) := by
  refine imp_congr_right fun _ => ⟨fun h => ?_, fun hseen sources pages hm hb => ?_⟩
  · by_contra hseen
    have hclear : (statePathDescendantScanner m).AllClear T.keyOf [[b]].flatten := by
      rw [allClear_descendant_iff]
      simpa using hseen
    have hfalse := (scan_eq_ok_false_iff (cached_descendantScanner m)).2 ⟨[[b]], rfl, hclear⟩
    have htrue := (h [m] [[b]] (List.mem_singleton_self m) (by simp)).2
    cases hfalse.symm.trans htrue
  · have hnot : ¬ (statePathDescendantScanner m).AllClear T.keyOf pages.flatten := fun hclear =>
      allClear_descendant_iff.1 hclear b hb hseen
    constructor
    · refine scan_eq_ok_true (cached_conflictScanner sources) fun hclear => hnot ?_
      exact (hclear.of_mem hm).strictDescendant
    · exact scan_eq_ok_true (cached_descendantScanner m) hnot

/-- A directory, a link to it and a link to the link. -/
def chainTree : Tree where
  root := ⟨0, 0⟩
  entry d n :=
    if d = ⟨0, 0⟩ ∧ n = "directory" then some (.directory ⟨0, 1⟩)
    else if d = ⟨0, 0⟩ ∧ n = "second" then some (.symlink ⟨false, [.normal "directory"]⟩)
    else if d = ⟨0, 0⟩ ∧ n = "first" then some (.symlink ⟨false, [.normal "second"]⟩)
    else none
  parent _ := ⟨0, 0⟩
  parent_entry {d n e} h := by
    split_ifs at h with h₁ h₂ h₃
    · exact h₁.1.symm
    all_goals cases h
  root_entry {d n} h := by
    split_ifs at h with h₁ h₂ h₃ <;> cases h

/-- The second link is on the way to a path through the first one, and neither scan reports it. -/
theorem chained_link_unseen : chainTree.Traverses ["first", "upload"] ["second"] ∧
    hasPersistedPathConflict chainTree.keyOf true [["second"]]
      [.ok [⟨["first", "upload"], false⟩]] = .ok false ∧
    hasPersistedPathDescendant chainTree.keyOf true ["second"]
      [.ok [⟨["first", "upload"], false⟩]] = .ok false := by
  refine ⟨⟨[], "second", ⟨0, 0⟩, rfl, rfl, by decide +kernel, .inr ⟨_, rfl⟩⟩, ?_, ?_⟩
  · decide +kernel
  · decide +kernel

end DufsRam
