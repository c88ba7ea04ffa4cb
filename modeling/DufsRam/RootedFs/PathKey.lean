import DufsRam.Lib.Bisect
import DufsRam.RootedFs.Tree

/-!
# Resolving a lease key

`resolved_path_key_blocking` of `rooted_fs.rs`: the deepest directory on the way to a path, its
ancestry up to the shared root, and the directory that the path itself names. The tree does not
change meanwhile, but every call may fail; a key that cannot be resolved is replaced by one that
stands for the whole tree.
-/

namespace DufsRam

open List

/-! ### Calls that may fail -/

/-- The calls of the kernel that are made for a key. -/
inductive Call where
  | openPrefix (path : RelPath)
  | dupRoot
  | statDirectory (directory : FileIdentity)
  | openParent (directory : FileIdentity)
  | statEntry (directory : FileIdentity) (name : String)
  | openEntry (directory : FileIdentity) (name : String)
  deriving DecidableEq

/-- The calls that fail, whatever the tree is. -/
abbrev Faults := Call → Option ErrorKind

/-- The result of a call, unless it fails. -/
def Faults.guard {α : Type} (faults : Faults) (call : Call) (result : Except ErrorKind α) :
    Except ErrorKind α :=
  match faults call with
  | some e => .error e
  | none => result

/-- The errors after which a path is taken as far as it can be resolved. -/
def unresolvedPathError : ErrorKind → Bool
  | .notFound | .notADirectory | .permissionDenied => true
  | _ => false

/-- No call fails as if something were missing or could not be opened that is there. -/
structure Faults.Openable (faults : Faults) : Prop where
  openPrefix : ∀ {path e}, faults (.openPrefix path) = some e → unresolvedPathError e = false
  statEntry : ∀ {d n}, faults (.statEntry d n) ≠ some .notFound

/-! ### The code -/

variable {d : FileIdentity} {path p q : RelPath} {e : ErrorKind} {l : List FileIdentity} {k : ℕ}

namespace RootedFs

variable (T : Tree) (faults : Faults)

def openResolvedPathPrefix (path : RelPath) : Except ErrorKind FileIdentity :=
  faults.guard (.openPrefix path) (T.resolve path)

/-- The parent opened by a prefix of its components, unless it cannot be resolved so far. -/
def probePrefix (components : List String) (k : ℕ) : Except ErrorKind (Option FileIdentity) :=
  match openResolvedPathPrefix T faults (components.take k) with
  | .ok d => .ok (some d)
  | .error e => if unresolvedPathError e then .ok none else .error e

def resolveDeepestParentPrefix (components : List String) : Except ErrorKind (FileIdentity × ℕ) :=
  if components = [] then faults.guard .dupRoot (.ok (T.root, 0))
  else match openResolvedPathPrefix T faults components with
    | .ok d => .ok (d, components.length)
    | .error e =>
      if unresolvedPathError e then
        faults.guard .dupRoot <|
          Bisect.search (probePrefix T faults components) 0 components.length T.root
      else .error e

def maxDirectoryAncestors : ℕ := 4096

/-- The ancestors of a directory are collected below those already found. -/
def ancestryLoop : ℕ → FileIdentity → List FileIdentity → Except ErrorKind (List FileIdentity)
  | 0, _, _ => .error .invalidData
  | fuel + 1, current, below =>
    faults.guard (.statDirectory current) <|
      if current = T.root then .ok (current :: below)
      else faults.guard (.openParent current) <|
        if T.parent current = current then .error .permissionDenied
        else ancestryLoop fuel (T.parent current) (current :: below)

def directoryAncestryFromRoot (directory : FileIdentity) : Except ErrorKind (List FileIdentity) :=
  ancestryLoop T faults maxDirectoryAncestors directory []

/-- The directory that an entry is, without following a link. -/
def targetDirectory (parent : FileIdentity) (name : String) :
    Except ErrorKind (Option FileIdentity) :=
  match faults.guard (.statEntry parent name) (.ok (T.entry parent name)) with
  | .ok (some (.directory d)) => faults.guard (.openEntry parent name) (.ok (some d))
  | .ok _ | .error .notFound => .ok none
  | .error e => .error e

def resolvedPathKeyBlocking (path : RelPath) : Except ErrorKind ResolvedPathKey :=
  match path.getLast? with
  | none => .error .invalidInput
  | some finalName => do
    let parentComponents := path.dropLast
    let (resolvedParent, resolvedComponents) ←
      resolveDeepestParentPrefix T faults parentComponents
    let ancestorDirectories ← directoryAncestryFromRoot T faults resolvedParent
    let target ←
      if resolvedComponents = parentComponents.length then
        targetDirectory T faults resolvedParent finalName
      else .ok none
    return {
      resolvedParent := ancestorDirectories.getLastD resolvedParent
      unresolvedTail := path.drop resolvedComponents
      ancestorDirectories := ancestorDirectories
      targetDirectory := target }

/-- The key under which a path is leased (`PathCoordinator::acquire`). -/
def leaseKey (path : RelPath) : LeaseKey where
  lexical := path
  resolved := match resolvedPathKeyBlocking T faults path with
    | .ok key => key
    | .error _ => conservativePathKey T.root

/-! ### The deepest parent -/

variable {T faults}

lemma guard_eq_ok {α : Type} {call : Call} {res : Except ErrorKind α} {a : α} :
    faults.guard call res = .ok a ↔ faults call = none ∧ res = .ok a := by
  unfold Faults.guard
  cases faults call <;> simp

/-- A parent that seems to be missing or closed is not there. -/
lemma resolve_of_unresolved (hf : faults.Openable)
    (h : openResolvedPathPrefix T faults path = .error e) (he : unresolvedPathError e = true) :
    T.resolve path = .error e := by
  unfold openResolvedPathPrefix Faults.guard at h
  cases hfault : faults (.openPrefix path) with
  | none => simpa [hfault] using h
  | some e' =>
    simp only [hfault, Except.error.injEq] at h
    simp [← h, hf.openPrefix hfault] at he

/-- What is known of the prefixes that open and of those that cannot be resolved holds of the
parent that is found: it is complete, or one component more cannot be resolved. -/
lemma resolveDeepestParentPrefix_bounds {components : List String} {P : ℕ → FileIdentity → Prop}
    {Q : ℕ → Prop} (hroot : P 0 T.root)
    (hfnd : ∀ k d, openResolvedPathPrefix T faults (components.take k) = .ok d → P k d)
    (hmiss : ∀ k e, openResolvedPathPrefix T faults (components.take k) = .error e →
      unresolvedPathError e = true → Q k)
    (h : resolveDeepestParentPrefix T faults components = .ok (d, k)) :
    k ≤ components.length ∧ P k d ∧ (k = components.length ∨ Q (k + 1)) := by
  have hsome : ∀ k d, probePrefix T faults components k = .ok (some d) → P k d := by
    intro k d hprb
    unfold probePrefix at hprb
    cases hopen : openResolvedPathPrefix T faults (components.take k) with
    | ok d' =>
      simp only [hopen, Except.ok.injEq, Option.some.injEq] at hprb
      exact hprb ▸ hfnd k d' hopen
    | error e =>
      simp only [hopen] at hprb
      split at hprb <;> cases hprb
  have hnone : ∀ k, probePrefix T faults components k = .ok none → Q k := by
    intro k hprb
    unfold probePrefix at hprb
    cases hopen : openResolvedPathPrefix T faults (components.take k) with
    | ok d' => simp [hopen] at hprb
    | error e =>
      simp only [hopen] at hprb
      split at hprb
      case isTrue he => exact hmiss k e hopen he
      case isFalse => cases hprb
  unfold resolveDeepestParentPrefix at h
  split at h
  case isTrue hnil =>
    obtain ⟨-, h⟩ := guard_eq_ok.1 h
    cases h
    subst hnil
    exact ⟨Nat.le_refl _, hroot, .inl rfl⟩
  case isFalse hne =>
    have hfull : components.take components.length = components := take_length
    cases hopen : openResolvedPathPrefix T faults components with
    | ok d' =>
      rw [hopen] at h
      cases h
      exact ⟨Nat.le_refl _, hfnd _ _ (hfull.symm ▸ hopen), .inl rfl⟩
    | error e =>
      rw [hopen] at h
      simp only at h
      split at h
      case isFalse => cases h
      case isTrue he =>
        obtain ⟨-, h⟩ := guard_eq_ok.1 h
        -- the bounds of the search: the root is there, the complete parent is a miss
        obtain ⟨hk, hd, hnext⟩ := Bisect.search_spec hsome hnone (length_pos_iff.2 hne) hroot
          (hmiss _ e (hfull.symm ▸ hopen) he) h
        exact ⟨hk.le, hd, .inr hnext⟩

/-- The parent that is found resolves, and it is complete or the next component does not resolve. -/
lemma resolveDeepestParentPrefix_spec (hf : faults.Openable) {comps : List String}
    (h : resolveDeepestParentPrefix T faults comps = .ok (d, k)) :
    k ≤ comps.length ∧ T.resolve (comps.take k) = .ok d ∧
      (k = comps.length ∨ ∃ e, T.resolve (comps.take (k + 1)) = .error e) :=
  resolveDeepestParentPrefix_bounds (P := fun k d => T.resolve (comps.take k) = .ok d)
    (Q := fun k => ∃ e, T.resolve (comps.take k) = .error e) rfl
    (fun _ _ hopen => (guard_eq_ok.1 hopen).2)
    (fun _ e hopen he => ⟨e, resolve_of_unresolved hf hopen he⟩) h

/-! ### The ancestry -/

/-- The ancestry starts at the root, and every directory around the given one is in it. -/
lemma ancestryLoop_spec {fuel : ℕ} {below : List FileIdentity}
    (h : ancestryLoop T faults fuel d below = .ok l) :
    (∃ above, l = above ++ d :: below) ∧ T.root ∈ l ∧ ∀ D, T.Within D d → D ∈ l := by
  induction fuel generalizing d below with
  | zero => cases h
  | succ fuel ih =>
    obtain ⟨-, h⟩ := guard_eq_ok.1 h
    split at h
    case isTrue hroot =>
      cases h
      subst hroot
      refine ⟨⟨[], rfl⟩, mem_cons_self, fun D hD => ?_⟩
      -- nothing but the root is around the root
      rcases Relation.ReflTransGen.cases_tail hD with hD | ⟨d, -, n, hn⟩
      · exact hD ▸ mem_cons_self
      · exact absurd hn T.root_entry
    case isFalse hroot =>
      obtain ⟨-, h⟩ := guard_eq_ok.1 h
      split at h
      case isTrue => cases h
      case isFalse hself =>
        obtain ⟨⟨above, rfl⟩, hmem, hwin⟩ := ih h
        refine ⟨⟨above ++ [T.parent d], by simp⟩, hmem, fun D hD => ?_⟩
        rcases Relation.ReflTransGen.cases_tail hD with hD | ⟨d', hD, n, hn⟩
        · simp [hD]
        · exact hwin D (T.parent_entry hn ▸ hD)

lemma directoryAncestryFromRoot_spec (h : directoryAncestryFromRoot T faults d = .ok l) :
    l.getLastD d = d ∧ T.root ∈ l ∧ ∀ D, T.Within D d → D ∈ l := by
  obtain ⟨⟨above, rfl⟩, hmem⟩ := ancestryLoop_spec h
  exact ⟨by simp, hmem⟩

/-! ### The key -/

lemma targetDirectory_of_entry (hf : faults.Openable) {D : FileIdentity} {name : String}
    {target : Option FileIdentity} (hent : T.entry d name = some (.directory D))
    (h : targetDirectory T faults d name = .ok target) : target = some D := by
  unfold targetDirectory at h
  cases hfault : faults (.statEntry d name) with
  | none =>
    have hstat : faults.guard (.statEntry d name) (.ok (T.entry d name)) =
        .ok (some (.directory D)) := guard_eq_ok.2 ⟨hfault, by rw [hent]⟩
    rw [hstat] at h
    exact (Except.ok.inj (guard_eq_ok.1 h).2).symm
  | some e =>
    have hne : e ≠ .notFound := fun he => hf.statEntry (he ▸ hfault)
    cases e <;> simp [Faults.guard, hfault] at h hne

end RootedFs

namespace Tree

variable (T : Tree)

/-- The deepest directory on the way to the entry of the path, and the names below it. -/
def DeepestParent (path : RelPath) (d : FileIdentity) (tail : RelPath) : Prop :=
  ∃ k < path.length, T.resolve (path.take k) = .ok d ∧ tail = path.drop k ∧
    ∀ j, k < j → j < path.length → ∀ d', T.resolve (path.take j) ≠ .ok d'

/-- The entry of the path is a directory, not a link to one. -/
def NamesDirectory (path : RelPath) (D : FileIdentity) : Prop :=
  ∃ parents name d, path = parents ++ [name] ∧ T.resolve parents = .ok d ∧
    T.entry d name = some (.directory D)

/-- The entry of the path is inside the directory, at any depth. -/
def EntryWithin (D : FileIdentity) (path : RelPath) : Prop :=
  ∃ d tail, T.DeepestParent path d tail ∧ T.Within D d

variable {T}

/-- There is only one deepest parent: the parents above a directory are directories. -/
lemma DeepestParent.unique {d' : FileIdentity} {tail tail' : RelPath}
    (h : T.DeepestParent path d tail) (h' : T.DeepestParent path d' tail') :
    d = d' ∧ tail = tail' := by
  obtain ⟨k, hk, hd, rfl, hdeep⟩ := h
  obtain ⟨k', hk', hd', rfl, hdeep'⟩ := h'
  obtain rfl : k = k' := Nat.le_antisymm (not_lt.1 fun hlt => hdeep' k hlt hk d hd)
    (not_lt.1 fun hlt => hdeep k' hlt hk' d' hd')
  rw [hd] at hd'
  exact ⟨Except.ok.inj hd', rfl⟩

end Tree

namespace RootedFs

variable {T : Tree} {faults : Faults} {key : ResolvedPathKey}

/-- What a resolved key tells of its path. -/
structure Describes (T : Tree) (path : RelPath) (key : ResolvedPathKey) : Prop where
  parent : T.DeepestParent path key.resolvedParent key.unresolvedTail
  ancestors : ∀ D, T.Within D key.resolvedParent → D ∈ key.ancestorDirectories
  target : ∀ D, T.NamesDirectory path D → key.targetDirectory = some D

/-- The parts of a resolved key. -/
lemma resolvedPathKeyBlocking_eq_ok (h : resolvedPathKeyBlocking T faults path = .ok key) :
    ∃ parents name d k l, path = parents ++ [name] ∧
      resolveDeepestParentPrefix T faults parents = .ok (d, k) ∧
      directoryAncestryFromRoot T faults d = .ok l ∧
      (if k = parents.length then targetDirectory T faults d name else .ok none) =
        .ok key.targetDirectory ∧
      key.resolvedParent = l.getLastD d ∧ key.unresolvedTail = path.drop k ∧
      key.ancestorDirectories = l := by
  rcases eq_nil_or_concat path with rfl | ⟨parents, name, rfl⟩
  · cases h
  rw [concat_eq_append] at h ⊢
  simp only [resolvedPathKeyBlocking, List.getLast?_concat, dropLast_concat] at h
  cases hdeep : resolveDeepestParentPrefix T faults parents with
  | error e => simp [hdeep, bind, Except.bind] at h
  | ok found =>
    obtain ⟨d, k⟩ := found
    cases hanc : directoryAncestryFromRoot T faults d with
    | error e => simp [hdeep, hanc, bind, Except.bind] at h
    | ok l =>
      simp only [hdeep, hanc, bind, Except.bind] at h
      by_cases hk : k = parents.length
      · rw [if_pos hk] at h
        cases htgt : targetDirectory T faults d name with
        | error e => simp [htgt] at h
        | ok target =>
          rw [htgt] at h
          cases h
          exact ⟨parents, name, d, k, l, rfl, hdeep, hanc, by rw [if_pos hk, htgt], rfl, rfl, rfl⟩
      · rw [if_neg hk] at h
        cases h
        exact ⟨parents, name, d, k, l, rfl, hdeep, hanc, by rw [if_neg hk], rfl, rfl, rfl⟩

/-- Every resolved key is anchored at the root. -/
lemma root_mem_of_resolved (h : resolvedPathKeyBlocking T faults path = .ok key) :
    T.root ∈ key.ancestorDirectories := by
  obtain ⟨parents, name, d, k, l, -, -, hanc, -, -, -, hl⟩ := resolvedPathKeyBlocking_eq_ok h
  exact hl ▸ (directoryAncestryFromRoot_spec hanc).2.1

lemma describes_of_resolved (hf : faults.Openable)
    (h : resolvedPathKeyBlocking T faults path = .ok key) : Describes T path key := by
  obtain ⟨parents, name, d, k, l, rfl, hdeep, hanc, htgt, hpar, htail, hl⟩ :=
    resolvedPathKeyBlocking_eq_ok h
  obtain ⟨hlast, -, hwin⟩ := directoryAncestryFromRoot_spec hanc
  obtain ⟨hk, hd, hnext⟩ := resolveDeepestParentPrefix_spec hf hdeep
  rw [hlast] at hpar
  have htake {j : ℕ} (hj : j ≤ parents.length) : (parents ++ [name]).take j = parents.take j :=
    take_append_of_le_length hj
  refine ⟨?_, ?_, ?_⟩
  · rw [hpar, htail]
    refine ⟨k, by simp; omega, by rwa [htake hk], rfl, fun j hkj hj d' hd' => ?_⟩
    rw [length_append, length_singleton] at hj
    rw [htake (by omega)] at hd'
    rcases hnext with rfl | ⟨e, he⟩
    · omega
    · obtain ⟨d'', hd''⟩ := Tree.resolve_take (j := k + 1) hkj hd'
      cases he.symm.trans hd''
  · rw [hpar, hl]
    exact hwin
  · rintro D ⟨parents', name', d', heq, hd', hent⟩
    obtain ⟨rfl, hname⟩ := append_inj' heq rfl
    cases hname
    -- a parent that resolves as a whole is the one that was found
    have hfull : k = parents.length := by
      rcases hnext with hfull | ⟨e, he⟩
      · exact hfull
      · by_contra hne
        obtain ⟨d'', hd''⟩ := Tree.resolve_take (j := k + 1) (k := parents.length) (by omega)
          (by rwa [take_length])
        cases he.symm.trans hd''
    subst hfull
    rw [take_length, hd'] at hd
    cases hd
    rw [if_pos rfl] at htgt
    exact targetDirectory_of_entry hf hent htgt

/-- A key that could not be resolved conflicts with every key. -/
lemma conflict_of_failed {faults' : Faults} (h : resolvedPathKeyBlocking T faults p = .error e) :
    pathKeysConflict (leaseKey T faults p) (leaseKey T faults' q) := by
  refine .inr (.inr (.inr (.inl ⟨T.root, ?_, ?_⟩)))
  · simp [leaseKey, h, conservativePathKey]
  · cases hq : resolvedPathKeyBlocking T faults' q with
    | ok key => simpa [leaseKey, hq] using root_mem_of_resolved hq
    | error e => simp [leaseKey, hq, conservativePathKey]

/-- Keys of paths that may name the same entry, or of which one names a directory around the entry
of the other, conflict. -/
lemma conflict_of_described {left right : LeaseKey}
    (hp : Describes T p left.resolved) (hq : Describes T q right.resolved)
    (h : (∃ d s t, T.DeepestParent p d s ∧ T.DeepestParent q d t ∧ (s <+: t ∨ t <+: s)) ∨
      ∃ D, T.NamesDirectory p D ∧ T.EntryWithin D q) : pathKeysConflict left right := by
  rcases h with ⟨d, s, t, hs, ht, hpre⟩ | ⟨D, hD, d, t, hd, hwin⟩
  · obtain ⟨hpd, hps⟩ := hp.parent.unique hs
    obtain ⟨hqd, hqt⟩ := hq.parent.unique ht
    refine .inr ?_
    rcases hpre with hpre | hpre
    · refine .inl (anchoredTailIsPrefix_iff.2 ⟨hpd.trans hqd.symm, ?_⟩)
      rwa [hps, hqt]
    · refine .inr (.inl (anchoredTailIsPrefix_iff.2 ⟨hqd.trans hpd.symm, ?_⟩))
      rwa [hps, hqt]
  · obtain ⟨hqd, -⟩ := hq.parent.unique hd
    refine .inr (.inr (.inr (.inl ⟨D, hp.target D hD, ?_⟩)))
    exact hq.ancestors D (hqd ▸ hwin)

end RootedFs

open RootedFs

/-- In a tree whose directories can all be opened, the lease keys of two paths conflict if the
paths have the same deepest parent and one tail is a prefix of the other, or if one names a
directory in which the entry of the other is. A key whose resolution fails conflicts with every
key, whatever made it fail. -/
theorem lease_keys_cover_aliases (T : Tree) (faults faults' : Faults) (p q : RelPath) :
    (faults.Openable → faults'.Openable →
      (∃ d s t, T.DeepestParent p d s ∧ T.DeepestParent q d t ∧ (s <+: t ∨ t <+: s)) ∨
        (∃ D, T.NamesDirectory p D ∧ T.EntryWithin D q) →
      pathKeysConflict (leaseKey T faults p) (leaseKey T faults' q)) ∧
    (∀ e, resolvedPathKeyBlocking T faults p = .error e →
      (leaseKey T faults p).resolved = conservativePathKey T.root ∧
        pathKeysConflict (leaseKey T faults p) (leaseKey T faults' q)) := by
  refine ⟨fun hf hf' h => ?_, fun e he => ⟨by simp [leaseKey, he], conflict_of_failed he⟩⟩
  cases hp : resolvedPathKeyBlocking T faults p with
  | error e => exact conflict_of_failed hp
  | ok left =>
    cases hq : resolvedPathKeyBlocking T faults' q with
    | error e => exact pathKeysConflict_comm.1 (conflict_of_failed hq)
    | ok right =>
      have hpkey : (leaseKey T faults p).resolved = left := by simp [leaseKey, hp]
      have hqkey : (leaseKey T faults' q).resolved = right := by simp [leaseKey, hq]
      exact conflict_of_described (hpkey ▸ describes_of_resolved hf hp)
        (hqkey ▸ describes_of_resolved hf' hq) h

/-- A directory and a link to it, side by side. -/
def linkedTree : Tree where
  root := ⟨0, 0⟩
  entry d n :=
    if d = ⟨0, 0⟩ ∧ n = "directory" then some (.directory ⟨0, 1⟩)
    else if d = ⟨0, 0⟩ ∧ n = "link" then some (.symlink ⟨false, [.normal "directory"]⟩)
    else none
  parent _ := ⟨0, 0⟩
  parent_entry {d n e} h := by
    split at h
    case isTrue hd => exact hd.1.symm
    case isFalse => split at h <;> cases h
  root_entry {d n} h := by
    split at h
    case isTrue => cases h
    case isFalse => split at h <;> cases h

/-- The directory conflicts with an entry that is reached through the link. -/
theorem lease_keys_cover_link : linkedTree.NamesDirectory ["directory"] ⟨0, 1⟩ ∧
    linkedTree.EntryWithin ⟨0, 1⟩ ["link", "entry"] ∧
    pathKeysConflict (leaseKey linkedTree (fun _ => none) ["directory"])
      (leaseKey linkedTree (fun _ => none) ["link", "entry"]) := by
  have hopenable : Faults.Openable fun _ => none := ⟨nofun, nofun⟩
  have hnames : linkedTree.NamesDirectory ["directory"] ⟨0, 1⟩ :=
    ⟨[], "directory", ⟨0, 0⟩, rfl, rfl, by decide⟩
  have hwithin : linkedTree.EntryWithin ⟨0, 1⟩ ["link", "entry"] :=
    ⟨⟨0, 1⟩, ["entry"], ⟨1, by decide, by decide +kernel, rfl, fun j hj hlt => by
      simp at hlt
      omega⟩, .refl⟩
  exact ⟨hnames, hwithin, (lease_keys_cover_aliases linkedTree _ _ _ _).1 hopenable hopenable
    (.inr ⟨_, hnames, hwithin⟩)⟩

end DufsRam
