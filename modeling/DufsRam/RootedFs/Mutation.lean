import DufsRam.RootedFs.Tree

/-!
# Changing the tree

The changes that requests make to the shared tree: a file is put in place or unlinked, a directory
is made, an entry is renamed. Without links every path leads to its own place in the tree, so that
a change at one path leaves what is found at every path that does not go through it.
-/

namespace DufsRam

open List Option

/-- A tree whose directories have one name each, with the directories that were ever made. -/
structure FileTree extends Tree where
  known : List FileIdentity
  unique_name : ∀ {d n n' e}, entry d n = some (.directory e) → entry d n' = some (.directory e) →
    n = n'
  root_known : root ∈ known
  entry_known : ∀ {d n e}, entry d n = some (.directory e) → e ∈ known

namespace FileTree

variable (T : FileTree)

/-- Put an entry that is no directory in a place, or clear the place. -/
def put (d : FileIdentity) (n : String) (o : Option Entry) (ho : ∀ e, o ≠ some (.directory e)) :
    FileTree where
  root := T.root
  entry x m := if x = d ∧ m = n then o else T.entry x m
  parent := T.parent
  known := T.known
  parent_entry {x m e} h := by
    split_ifs at h
    · exact absurd h (ho e)
    · exact T.parent_entry h
  root_entry {x m} h := by
    split_ifs at h
    · exact absurd h (ho _)
    · exact T.root_entry h
  unique_name {x m m' e} h h' := by
    split_ifs at h h'
    · exact absurd h (ho e)
    · exact absurd h (ho e)
    · exact absurd h' (ho e)
    · exact T.unique_name h h'
  root_known := T.root_known
  entry_known {x m e} h := by
    split_ifs at h
    · exact absurd h (ho e)
    · exact T.entry_known h

/-- `mkdirat` with a new directory. -/
def makeDirectory (d : FileIdentity) (n : String) (f : FileIdentity) (hf : f ∉ T.known) :
    FileTree where
  root := T.root
  entry x m :=
    if x = f then none else if x = d ∧ m = n then some (.directory f) else T.entry x m
  parent := Function.update T.parent f d
  known := f :: T.known
  parent_entry {x m e} h := by
    split_ifs at h with hx hplace
    · cases h
      rw [Function.update_self, hplace.1]
    · have he : e ≠ f := fun he => hf (he ▸ T.entry_known h)
      rw [Function.update_of_ne he]
      exact T.parent_entry h
  root_entry {x m} h := by
    split_ifs at h
    · cases h
      exact hf T.root_known
    · exact T.root_entry h
  unique_name {x m m' e} h h' := by
    split_ifs at h h' with hx hplace hplace' hplace'
    · rw [hplace.2, hplace'.2]
    · cases h
      exact absurd (T.entry_known h') hf
    · cases h'
      exact absurd (T.entry_known h) hf
    · exact T.unique_name h h'
  root_known := List.mem_cons_of_mem _ T.root_known
  entry_known {x m e} h := by
    split_ifs at h
    · cases h
      exact List.mem_cons_self
    · exact List.mem_cons_of_mem _ (T.entry_known h)

/-- `renameat` onto a place that is free or holds no directory. -/
def rename (d : FileIdentity) (n : String) (d' : FileIdentity) (n' : String) : FileTree where
  root := T.root
  entry x m :=
    if x = d' ∧ m = n' then T.entry d n else if x = d ∧ m = n then none else T.entry x m
  parent e := if T.entry d n = some (.directory e) then d' else T.parent e
  known := T.known
  parent_entry {x m e} h := by
    split_ifs at h with hto hfrom
    · rw [if_pos h, hto.1]
    · rw [if_neg, T.parent_entry h]
      intro he
      have hd : x = d := (T.parent_entry h).symm.trans (T.parent_entry he)
      subst hd
      exact hfrom ⟨rfl, T.unique_name h he⟩
  root_entry {x m} h := by
    split_ifs at h
    · exact T.root_entry h
    · exact T.root_entry h
  unique_name {x m m' e} h h' := by
    -- the other name of a moved directory would have been its old place
    have hold : ∀ {x m}, T.entry d n = some (.directory e) → T.entry x m = some (.directory e) →
        x = d ∧ m = n := by
      intro x m hmoved hother
      have hx : x = d := (T.parent_entry hother).symm.trans (T.parent_entry hmoved)
      subst hx
      exact ⟨rfl, T.unique_name hother hmoved⟩
    split_ifs at h h' with hto hto' hfrom' hfrom hto' hfrom'
    · rw [hto.2, hto'.2]
    · exact absurd (hold h h') hfrom'
    · exact absurd (hold h' h) hfrom
    · exact T.unique_name h h'
  root_known := T.root_known
  entry_known {x m e} h := by
    split_ifs at h
    · exact T.entry_known h
    · exact T.entry_known h

end FileTree

/-! ### Places -/

variable {d x : FileIdentity} {p path destination source q : RelPath} {replace : Bool}
  {follow : Follow} {n : String} {l : FileIdentity × String}

namespace Tree

variable (T : Tree)

def SymlinkFree : Prop := ∀ d n target, T.entry d n ≠ some (.symlink target)

/-- The place of a path: the directory it lies in, and its name there. -/
def place (path : RelPath) : Option (FileIdentity × String) :=
  path.getLast?.bind fun n => (T.resolve path.dropLast).toOption.map fun d => (d, n)

/-- The entry at a path, without following a link there. -/
def lookup (path : RelPath) : Option Entry := (T.place path).bind fun l => T.entry l.1 l.2

variable {T}

lemma place_append_singleton {m : String} :
    T.place (path ++ [n]) = some (d, m) ↔ T.resolve path = .ok d ∧ n = m := by
  unfold place
  rw [getLast?_append, getLast?_singleton, some_or, bind_some,
    dropLast_concat, map_eq_some_iff]
  constructor
  · rintro ⟨d', hd, hplace⟩
    cases hplace
    cases hrslv : T.resolve path with
    | error e => simp [hrslv, Except.toOption] at hd
    | ok d' =>
      simp only [hrslv, Except.toOption, some.injEq] at hd
      exact ⟨by rw [hd], rfl⟩
  · rintro ⟨hrslv, rfl⟩
    exact ⟨d, by rw [hrslv]; rfl, rfl⟩

/-- What a way leads through has a place on the way, where a directory or a link is found. -/
lemma Traverses.place {s : RelPath} (h : T.Traverses s path) :
    ∃ l ∈ T.lookups maxSymlinks T.root (s.dropLast.map .normal), T.place path = some l ∧
      ((∃ e, T.lookup path = some (.directory e)) ∨
        ∃ target, T.lookup path = some (.symlink target)) := by
  obtain ⟨parents, name, d, rfl, hd, hmem, hent⟩ := h
  have hplace : T.place (parents ++ [name]) = some (d, name) :=
    place_append_singleton.2 ⟨hd, rfl⟩
  exact ⟨_, hmem, hplace, by simpa [lookup, hplace] using hent⟩

/-- Without links a walk goes from directory to directory. -/
lemma walkWith_append (hfree : T.SymlinkFree) (d : FileIdentity) (p q : RelPath) :
    T.walkWith follow d ((p ++ q).map .normal) =
      (T.walkWith follow d (p.map .normal)).bind fun d' =>
        T.walkWith follow d' (q.map .normal) := by
  induction p generalizing d with
  | nil => rfl
  | cons n p ih =>
    simp only [cons_append, map_cons, walkWith]
    cases hent : T.entry d n with
    | none => rfl
    | some entry =>
      cases entry with
      | file fileType => rfl
      | directory e => exact ih e
      | symlink target => exact absurd hent (hfree d n target)

lemma resolve_append (hfree : T.SymlinkFree) {e : FileIdentity} : T.resolve (p ++ [n]) = .ok e ↔
      ∃ d, T.resolve p = .ok d ∧ T.entry d n = some (.directory e) := by
  have hspl : T.resolve (p ++ [n]) = (T.resolve p).bind fun d => T.walk maxSymlinks d [.normal n] :=
    walkWith_append hfree T.root p [n]
  rw [hspl]
  cases T.resolve p with
  | error kind => simp [Except.bind]
  | ok d =>
    change T.walk maxSymlinks d [.normal n] = .ok e ↔ _
    rw [maxSymlinks, walk, walkWith]
    cases hent : T.entry d n with
    | none => simp [hent]
    | some entry =>
      cases entry with
      | file fileType => simp [hent]
      | directory e' => simp [hent, walkWith]
      | symlink target => exact absurd hent (hfree d n target)

end Tree

namespace FileTree

variable {T : FileTree}

/-- Without links no directory is reached by two paths. -/
theorem resolve_injective (hfree : T.SymlinkFree) (hp : T.resolve p = .ok d)
    (hq : T.resolve q = .ok d) : p = q := by
  induction p using reverseRecOn generalizing q d with
  | nil =>
    cases q using reverseRecOn with
    | nil => rfl
    | append_singleton q n =>
      obtain ⟨d', -, hent⟩ := (Tree.resolve_append hfree).1 hq
      cases hp
      exact absurd hent T.root_entry
  | append_singleton p n ih =>
    obtain ⟨d', hd', hent⟩ := (Tree.resolve_append hfree).1 hp
    cases q using reverseRecOn with
    | nil =>
      cases hq
      exact absurd hent T.root_entry
    | append_singleton q m =>
      obtain ⟨d'', hd'', hent'⟩ := (Tree.resolve_append hfree).1 hq
      have hpar : d'' = d' := (T.parent_entry hent').symm.trans (T.parent_entry hent)
      subst hpar
      rw [ih hd' hd'', T.unique_name hent hent']

/-- Without links every path has a place of its own. -/
theorem place_injective (hfree : T.SymlinkFree)
    (hp : T.place p = some l) (hq : T.place q = some l) : p = q := by
  obtain ⟨d, n⟩ := l
  cases p using reverseRecOn with
  | nil => cases hp
  | append_singleton p m =>
    cases q using reverseRecOn with
    | nil => cases hq
    | append_singleton q m' =>
      obtain ⟨hrslv, rfl⟩ := Tree.place_append_singleton.1 hp
      obtain ⟨hrslv', rfl⟩ := Tree.place_append_singleton.1 hq
      rw [resolve_injective hfree hrslv hrslv']

/-- A directory that a path leads to is known. -/
lemma resolve_known (hfree : T.SymlinkFree) (h : T.resolve p = .ok d) : d ∈ T.known := by
  cases p using reverseRecOn with
  | nil =>
    cases h
    exact T.root_known
  | append_singleton p n =>
    obtain ⟨d', -, hent⟩ := (Tree.resolve_append hfree).1 h
    exact T.entry_known hent

end FileTree

namespace Tree

variable {T T' : Tree}

section

variable (hfree : T.SymlinkFree) (hfree' : T'.SymlinkFree) (hroot : T'.root = T.root)
  (h : ∀ q n d, q ++ [n] <+: p → T.resolve q = .ok d → T'.entry d n = T.entry d n)

include hfree hfree' hroot h

/-- A walk finds the same where the entries it goes by are the same. -/
lemma resolve_congr (e : FileIdentity) : T'.resolve p = .ok e ↔ T.resolve p = .ok e := by
  induction p using reverseRecOn generalizing e with
  | nil =>
    change Except.ok T'.root = .ok e ↔ Except.ok T.root = .ok e
    rw [hroot]
  | append_singleton p n ih =>
    have hp := ih fun q m d hq => h q m d (hq.trans (prefix_append _ _))
    rw [resolve_append hfree, resolve_append hfree']
    constructor
    · rintro ⟨d, hd, hent⟩
      rw [hp] at hd
      exact ⟨d, hd, h p n d prefix_rfl hd ▸ hent⟩
    · rintro ⟨d, hd, hent⟩
      exact ⟨d, (hp d).2 hd, (h p n d prefix_rfl hd).trans hent⟩

lemma lookup_congr : T'.lookup p = T.lookup p := by
  cases p using reverseRecOn with
  | nil => rfl
  | append_singleton p n =>
    have hrslv := resolve_congr hfree hfree' hroot fun q m d hq =>
      h q m d (hq.trans (prefix_append p [n]))
    ext entry
    simp only [lookup, bind_eq_some_iff, Prod.exists, place_append_singleton]
    constructor
    · rintro ⟨d, m, ⟨hd, rfl⟩, hent⟩
      rw [hrslv] at hd
      exact ⟨d, n, ⟨hd, rfl⟩, h p n d prefix_rfl hd ▸ hent⟩
    · rintro ⟨d, m, ⟨hd, rfl⟩, hent⟩
      exact ⟨d, n, ⟨(hrslv d).2 hd, rfl⟩, (h p n d prefix_rfl hd).trans hent⟩

end

end Tree

/-- The trees differ only in the places of some paths, and in directories that the first one does
not know. -/
def FileTree.DiffersAt (T T' : FileTree) (paths : List RelPath) : Prop :=
  T'.root = T.root ∧ ∀ d n, T'.entry d n ≠ T.entry d n →
    d ∉ T.known ∨ ∃ p ∈ paths, T.place p = some (d, n)

/-- What is found at a path does not change where no path above it changes. -/
theorem FileTree.DiffersAt.lookup_eq {T T' : FileTree} {paths : List RelPath}
    (h : T.DiffersAt T' paths) (hfree : T.SymlinkFree) (hfree' : T'.SymlinkFree) {s : RelPath}
    (hs : ∀ p ∈ paths, ¬ p <+: s) : T'.lookup s = T.lookup s := by
  refine Tree.lookup_congr hfree hfree' h.1 fun q n d hq hd => ?_
  by_contra hne
  rcases h.2 d n hne with hunk | ⟨p, hp, hplace⟩
  · exact hunk (resolve_known hfree hd)
  · have hpq : p = q ++ [n] :=
      place_injective hfree hplace (Tree.place_append_singleton.2 ⟨hd, rfl⟩)
    exact hs p hp (hpq ▸ hq)

/-! ### Changes by path -/

namespace FileTree

variable (T : FileTree)

def makeDirectoryAt (path : RelPath) (f : FileIdentity) : Option FileTree :=
  match T.place path with
  | none => none
  | some (d, n) =>
    if h : T.entry d n = none ∧ f ∉ T.known then some (T.makeDirectory d n f h.2) else none

/-- A new regular file. -/
def createFileAt (path : RelPath) : Option FileTree :=
  match T.place path with
  | none => none
  | some (d, n) =>
    if T.entry d n = none then some (T.put d n (some (.file .regularFile)) (by simp)) else none

/-- There is a directory. -/
def isDirectoryEntry (o : Option Entry) : Bool :=
  match o with
  | some (.directory _) => true
  | _ => false

/-- An entry is renamed. What it replaces, if it may replace something, is no directory, and nor is
it a directory itself then. -/
def renameAt (source destination : RelPath) (replace : Bool) : Option FileTree :=
  match T.place source, T.place destination with
  | some (d, n), some (d', n') =>
    if (T.entry d n).isSome ∧ (T.entry d' n' = none ∨ replace = true ∧
        isDirectoryEntry (T.entry d n) = false ∧ isDirectoryEntry (T.entry d' n') = false) then
      some (T.rename d n d' n')
    else none
  | _, _ => none

variable {T} {T' : FileTree}

lemma makeDirectoryAt_differsAt {f : FileIdentity} (h : T.makeDirectoryAt path f = some T') :
    T.DiffersAt T' [path] ∧ (T.SymlinkFree → T'.SymlinkFree) := by
  unfold makeDirectoryAt at h
  split at h
  · cases h
  · rename_i d n hplace
    split_ifs at h with hnew
    cases h
    refine ⟨⟨rfl, fun x m hne => ?_⟩, fun hfree x m target hlink => ?_⟩
    · change (if x = f then none else if x = d ∧ m = n then some (Entry.directory f)
        else T.entry x m) ≠ _ at hne
      split_ifs at hne with hx hxm
      · exact .inl (hx ▸ hnew.2)
      · exact .inr ⟨path, by simp, by rw [hplace, hxm.1, hxm.2]⟩
      · exact absurd rfl hne
    · change (if x = f then none else if x = d ∧ m = n then some (Entry.directory f)
        else T.entry x m) = _ at hlink
      split_ifs at hlink
      · cases hlink
      · exact hfree x m target hlink

lemma createFileAt_differsAt (h : T.createFileAt path = some T') :
    T.DiffersAt T' [path] ∧ (T.SymlinkFree → T'.SymlinkFree) := by
  unfold createFileAt at h
  split at h
  · cases h
  · rename_i d n hplace
    split_ifs at h
    cases h
    refine ⟨⟨rfl, fun x m hne => ?_⟩, fun hfree x m target hlink => ?_⟩
    · change (if x = d ∧ m = n then _ else T.entry x m) ≠ _ at hne
      split_ifs at hne with hxm
      · exact .inr ⟨path, by simp, by rw [hplace, hxm.1, hxm.2]⟩
      · exact absurd rfl hne
    · change (if x = d ∧ m = n then some (Entry.file .regularFile) else T.entry x m) = _ at hlink
      split_ifs at hlink
      · cases hlink
      · exact hfree x m target hlink

/-- What a rename by path is. -/
lemma renameAt_eq_some (h : T.renameAt source destination replace = some T') :
    ∃ d n d' n', T.place source = some (d, n) ∧ T.place destination = some (d', n') ∧
      (T.entry d n).isSome ∧ (T.entry d' n' = none ∨ replace = true ∧
        isDirectoryEntry (T.entry d n) = false ∧ isDirectoryEntry (T.entry d' n') = false) ∧
      T' = T.rename d n d' n' := by
  unfold renameAt at h
  split at h
  · rename_i d n d' n' hsrc hdst
    split_ifs at h with hents
    cases h
    exact ⟨d, n, d', n', hsrc, hdst, hents.1, hents.2, rfl⟩
  · cases h

lemma renameAt_differsAt (h : T.renameAt source destination replace = some T') :
    T.DiffersAt T' [source, destination] ∧ (T.SymlinkFree → T'.SymlinkFree) := by
  obtain ⟨d, n, d', n', hsrc, hdst, -, -, rfl⟩ := renameAt_eq_some h
  refine ⟨⟨rfl, fun x m hne => ?_⟩, fun hfree x m target hlink => ?_⟩
  · change (if x = d' ∧ m = n' then T.entry d n else if x = d ∧ m = n then none
      else T.entry x m) ≠ _ at hne
    split_ifs at hne with hto hfrom
    · exact .inr ⟨destination, by simp, by rw [hdst, hto.1, hto.2]⟩
    · exact .inr ⟨source, by simp, by rw [hsrc, hfrom.1, hfrom.2]⟩
    · exact absurd rfl hne
  · change (if x = d' ∧ m = n' then T.entry d n else if x = d ∧ m = n then none
      else T.entry x m) = _ at hlink
    split_ifs at hlink
    · exact hfree d n target hlink
    · exact hfree x m target hlink

end FileTree

/-! ### Files that come and go -/

namespace Tree

variable {T T' : Tree}

/-- The directories and links of the first tree that are on a way are those of the second one,
too. -/
structure Keeps (T T' : Tree) (way : List (FileIdentity × String)) : Prop where
  root : T'.root = T.root
  parent : T'.parent = T.parent
  directory : ∀ {d n e}, (d, n) ∈ way → T.entry d n = some (.directory e) →
    T'.entry d n = some (.directory e)
  link : ∀ {d n target}, (d, n) ∈ way → T.entry d n = some (.symlink target) →
    T'.entry d n = some (.symlink target)

lemma Keeps.tail {way : List (FileIdentity × String)} (h : T.Keeps T' (l :: way)) :
    T.Keeps T' way :=
  ⟨h.root, h.parent, fun hmem => h.directory (mem_cons_of_mem _ hmem),
    fun hmem => h.link (mem_cons_of_mem _ hmem)⟩

lemma Keeps.walkWith {follow' : Follow}
    {looks : FileIdentity → LinkTarget → List PathComponent → List (FileIdentity × String)}
    (hfol : ∀ {d target rest x}, T.Keeps T' (looks d target rest) →
      follow d target rest = .ok x → follow' d target rest = .ok x)
    {p : List PathComponent} (h : T.Keeps T' (T.lookupsWith looks d p))
    (hwalk : T.walkWith follow d p = .ok x) : T'.walkWith follow' d p = .ok x := by
  induction p generalizing d with
  | nil => exact hwalk
  | cons component rest ih =>
    cases component with
    | curDir => exact ih h hwalk
    | parentDir =>
      simp only [Tree.walkWith, lookupsWith] at h hwalk ⊢
      split at hwalk
      · cases hwalk
      · rw [if_neg ‹_›] at h
        rw [h.root, if_neg ‹_›, h.parent]
        exact ih h hwalk
    | normal n =>
      simp only [Tree.walkWith, lookupsWith] at h hwalk ⊢
      cases hent : T.entry d n with
      | none => simp [hent] at hwalk
      | some entry =>
        rw [hent] at h hwalk
        cases entry with
        | file fileType => cases hwalk
        | directory e =>
          rw [h.directory mem_cons_self hent]
          exact ih h.tail hwalk
        | symlink target =>
          rw [h.link mem_cons_self hent]
          exact hfol h.tail hwalk

/-- A walk that succeeds still does so. -/
lemma Keeps.walk {links : ℕ} {p : List PathComponent} (h : T.Keeps T' (T.lookups links d p))
    (hwalk : T.walk links d p = .ok x) : T'.walk links d p = .ok x := by
  induction links generalizing d p x with
  | zero => exact Keeps.walkWith (fun _ hloop => hloop) h hwalk
  | succ links ih =>
    refine Keeps.walkWith (fun {d target rest x} h hfol => ?_) h hwalk
    split at hfol
    · cases hfol
    · rw [if_neg ‹_›] at h ⊢
      exact ih h hfol

lemma Keeps.place (h : T.Keeps T' (T.lookups maxSymlinks T.root (p.dropLast.map .normal)))
    (hplace : T.place p = some l) : T'.place p = some l := by
  cases p using reverseRecOn with
  | nil => cases hplace
  | append_singleton p n =>
    obtain ⟨d, m⟩ := l
    obtain ⟨hrslv, rfl⟩ := place_append_singleton.1 hplace
    refine place_append_singleton.2 ⟨?_, rfl⟩
    rw [dropLast_concat] at h
    unfold resolve at hrslv ⊢
    rw [h.root]
    exact h.walk hrslv

end Tree

namespace FileTree

variable {T T' : FileTree}

lemma rename_entry_of_ne {d' : FileIdentity} {m n' : String} (h : (x, m) ≠ (d, n))
    (h' : (x, m) ≠ (d', n')) : (T.rename d n d' n').entry x m = T.entry x m := by
  change (if x = d' ∧ m = n' then T.entry d n else if x = d ∧ m = n then none else T.entry x m) = _
  rw [if_neg (by simpa using h'), if_neg (by simpa using h)]

/-- A file that is renamed changes what is found in no other place, except behind a link that it
replaces. -/
theorem renameAt_lookup (h : T.renameAt source destination replace = some T') {fileType : FileType}
    (hsrc : T.lookup source = some (.file fileType)) (hway : ¬ T.Traverses p destination)
    {entry : Entry} (hp : T.lookup p = some entry) (hne : T.place p ≠ T.place source)
    (hne' : T.place p ≠ T.place destination) : T'.lookup p = some entry := by
  obtain ⟨d, n, d', n', hplace, hplace', -, hents, rfl⟩ := renameAt_eq_some h
  have hfile : T.entry d n = some (.file fileType) := by
    simpa [Tree.lookup, hplace] using hsrc
  have hdir : ∀ e, T.entry d' n' ≠ some (.directory e) := by
    intro e he
    simp [he, isDirectoryEntry] at hents
  have hlink : ∀ target, (d', n') ∈ T.lookups Tree.maxSymlinks T.root (p.dropLast.map .normal) →
      T.entry d' n' ≠ some (.symlink target) := by
    intro target hmem he
    cases destination using reverseRecOn with
    | nil => cases hplace'
    | append_singleton parents name =>
      obtain ⟨hrslv, rfl⟩ := Tree.place_append_singleton.1 hplace'
      exact hway ⟨parents, name, d', rfl, hrslv, hmem, .inr ⟨target, he⟩⟩
  have hkeeps : T.Keeps (T.rename d n d' n').toTree
      (T.lookups Tree.maxSymlinks T.root (p.dropLast.map .normal)) := {
    root := rfl
    parent := by
      funext e
      change (if T.entry d n = some (.directory e) then d' else T.parent e) = T.parent e
      rw [if_neg (by simp [hfile])]
    directory := by
      intro x m e _ he
      rw [rename_entry_of_ne, he]
      · rintro ⟨⟩
        cases hfile.symm.trans he
      · rintro ⟨⟩
        exact hdir e he
    link := by
      intro x m target hmem he
      rw [rename_entry_of_ne, he]
      · rintro ⟨⟩
        cases hfile.symm.trans he
      · rintro ⟨⟩
        exact hlink target hmem he }
  obtain ⟨⟨x, m⟩, hl, hent⟩ := bind_eq_some_iff.1 hp
  rw [hl, hplace] at hne
  rw [hl, hplace'] at hne'
  rw [Tree.lookup, hkeeps.place hl, bind_some, rename_entry_of_ne, hent]
  · exact fun heq => hne (congrArg some heq)
  · exact fun heq => hne' (congrArg some heq)

end FileTree

end DufsRam
