import DufsRam.RootedFs.PathKey

/-!
# Directories that may be searched but not read

The kernel looks names up in a directory that may be searched; the probes of
`resolve_deepest_parent_prefix` open the directory for reading. The binary search finds the longest
prefix that leads to a directory as long as the two permissions go together.
-/

namespace DufsRam

open List

/-- What the server may do with a directory: look names up in it, and open it for reading. -/
structure Permissions where
  search : FileIdentity → Bool
  read : FileIdentity → Bool

variable {components : List String} {d e : FileIdentity} {path : RelPath} {follow : Follow}
  {ys : List PathComponent} {j k links : ℕ}

namespace Tree

variable (T : Tree) (perms : Permissions)

/-! ### Walking with permissions -/

/-- `walkWith`, where every component is looked up in a directory that may be searched. -/
def walkAsWith
    (follow : FileIdentity → LinkTarget → List PathComponent → Except ErrorKind FileIdentity)
    (d : FileIdentity) : List PathComponent → Except ErrorKind FileIdentity
  | [] => .ok d
  | c :: rest =>
    if perms.search d then
      match c with
      | .curDir => walkAsWith follow d rest
      | .parentDir =>
        if d = T.root then .error .crossesDevices else walkAsWith follow (T.parent d) rest
      | .normal n =>
        match T.entry d n with
        | none => .error .notFound
        | some (.file _) => .error .notADirectory
        | some (.directory e) => walkAsWith follow e rest
        | some (.symlink target) => follow d target rest
    else .error .permissionDenied

def walkAs : ℕ → FileIdentity → List PathComponent → Except ErrorKind FileIdentity
  | 0 => T.walkAsWith perms fun _ _ _ => .error .filesystemLoop
  | links + 1 => T.walkAsWith perms fun d target rest =>
    if target.absolute then .error .crossesDevices else walkAs links d (target.components ++ rest)

/-- The directory to which the server is led by a path. -/
def resolveAs (path : RelPath) : Except ErrorKind FileIdentity :=
  T.walkAs perms maxSymlinks T.root (path.map .normal)

variable {T perms} {xs : List PathComponent}

/-- Permissions only take paths away. -/
lemma walkWith_of_walkAsWith {follow' : Follow}
    (hfol : ∀ {d target rest e}, follow d target rest = .ok e → follow' d target rest = .ok e)
    (h : T.walkAsWith perms follow d xs = .ok e) : T.walkWith follow' d xs = .ok e := by
  induction xs generalizing d with
  | nil => exact h
  | cons c rest ih =>
    cases c with
    | curDir =>
      simp only [walkAsWith] at h
      split_ifs at h
      exact ih h
    | parentDir =>
      simp only [walkAsWith, walkWith] at h ⊢
      split_ifs at h ⊢
      exact ih h
    | normal n =>
      simp only [walkAsWith, walkWith] at h ⊢
      split_ifs at h
      cases hent : T.entry d n with
      | none => simp [hent] at h
      | some entry =>
        rw [hent] at h
        cases entry with
        | file fileType => cases h
        | directory e => exact ih h
        | symlink target => exact hfol h

lemma walk_of_walkAs (h : T.walkAs perms links d xs = .ok e) : T.walk links d xs = .ok e := by
  induction links generalizing d e xs with
  | zero => exact walkWith_of_walkAsWith id h
  | succ links ih =>
    refine walkWith_of_walkAsWith (fun {d target rest e} h => ?_) h
    split_ifs at h ⊢
    exact ih h

lemma walkAsWith_append_of_error {e : ErrorKind}
    (hfol : ∀ {d target rest}, follow d target rest = .error e →
      follow d target (rest ++ ys) = .error e) (h : T.walkAsWith perms follow d xs = .error e) :
    T.walkAsWith perms follow d (xs ++ ys) = .error e := by
  induction xs generalizing d with
  | nil => cases h
  | cons c rest ih =>
    cases c with
    | curDir =>
      simp only [cons_append, walkAsWith] at h ⊢
      split_ifs at h ⊢
      · exact ih h
      · exact h
    | parentDir =>
      simp only [cons_append, walkAsWith] at h ⊢
      split_ifs at h ⊢
      · exact h
      · exact ih h
      · exact h
    | normal n =>
      simp only [cons_append, walkAsWith] at h ⊢
      split_ifs at h ⊢
      · cases hent : T.entry d n with
        | none => simpa [hent] using h
        | some entry =>
          rw [hent] at h
          cases entry with
          | file fileType => exact h
          | directory e => exact ih h
          | symlink target => exact hfol h
      · exact h

lemma walkAs_append_of_error {e : ErrorKind}
    (h : T.walkAs perms links d xs = .error e) : T.walkAs perms links d (xs ++ ys) = .error e := by
  induction links generalizing d xs with
  | zero => exact walkAsWith_append_of_error id h
  | succ links ih =>
    refine walkAsWith_append_of_error (fun {d target rest} h => ?_) h
    split_ifs at h ⊢
    · exact h
    · rw [← append_assoc]
      exact ih h

/-- What lies before a directory on its path is a directory that the server is led to, too. -/
lemma resolveAs_take (hjk : j ≤ k) (h : T.resolveAs perms (path.take k) = .ok d) :
    ∃ d', T.resolveAs perms (path.take j) = .ok d' := by
  cases hj : T.resolveAs perms (path.take j) with
  | ok d' => exact ⟨d', rfl⟩
  | error e =>
    have hspl := take_append_drop j (path.take k)
    rw [take_take, Nat.min_eq_left hjk] at hspl
    have herr : T.resolveAs perms (path.take k) = .error e := by
      rw [← hspl, resolveAs, map_append]
      exact walkAs_append_of_error hj
    cases herr.symm.trans h

variable (T perms) in
/-- The first components lead to the directory, and more of them do not lead to any. -/
def LongestPrefix (components : List String) (d : FileIdentity) (k : ℕ) : Prop :=
  k ≤ components.length ∧ T.resolveAs perms (components.take k) = .ok d ∧
    ∀ j, k < j → j ≤ components.length → ∀ d', T.resolveAs perms (components.take j) ≠ .ok d'

lemma LongestPrefix.unique {d' : FileIdentity} {k' : ℕ} (h : T.LongestPrefix perms components d k)
    (h' : T.LongestPrefix perms components d' k') : d = d' ∧ k = k' := by
  obtain ⟨hk, hd, hlong⟩ := h
  obtain ⟨hk', hd', hlong'⟩ := h'
  obtain rfl : k = k' := Nat.le_antisymm (not_lt.1 fun hlt => hlong' k hlt hk d hd)
    (not_lt.1 fun hlt => hlong k' hlt hk' d' hd')
  rw [hd] at hd'
  exact ⟨Except.ok.inj hd', rfl⟩

end Tree

/-- The calls that the permissions make fail, with what they fail. -/
def Permissions.faults (perms : Permissions) (T : Tree) : Faults
  | .openPrefix path =>
    match T.resolveAs perms path with
    | .ok d => if perms.read d then none else some .permissionDenied
    | .error e => some e
  | .openParent d | .statEntry d _ | .openEntry d _ =>
    if perms.search d then none else some .permissionDenied
  | .dupRoot | .statDirectory _ => none

namespace RootedFs

variable {T : Tree} {perms : Permissions}

/-! ### The search -/

/-- A prefix opens if the server is led to a directory that it may read. -/
lemma openResolvedPathPrefix_eq_ok : openResolvedPathPrefix T (perms.faults T) path = .ok d ↔
      T.resolveAs perms path = .ok d ∧ perms.read d = true := by
  rw [openResolvedPathPrefix, guard_eq_ok, Permissions.faults]
  cases hrslv : T.resolveAs perms path with
  | error e => simp
  | ok d' =>
    have hwalk : T.resolve path = .ok d' := Tree.walk_of_walkAs hrslv
    simp only [hwalk, ite_eq_left_iff, Except.ok.injEq]
    constructor
    · rintro ⟨hread, rfl⟩
      exact ⟨rfl, by simpa using hread⟩
    · rintro ⟨rfl, hread⟩
      exact ⟨by simp [hread], rfl⟩

/-- A directory that the server is led to but may not read is taken for an unresolved one. -/
lemma openResolvedPathPrefix_of_closed (h : T.resolveAs perms path = .ok d)
    (hread : perms.read d = false) :
    openResolvedPathPrefix T (perms.faults T) path = .error .permissionDenied := by
  simp [openResolvedPathPrefix, Faults.guard, Permissions.faults, h, hread]

/-- If the search ends at the longest prefix for every path, then a directory to which the server is
led can be read. -/
lemma read_of_longest (hlong : ∀ components d k,
      resolveDeepestParentPrefix T (perms.faults T) components = .ok (d, k) →
      T.LongestPrefix perms components d k)
    (hpath : path ≠ []) (h : T.resolveAs perms path = .ok d) : perms.read d = true := by
  by_contra hread
  rw [Bool.not_eq_true] at hread
  have htake : path.take path.length = path := take_length
  -- every prefix leads to a directory, so that no probe ends the search
  have hprb : ∀ k, ∃ r, probePrefix T (perms.faults T) path k = .ok r := by
    intro k
    obtain ⟨d', hd'⟩ : ∃ d', T.resolveAs perms (path.take k) = .ok d' := by
      rcases Nat.le_total k path.length with hk | hk
      · exact Tree.resolveAs_take hk (htake.symm ▸ h)
      · rw [take_of_length_le hk]
        exact ⟨d, h⟩
    rw [probePrefix]
    cases hread' : perms.read d' with
    | true =>
      rw [openResolvedPathPrefix_eq_ok.2 ⟨hd', hread'⟩]
      exact ⟨_, rfl⟩
    | false =>
      rw [openResolvedPathPrefix_of_closed hd' hread']
      exact ⟨none, rfl⟩
  obtain ⟨⟨d', k⟩, hsrch⟩ := Bisect.exists_search hprb 0 path.length T.root
  have hfnd : resolveDeepestParentPrefix T (perms.faults T) path = .ok (d', k) := by
    rw [resolveDeepestParentPrefix, if_neg hpath, openResolvedPathPrefix_of_closed h hread]
    exact hsrch
  have hlt : k < path.length :=
    (Bisect.search_spec (P := fun _ _ => True) (Q := fun _ => True) (fun _ _ _ => trivial)
      (fun _ _ => trivial) (length_pos_iff.2 hpath) trivial trivial hsrch).1
  exact (hlong path d' k hfnd).2.2 path.length hlt (Nat.le_refl _) d (htake.symm ▸ h)

section Readable

variable (hread : ∀ path d, path ≠ [] → T.resolveAs perms path = .ok d → perms.read d = true)
include hread

/-- If all directories can be read, the search ends at the longest prefix. -/
lemma longest_of_read (h : resolveDeepestParentPrefix T (perms.faults T) components = .ok (d, k)) :
    T.LongestPrefix perms components d k := by
  obtain ⟨hk, hd, hnext⟩ := resolveDeepestParentPrefix_bounds
    (P := fun k d => T.resolveAs perms (components.take k) = .ok d)
    (Q := fun k => components.take k ≠ [] → ∀ d, T.resolveAs perms (components.take k) ≠ .ok d)
    rfl (fun _ _ hopen => (openResolvedPathPrefix_eq_ok.1 hopen).1)
    (fun k e hopen _ hne d hd => by
      rw [openResolvedPathPrefix_eq_ok.2 ⟨hd, hread _ d hne hd⟩] at hopen
      cases hopen) h
  refine ⟨hk, hd, fun j hkj hj d' hd' => ?_⟩
  rcases hnext with rfl | hnext
  · omega
  · obtain ⟨d'', hd''⟩ := Tree.resolveAs_take (j := k + 1) hkj hd'
    refine hnext ?_ d'' hd''
    rw [Ne, take_eq_nil_iff]
    rintro (hzero | rfl)
    · cases hzero
    · simp at hj
      omega

/-- If all directories can be read, what lies before a prefix that opens does so, too. -/
lemma openable_mono (hj : 0 < j) (hjk : j ≤ k)
    (h : openResolvedPathPrefix T (perms.faults T) (components.take k) = .ok d) :
    ∃ d', openResolvedPathPrefix T (perms.faults T) (components.take j) = .ok d' := by
  by_cases hnil : components.take j = []
  · have hnone : components = [] := by
      rcases take_eq_nil_iff.1 hnil with hzero | hnone
      · omega
      · exact hnone
    subst hnone
    rw [take_nil] at h ⊢
    exact ⟨d, h⟩
  · obtain ⟨d', hd'⟩ := Tree.resolveAs_take hjk (openResolvedPathPrefix_eq_ok.1 h).1
    exact ⟨d', openResolvedPathPrefix_eq_ok.2 ⟨hd', hread _ d' hnil hd'⟩⟩

end Readable

end RootedFs

open RootedFs

/-- The search ends at the longest prefix of a parent that leads to a directory, openability is
monotone along the prefixes, and two names of an entry are anchored at the same directory, for all
paths of a tree, just in case the server may read each directory to which it is led. -/
theorem deepest_parent_iff_readable (T : Tree) (perms : Permissions) :
    ((∀ components d k, resolveDeepestParentPrefix T (perms.faults T) components = .ok (d, k) →
        T.LongestPrefix perms components d k) ∧
      (∀ (components : List String) j k d, 0 < j → j ≤ k →
        openResolvedPathPrefix T (perms.faults T) (components.take k) = .ok d →
        ∃ d', openResolvedPathPrefix T (perms.faults T) (components.take j) = .ok d') ∧
      ∀ (p q : RelPath) d j k, T.LongestPrefix perms p.dropLast d j →
        T.LongestPrefix perms q.dropLast d k → p.drop j = q.drop k →
        ∀ found found', resolveDeepestParentPrefix T (perms.faults T) p.dropLast = .ok found →
          resolveDeepestParentPrefix T (perms.faults T) q.dropLast = .ok found' →
          found.1 = d ∧ found'.1 = d ∧ p.drop found.2 = q.drop found'.2) ↔
    ∀ path d, path ≠ [] → T.resolveAs perms path = .ok d → perms.read d = true := by
  constructor
  · rintro ⟨hlongest, -, -⟩ path d hpath h
    exact read_of_longest hlongest hpath h
  · intro hread
    refine ⟨fun components d k => longest_of_read hread,
      fun components j k d hj hjk => openable_mono hread hj hjk, ?_⟩
    rintro p q d j k hp hq hentry ⟨d₁, j'⟩ ⟨d₂, k'⟩ hfound hfound'
    obtain ⟨rfl, rfl⟩ := (longest_of_read hread hfound).unique hp
    obtain ⟨rfl, rfl⟩ := (longest_of_read hread hfound').unique hq
    exact ⟨rfl, rfl, hentry⟩

/-- A directory inside one that may be searched but not read, and a link to it. -/
def passageTree : Tree where
  root := ⟨0, 0⟩
  entry d n :=
    if d = ⟨0, 0⟩ ∧ n = "passage" then some (.directory ⟨0, 1⟩)
    else if d = ⟨0, 1⟩ ∧ n = "room" then some (.directory ⟨0, 2⟩)
    else if d = ⟨0, 0⟩ ∧ n = "link" then
      some (.symlink ⟨false, [.normal "passage", .normal "room"]⟩)
    else none
  parent d := if d = ⟨0, 2⟩ then ⟨0, 1⟩ else ⟨0, 0⟩
  parent_entry {d n e} h := by
    split_ifs at h with h₁ h₂ h₃
    · cases h
      exact h₁.1.symm
    · cases h
      exact h₂.1.symm
    · cases h
  root_entry {d n} h := by
    split_ifs at h with h₁ h₂ h₃ <;> cases h

def passagePermissions : Permissions where
  search _ := true
  read d := d ≠ ⟨0, 1⟩

/-- The same entry of the directory has two names; under one the search is turned back by the
passage, although the directory behind it can be opened, and the keys of the two do not conflict. -/
theorem passage_hides_parent :
    openResolvedPathPrefix passageTree (passagePermissions.faults passageTree)
      ["passage", "room"] = .ok ⟨0, 2⟩ ∧
    resolveDeepestParentPrefix passageTree (passagePermissions.faults passageTree)
      ["passage", "room", "new"] = .ok (⟨0, 0⟩, 0) ∧
    resolveDeepestParentPrefix passageTree (passagePermissions.faults passageTree)
      ["link", "new"] = .ok (⟨0, 2⟩, 1) ∧ ¬ pathKeysConflict
      (leaseKey passageTree (passagePermissions.faults passageTree)
        ["passage", "room", "new", "entry"])
      (leaseKey passageTree (passagePermissions.faults passageTree) ["link", "new", "entry"]) := by
  decide +kernel

end DufsRam
