import DufsRam.PathCoordinator.Key
import Mathlib.Logic.Relation

/-!
# The shared tree

A directory tree with symbolic links below the shared root, and the way `openat2` walks it with
`RESOLVE_BENEATH`: a link that is absolute or leads above the root is refused, and so are too many
links on one path.
-/

namespace DufsRam

open List

inductive FileType where
  | regularFile
  | directory
  | symlink
  | other
  deriving DecidableEq

/-- The kinds of `std::io::Error` that are told apart. -/
inductive ErrorKind where
  | notFound
  | notADirectory
  | permissionDenied
  | alreadyExists
  | invalidInput
  | invalidData
  | unsupported
  | timedOut
  | interrupted
  | storageFull
  | crossesDevices
  | filesystemLoop
  | other
  deriving DecidableEq

inductive PathComponent where
  | normal (name : String)
  | curDir
  | parentDir
  deriving DecidableEq

structure LinkTarget where
  absolute : Bool
  components : List PathComponent
  deriving DecidableEq

inductive Entry where
  | file (fileType : FileType)
  | directory (identity : FileIdentity)
  | symlink (target : LinkTarget)
  deriving DecidableEq

/-- The entries of every directory, and what `..` is in it. A directory has one parent, and the
root is in none. -/
structure Tree where
  root : FileIdentity
  entry : FileIdentity → String → Option Entry
  parent : FileIdentity → FileIdentity
  parent_entry : ∀ {d n e}, entry d n = some (.directory e) → parent e = d
  root_entry : ∀ {d n}, entry d n ≠ some (.directory root)

variable {e : ErrorKind} {d : FileIdentity} {xs ys : List PathComponent}

namespace Tree

variable (T : Tree)

/-! ### Containment -/

/-- The directory is an entry of the other. -/
def Child (d e : FileIdentity) : Prop := ∃ n, T.entry d n = some (.directory e)

/-- The second directory is the first or is inside it, at any depth. -/
def Within : FileIdentity → FileIdentity → Prop := Relation.ReflTransGen T.Child

/-! ### Walking a path -/

/-- How a walk goes on at a link with what is left of the path. -/
abbrev Follow : Type :=
  FileIdentity → LinkTarget → List PathComponent → Except ErrorKind FileIdentity

/-- Walk to a directory; `follow` goes on at a link with what is left of the path. -/
def walkWith (follow : Follow) (d : FileIdentity) :
    List PathComponent → Except ErrorKind FileIdentity
  | [] => .ok d
  | .curDir :: rest => walkWith follow d rest
  | .parentDir :: rest =>
    if d = T.root then .error .crossesDevices else walkWith follow (T.parent d) rest
  | .normal n :: rest =>
    match T.entry d n with
    | none => .error .notFound
    | some (.file _) => .error .notADirectory
    | some (.directory e) => walkWith follow e rest
    | some (.symlink target) => follow d target rest

/-- Walk to a directory over at most this many links. -/
def walk : ℕ → FileIdentity → List PathComponent → Except ErrorKind FileIdentity
  | 0 => T.walkWith fun _ _ _ => .error .filesystemLoop
  | links + 1 => T.walkWith fun d target rest =>
    if target.absolute then .error .crossesDevices else walk links d (target.components ++ rest)

/-- `MAXSYMLINKS` of the kernel. -/
def maxSymlinks : ℕ := 40

/-- The directory that a path below the root leads to. -/
def resolve (path : RelPath) : Except ErrorKind FileIdentity :=
  T.walk maxSymlinks T.root (path.map .normal)

/-! ### The entries on the way -/

/-- The entries that `walkWith` looks up; `follow` gives those behind a link. -/
def lookupsWith
    (follow : FileIdentity → LinkTarget → List PathComponent → List (FileIdentity × String))
    (d : FileIdentity) : List PathComponent → List (FileIdentity × String)
  | [] => []
  | .curDir :: rest => lookupsWith follow d rest
  | .parentDir :: rest => if d = T.root then [] else lookupsWith follow (T.parent d) rest
  | .normal n :: rest =>
    (d, n) :: match T.entry d n with
      | none | some (.file _) => []
      | some (.directory e) => lookupsWith follow e rest
      | some (.symlink target) => follow d target rest

def lookups : ℕ → FileIdentity → List PathComponent → List (FileIdentity × String)
  | 0 => T.lookupsWith fun _ _ _ => []
  | links + 1 => T.lookupsWith fun d target rest =>
    if target.absolute then [] else lookups links d (target.components ++ rest)

/-- The way to the entry of `s` leads through the entry of `m`, a directory or a link. -/
def Traverses (s m : RelPath) : Prop :=
  ∃ parents name d, m = parents ++ [name] ∧ T.resolve parents = .ok d ∧
    (d, name) ∈ T.lookups maxSymlinks T.root (s.dropLast.map .normal) ∧
    ((∃ e, T.entry d name = some (.directory e)) ∨
      ∃ target, T.entry d name = some (.symlink target))

variable {T}

lemma walkWith_append_of_error {follow : Follow}
    (hfol : ∀ {d target rest}, follow d target rest = .error e →
      follow d target (rest ++ ys) = .error e) (h : T.walkWith follow d xs = .error e) :
    T.walkWith follow d (xs ++ ys) = .error e := by
  induction xs generalizing d with
  | nil => cases h
  | cons c rest ih =>
    cases c with
    | curDir => exact ih h
    | parentDir =>
      simp only [cons_append, walkWith] at h ⊢
      split at h
      · rw [if_pos ‹_›]
        exact h
      · rw [if_neg ‹_›]
        exact ih h
    | normal n =>
      simp only [cons_append, walkWith] at h ⊢
      cases hent : T.entry d n with
      | none => simpa [hent] using h
      | some entry =>
        cases entry with
        | file fileType => simpa [hent] using h
        | directory e => exact ih (by simpa [hent] using h)
        | symlink target => exact hfol (by simpa [hent] using h)

/-- A walk that fails on a part of its path fails there on the whole path. -/
lemma walk_append_of_error {links : ℕ}
    (h : T.walk links d xs = .error e) : T.walk links d (xs ++ ys) = .error e := by
  induction links generalizing d xs with
  | zero =>
    rw [walk] at h ⊢
    exact walkWith_append_of_error id h
  | succ links ih =>
    refine walkWith_append_of_error (fun {d target rest} h => ?_) h
    split at h
    · rw [if_pos ‹_›]
      exact h
    · rw [if_neg ‹_›, ← append_assoc]
      exact ih h

/-- What lies before a directory on its path is a directory, too. -/
lemma resolve_take {path : RelPath} {j k : ℕ} (hjk : j ≤ k)
    (h : T.resolve (path.take k) = .ok d) : ∃ d', T.resolve (path.take j) = .ok d' := by
  cases hj : T.resolve (path.take j) with
  | ok d' => exact ⟨d', rfl⟩
  | error e =>
    have hspl := take_append_drop j (path.take k)
    rw [take_take, Nat.min_eq_left hjk] at hspl
    have herr : T.resolve (path.take k) = .error e := by
      rw [← hspl, resolve, map_append]
      exact walk_append_of_error hj
    cases herr.symm.trans h

end Tree

end DufsRam
