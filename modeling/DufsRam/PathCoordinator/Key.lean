import DufsRam.StateStore.Model
import Mathlib.Data.List.Infix

/-!
# Lease keys

A request holds its paths under keys that combine the lexical path with what the path resolved to:
the deepest directory that exists, the names below it, and the physical ancestry of that directory.
Two keys conflict when one path may name the other's entry or an entry above it.
-/

namespace DufsRam

/-- A file by device and inode. -/
abbrev FileIdentity := StoredFileIdentity

structure ResolvedPathKey where
  resolvedParent : FileIdentity
  unresolvedTail : List String
  ancestorDirectories : List FileIdentity
  targetDirectory : Option FileIdentity
  deriving DecidableEq

structure LeaseKey where
  lexical : RelPath
  resolved : ResolvedPathKey
  deriving DecidableEq

/-- The key that stands for the whole tree below the root. -/
def conservativePathKey (root : FileIdentity) : ResolvedPathKey where
  resolvedParent := root
  unresolvedTail := []
  ancestorDirectories := [root]
  targetDirectory := some root

/-! ### Lexical overlap -/

/-- One path is the other or an ancestor of it. -/
def lexicalOverlap (p q : RelPath) : Prop := q <+: p ∨ p <+: q

instance (p q : RelPath) : Decidable (lexicalOverlap p q) := inferInstanceAs (Decidable (_ ∨ _))

lemma lexicalOverlap_comm {p q : RelPath} : lexicalOverlap p q ↔ lexicalOverlap q p := Or.comm

/-! ### Conflicts of resolved keys -/

def anchoredTailIsPrefix (left right : ResolvedPathKey) : Prop :=
  left.resolvedParent = right.resolvedParent ∧
  left.unresolvedTail.length ≤ right.unresolvedTail.length ∧
  ∀ p ∈ left.unresolvedTail.zip right.unresolvedTail, p.1 = p.2

instance (left right : ResolvedPathKey) : Decidable (anchoredTailIsPrefix left right) :=
  inferInstanceAs (Decidable (_ ∧ _ ∧ _))

/-- The directory that one key names is an ancestor of the other's entry. -/
def targetContains (left right : ResolvedPathKey) : Prop :=
  ∃ d ∈ left.targetDirectory, d ∈ right.ancestorDirectories

instance (left right : ResolvedPathKey) : Decidable (targetContains left right) :=
  match h : left.targetDirectory with
  | none => isFalse (by simp [targetContains, h])
  | some d => decidable_of_iff (d ∈ right.ancestorDirectories) (by simp [targetContains, h])

def resolvedPathsConflict (left right : ResolvedPathKey) : Prop :=
  anchoredTailIsPrefix left right ∨ anchoredTailIsPrefix right left ∨
  targetContains left right ∨ targetContains right left

instance (left right : ResolvedPathKey) : Decidable (resolvedPathsConflict left right) :=
  inferInstanceAs (Decidable (_ ∨ _ ∨ _ ∨ _))

variable {left right : ResolvedPathKey}

lemma resolvedPathsConflict_comm :
    resolvedPathsConflict left right ↔ resolvedPathsConflict right left := by
  unfold resolvedPathsConflict
  tauto

/-- The comparison by length and position says that one tail is a prefix of the other. -/
lemma anchoredTailIsPrefix_iff : anchoredTailIsPrefix left right ↔
      left.resolvedParent = right.resolvedParent ∧
        left.unresolvedTail <+: right.unresolvedTail := by
  have hzip : ∀ l r : List String, (l.length ≤ r.length ∧ ∀ p ∈ l.zip r, p.1 = p.2) ↔ l <+: r := by
    intro l
    induction l with
    | nil => simp
    | cons a l ih =>
      intro r
      cases r with
      | nil => simp
      | cons b r =>
        simp only [List.length_cons, Nat.add_le_add_iff_right, List.zip_cons_cons,
          List.mem_cons, forall_eq_or_imp, List.cons_prefix_cons, ← ih r]
        tauto
  unfold anchoredTailIsPrefix
  rw [hzip]

/-! ### Conflicts of lease keys -/

def pathKeysConflict (left right : LeaseKey) : Prop :=
  lexicalOverlap left.lexical right.lexical ∨ resolvedPathsConflict left.resolved right.resolved

instance (left right : LeaseKey) : Decidable (pathKeysConflict left right) :=
  inferInstanceAs (Decidable (_ ∨ _))

lemma pathKeysConflict_comm {left right : LeaseKey} :
    pathKeysConflict left right ↔ pathKeysConflict right left := by
  unfold pathKeysConflict
  rw [lexicalOverlap_comm, resolvedPathsConflict_comm]

def pathsConflict (left right : List LeaseKey) : Prop :=
  ∃ l ∈ left, ∃ r ∈ right, pathKeysConflict l r

instance (left right : List LeaseKey) : Decidable (pathsConflict left right) :=
  inferInstanceAs (Decidable (∃ l ∈ left, ∃ r ∈ right, pathKeysConflict l r))

lemma pathsConflict_comm {left right : List LeaseKey} :
    pathsConflict left right ↔ pathsConflict right left := by
  constructor
  · rintro ⟨l, hl, r, hr, h⟩
    exact ⟨r, hr, l, hl, pathKeysConflict_comm.1 h⟩
  · rintro ⟨r, hr, l, hl, h⟩
    exact ⟨l, hl, r, hr, pathKeysConflict_comm.1 h⟩

end DufsRam
