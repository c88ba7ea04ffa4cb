import DufsRam.InternalNames
import DufsRam.RootedFs.Tree
import Mathlib.Data.List.DropRight

/-!
# The lexical rules of paths

`path_policy.rs` reads the path of a request in two ways: a route from the raw path of its URL,
which is decoded and normalised, and a browser target from a field of its body, which must be normal
already. A path below the shared root is the list of its components there.
-/

namespace DufsRam

open List
open String (ofList toList_ofList)

/-! ### Encoding -/

/-- The value of a hexadecimal digit of either case. -/
def hexValue (b : UInt8) : Option UInt8 :=
  if 48 ≤ b ∧ b ≤ 57 then some (b - 48)
  else if 65 ≤ b ∧ b ≤ 70 then some (b - 55)
  else if 97 ≤ b ∧ b ≤ 102 then some (b - 87)
  else none

/-- A percent sign with two digits is a byte; any other percent sign stands for itself. -/
def percentDecode : List UInt8 → List UInt8
  | 37 :: h :: l :: rest =>
    match hexValue h, hexValue l with
    | some high, some low => (high * 16 + low) :: percentDecode rest
    | _, _ => 37 :: percentDecode (h :: l :: rest)
  | b :: rest => b :: percentDecode rest
  | [] => []

def decodeUri (v : String) : Option String :=
  String.fromUTF8? ⟨(percentDecode v.toUTF8.data.toList).toArray⟩

/-- The letters, the digits and `-`, `.`, `_` and `~` are not encoded. -/
def isUnreserved (b : UInt8) : Bool :=
  (decide (48 ≤ b) && decide (b ≤ 57)) || (decide (65 ≤ b) && decide (b ≤ 90)) ||
    (decide (97 ≤ b) && decide (b ≤ 122)) || b == 45 || b == 46 || b == 95 || b == 126

/-- The upper-case digit of a number below 16. -/
def upperHexDigit (n : ℕ) : Char := if n < 10 then Char.ofNat (48 + n) else Char.ofNat (55 + n)

def percentEncode (part : List Char) : List Char :=
  (ofList part).toUTF8.data.toList.flatMap fun b =>
    if isUnreserved b then [Char.ofNat b.toNat]
    else ['%', upperHexDigit (b.toNat / 16), upperHexDigit (b.toNat % 16)]

def encodeUri (v : String) : String :=
  ofList (['/'].intercalate ((v.toList.splitOn '/').map percentEncode))

/-! ### Components -/

def trimSlashes (path : List Char) : List Char :=
  (path.dropWhile (· == '/')).rdropWhile (· == '/')

/-- What stands between two slashes; nothing and a dot are passed over. -/
def pieceComponent (piece : List Char) : Option PathComponent :=
  if piece = [] ∨ piece = ['.'] then none
  else if piece = ['.', '.'] then some .parentDir
  else some (.normal (ofList piece))

/-- `Path::components` of a path that does not start with a slash. A dot at its start is kept. -/
def pathComponents (path : List Char) : List PathComponent :=
  match path.splitOn '/' with
  | [] => []
  | ['.'] :: rest => .curDir :: rest.filterMap pieceComponent
  | pieces => pieces.filterMap pieceComponent

/-! ### The code -/

def browserComponentBytesLimit : ℕ := 255

def browserRelativePathBytesLimit : ℕ := 4095

structure RoutePath where
  text : String
  deriving DecidableEq

/-- The components of a path below the root. -/
structure RootedPath where
  components : List PathComponent
  deriving DecidableEq

structure PathPolicy where
  assetsComponent : String
  deriving DecidableEq

namespace PathPolicy

def new (assetsPrefix : String) : PathPolicy where
  assetsComponent :=
    if assetsPrefix.toList.getLast? = some '/' then ofList assetsPrefix.toList.dropLast
    else assetsPrefix

variable (policy : PathPolicy)

def isReservedComponent (component : String) : Bool :=
  component == "__dufs__" || component == policy.assetsComponent

/-- The name of a component, unless it is no name, too long or internal. -/
def routePart : PathComponent → Option String
  | .normal value =>
    if browserComponentBytesLimit < value.utf8ByteSize ∨ isInternalName value then none
    else some value
  | _ => none

def joinParts (parts : List String) : String :=
  ofList (['/'].intercalate (parts.map String.toList))

def firstComponent (path : String) : String :=
  ofList ((path.toList.splitOn '/').headD [])

def parseRoute (rawPath : String) : Option RoutePath := do
  let path ← decodeUri rawPath
  if '\x00' ∈ path.toList then none
  else
    let parts ← (pathComponents (trimSlashes path.toList)).mapM routePart
    let normalized := joinParts parts
    if browserRelativePathBytesLimit < normalized.utf8ByteSize then none
    else if policy.isReservedComponent (firstComponent normalized) ∧
        rawPath ≠ "/" ++ encodeUri normalized then none
    else some ⟨normalized⟩

/-- Whether a component of a browser target is refused. -/
def refusesComponent (index : ℕ) (component : String) : Bool :=
  component.isEmpty || component == "." || component == ".." ||
    decide (browserComponentBytesLimit < component.utf8ByteSize) || isInternalName component ||
    (index == 0 && policy.isReservedComponent component)

def parseBrowserTarget (value : String) : Option RootedPath :=
  match value.toList with
  | '/' :: relative =>
    if relative = [] ∨ browserRelativePathBytesLimit < (ofList relative).utf8ByteSize ∨
        '\x00' ∈ relative then none
    else
      let pieces := (relative.splitOn '/').map ofList
      if pieces.zipIdx.any fun piece => policy.refusesComponent piece.2 piece.1 then none
      else some ⟨pieces.flatMap fun piece => pathComponents piece.toList⟩
  | _ => none

def parseListTarget (value : String) : Option RootedPath :=
  if value = "/" then some ⟨[]⟩ else policy.parseBrowserTarget value

def resolveRoute (path : RoutePath) : RootedPath :=
  if path.text.isEmpty then ⟨[]⟩ else ⟨pathComponents path.text.toList⟩

end PathPolicy

/-! ### Splitting and joining -/

/-- A piece of a path that names an entry. -/
structure IsName (piece : List Char) : Prop where
  ne_nil : piece ≠ []
  ne_dot : piece ≠ ['.']
  ne_dots : piece ≠ ['.', '.']
  slash : '/' ∉ piece

variable {path piece : List Char} {pieces : List (List Char)} {comp r v : String}

/-- A piece has no slash in it, and only characters of the path. -/
lemma mem_splitOn (h : piece ∈ path.splitOn '/') : '/' ∉ piece ∧ piece ⊆ path := by
  induction path generalizing piece with
  | nil =>
    rw [splitOn_nil, mem_singleton] at h
    subst h
    exact ⟨not_mem_nil, List.Subset.refl _⟩
  | cons c path ih =>
    rw [splitOn_cons_eq_if_modifyHead] at h
    cases hspl : path.splitOn '/' with
    | nil => exact absurd hspl (splitOn_ne_nil _ _)
    | cons first rest =>
      rw [hspl] at h ih
      split_ifs at h with hc
      · rcases mem_cons.1 h with rfl | h
        · exact ⟨not_mem_nil, nil_subset _⟩
        · exact ⟨(ih h).1, subset_cons_of_subset c (ih h).2⟩
      · rw [modifyHead_cons] at h
        rcases mem_cons.1 h with rfl | h
        · obtain ⟨hslash, hsub⟩ := ih mem_cons_self
          refine ⟨fun hmem => ?_, cons_subset_cons c hsub⟩
          rcases mem_cons.1 hmem with rfl | hmem
          · exact hc (beq_self_eq_true _)
          · exact hslash hmem
        · obtain ⟨hslash, hsub⟩ := ih (mem_cons_of_mem first h)
          exact ⟨hslash, subset_cons_of_subset c hsub⟩

lemma pieceComponent_of_isName (h : IsName piece) :
    pieceComponent piece = some (.normal (ofList piece)) := by
  simp [pieceComponent, h.ne_nil, h.ne_dot, h.ne_dots]

/-- The components of joined names are the names. -/
lemma pathComponents_join (hne : pieces ≠ []) (hnms : ∀ piece ∈ pieces, IsName piece) :
    pathComponents (['/'].intercalate pieces) =
      pieces.map fun piece => .normal (ofList piece) := by
  have hspl : (['/'].intercalate pieces).splitOn '/' = pieces :=
    splitOn_intercalate '/' (fun piece hpiece => (hnms piece hpiece).slash) hne
  have hfilt : pieces.filterMap pieceComponent =
      pieces.map fun piece => .normal (ofList piece) := by
    rw [← filterMap_eq_map]
    exact filterMap_congr fun piece hpiece => pieceComponent_of_isName (hnms piece hpiece)
  unfold pathComponents
  rw [hspl]
  split
  · exact absurd rfl hne
  · exact absurd rfl (hnms _ mem_cons_self).ne_dot
  · exact hfilt

lemma intercalate_ne_nil (hne : pieces ≠ []) (hnms : ∀ piece ∈ pieces, IsName piece) :
    ['/'].intercalate pieces ≠ [] := by
  cases pieces with
  | nil => exact absurd rfl hne
  | cons first rest =>
    have hfst := (hnms first mem_cons_self).ne_nil
    cases rest with
    | nil => simpa using hfst
    | cons second rest => simp [intercalate_cons_cons]

/-- Joined names neither start nor end with a slash. -/
lemma ends_join (hnms : ∀ piece ∈ pieces, IsName piece) :
    (['/'].intercalate pieces).head? ≠ some '/' ∧
      (['/'].intercalate pieces).getLast? ≠ some '/' := by
  induction pieces with
  | nil => simp
  | cons first rest ih =>
    obtain ⟨hfst, hrest⟩ := forall_mem_cons.1 hnms
    cases rest with
    | nil =>
      rw [intercalate_singleton]
      exact ⟨fun h => hfst.slash (mem_of_head? h),
        fun h => hfst.slash (mem_of_getLast? h)⟩
    | cons second rest =>
      have hne := intercalate_ne_nil (cons_ne_nil second rest) hrest
      rw [intercalate_cons_cons, append_assoc, List.head?_append_of_ne_nil _ hfst.ne_nil,
        List.getLast?_append_of_ne_nil _ (by simp), List.getLast?_append_of_ne_nil _ hne]
      exact ⟨fun h => hfst.slash (mem_of_head? h), (ih hrest).2⟩

lemma trimSlashes_join (hnms : ∀ piece ∈ pieces, IsName piece) :
    trimSlashes ('/' :: ['/'].intercalate pieces) = ['/'].intercalate pieces := by
  obtain ⟨hhead, hlast⟩ := ends_join hnms
  have hdrop : ('/' :: ['/'].intercalate pieces).dropWhile (· == '/') =
      ['/'].intercalate pieces := by
    rw [dropWhile_cons_of_pos (by simp), dropWhile_eq_self_iff]
    intro hpos hslash
    refine hhead ?_
    rw [List.head?_eq_getElem?, List.getElem?_eq_getElem hpos]
    simpa using hslash
  rw [trimSlashes, hdrop, rdropWhile_eq_self_iff]
  intro hne hslash
  refine hlast ?_
  rw [List.getLast?_eq_getLast_of_ne_nil hne]
  simpa using hslash

/-- The named components of a path name entries, with characters of the path. -/
lemma isName_of_mem_pathComponents {name : String}
    (h : .normal name ∈ pathComponents path) : IsName name.toList ∧ name.toList ⊆ path := by
  have hpiece : ∀ piece ∈ path.splitOn '/', pieceComponent piece = some (.normal name) →
      IsName name.toList ∧ name.toList ⊆ path := by
    intro piece hpiece hcmp
    unfold pieceComponent at hcmp
    split_ifs at hcmp with hpass hpar
    · simp at hcmp
    · obtain rfl : ofList piece = name := by simpa using hcmp
      rw [toList_ofList]
      rw [not_or] at hpass
      obtain ⟨hslash, hsub⟩ := mem_splitOn hpiece
      exact ⟨⟨hpass.1, hpass.2, hpar, hslash⟩, hsub⟩
  unfold pathComponents at h
  split at h
  · cases h
  · next rest hspl =>
    rcases mem_cons.1 h with h | h
    · cases h
    · obtain ⟨piece, hmem, hcmp⟩ := mem_filterMap.1 h
      exact hpiece piece (hspl ▸ mem_cons_of_mem _ hmem) hcmp
  · obtain ⟨piece, hmem, hcmp⟩ := mem_filterMap.1 h
    exact hpiece piece hmem hcmp

namespace PathPolicy

variable {policy : PathPolicy} {parts : List String}

/-! ### What the parsers accept -/

/-- Names that make up a path which no rule but that of the reserved components refuses. -/
structure Proper (parts : List String) : Prop where
  isName : ∀ v ∈ parts, IsName v.toList
  nul : ∀ v ∈ parts, '\x00' ∉ v.toList
  length : ∀ v ∈ parts, v.utf8ByteSize ≤ browserComponentBytesLimit
  external : ∀ v ∈ parts, isInternalName v = false
  total : (joinParts parts).utf8ByteSize ≤ browserRelativePathBytesLimit

section

variable (h : Proper parts)

include h

lemma Proper.isName_toList : ∀ piece ∈ parts.map String.toList, IsName piece := by
  intro piece hpiece
  obtain ⟨v, hv, rfl⟩ := mem_map.1 hpiece
  exact h.isName v hv

/-- Joined parts are split into the parts. -/
lemma Proper.splitOn (hne : parts ≠ []) :
    (joinParts parts).toList.splitOn '/' = parts.map String.toList := by
  rw [joinParts, toList_ofList]
  refine splitOn_intercalate '/' (fun piece hpiece => ?_) (by simpa using hne)
  exact (h.isName_toList piece hpiece).slash

lemma Proper.firstComponent (hne : parts ≠ []) :
    firstComponent (joinParts parts) = parts.headD "" := by
  rw [PathPolicy.firstComponent, h.splitOn hne]
  cases parts with
  | nil => exact absurd rfl hne
  | cons v rest => simp

lemma Proper.pathComponents (hne : parts ≠ []) :
    pathComponents (joinParts parts).toList = parts.map .normal := by
  rw [joinParts, toList_ofList, pathComponents_join (by simpa using hne) h.isName_toList,
    map_map]
  exact map_congr_left fun v _ => by simp

lemma Proper.joinParts_ne (hne : parts ≠ []) : joinParts parts ≠ "" := by
  intro hemp
  have hlist : (joinParts parts).toList = [] := by rw [hemp]; rfl
  rw [joinParts, toList_ofList] at hlist
  exact intercalate_ne_nil (by simpa using hne) h.isName_toList hlist

end

@[simp]
lemma joinParts_nil : joinParts [] = "" := rfl

/-- A route of proper parts leads to the entry with these names. -/
lemma Proper.resolveRoute (h : Proper parts) :
    resolveRoute ⟨joinParts parts⟩ = ⟨parts.map .normal⟩ := by
  by_cases hne : parts = []
  · subst hne
    rfl
  · have hemp : (joinParts parts).isEmpty = false := by
      simpa using h.joinParts_ne hne
    simp [PathPolicy.resolveRoute, hemp, h.pathComponents hne]

/-- The parts of a route are the names of its components. -/
lemma mapM_routePart {comps : List PathComponent} (h : comps.mapM routePart = some parts) :
    comps = parts.map .normal ∧ ∀ v ∈ parts,
      v.utf8ByteSize ≤ browserComponentBytesLimit ∧ isInternalName v = false := by
  induction comps generalizing parts with
  | nil =>
    cases h
    exact ⟨rfl, nofun⟩
  | cons c comps ih =>
    rw [mapM_cons] at h
    obtain ⟨v, hv, hrest⟩ := Option.bind_eq_some_iff.1 h
    obtain ⟨parts', hparts', hcons⟩ := Option.bind_eq_some_iff.1 hrest
    cases hcons
    obtain ⟨rfl, hrls⟩ := ih hparts'
    cases c with
    | curDir | parentDir => cases hv
    | normal name =>
      simp only [routePart] at hv
      split_ifs at hv with hbad
      cases hv
      rw [not_or, Nat.not_lt, Bool.not_eq_true] at hbad
      exact ⟨rfl, forall_mem_cons.2 ⟨hbad, hrls⟩⟩

lemma mapM_routePart_of_proper (h : Proper parts) :
    (parts.map PathComponent.normal).mapM routePart = some parts := by
  have hrls : ∀ v ∈ parts, routePart (.normal v) = some v := by
    intro v hv
    have hlen := h.length v hv
    simp [routePart, h.external v hv, Nat.not_lt.2 hlen]
  clear h
  induction parts with
  | nil => rfl
  | cons v rest ih =>
    obtain ⟨hv, hrest⟩ := forall_mem_cons.1 hrls
    rw [map_cons, mapM_cons, hv, ih hrest]
    rfl

/-- What a route is made of. -/
lemma parseRoute_eq_some {q : RoutePath} (h : policy.parseRoute r = some q) :
    ∃ parts, Proper parts ∧ q = ⟨joinParts parts⟩ ∧
      (policy.isReservedComponent (firstComponent (joinParts parts)) = true →
        r = "/" ++ encodeUri (joinParts parts)) := by
  obtain ⟨path, hpath, h⟩ := Option.bind_eq_some_iff.1 h
  split_ifs at h with hnul
  obtain ⟨parts, hparts, h⟩ := Option.bind_eq_some_iff.1 h
  simp only at h
  split_ifs at h with htot hrsv
  cases h
  obtain ⟨hcmps, hrls⟩ := mapM_routePart hparts
  have hmem : ∀ v ∈ parts, IsName v.toList ∧ v.toList ⊆ trimSlashes path.toList := by
    intro v hv
    apply isName_of_mem_pathComponents
    rw [hcmps]
    exact mem_map_of_mem hv
  have htrim : trimSlashes path.toList ⊆ path.toList := by
    intro c hc
    exact (dropWhile_sublist _).subset ((List.rdropWhile_prefix _ _).subset hc)
  refine ⟨parts, ⟨fun v hv => (hmem v hv).1, fun v hv hzero => ?_, fun v hv => (hrls v hv).1,
    fun v hv => (hrls v hv).2, Nat.not_lt.1 htot⟩, rfl, fun hfst => ?_⟩
  · exact hnul (htrim ((hmem v hv).2 hzero))
  · rw [not_and, not_not] at hrsv
    exact hrsv hfst

/-- The characters of joined parts are slashes or characters of a part. -/
lemma mem_intercalate {c : Char} (h : c ∈ ['/'].intercalate pieces) :
    c = '/' ∨ ∃ piece ∈ pieces, c ∈ piece := by
  induction pieces with
  | nil => simp at h
  | cons first rest ih =>
    cases rest with
    | nil =>
      rw [intercalate_singleton] at h
      exact .inr ⟨first, mem_cons_self, h⟩
    | cons second rest =>
      rw [intercalate_cons_cons, mem_append, mem_append, mem_singleton] at h
      rcases h with (h | h) | h
      · exact .inr ⟨first, mem_cons_self, h⟩
      · exact .inl h
      · rcases ih h with h | ⟨piece, hpiece, h⟩
        · exact .inl h
        · exact .inr ⟨piece, mem_cons_of_mem first hpiece, h⟩

lemma Proper.nul_joinParts (h : Proper parts) : '\x00' ∉ (joinParts parts).toList := by
  rw [joinParts, toList_ofList]
  intro hmem
  rcases mem_intercalate hmem with hslash | ⟨piece, hpiece, hmem⟩
  · cases hslash
  · obtain ⟨v, hv, rfl⟩ := mem_map.1 hpiece
    exact h.nul v hv hmem

/-- Proper parts that do not start with a reserved one are a route, however they are encoded. -/
lemma parseRoute_of_proper (h : Proper parts) (hne : parts ≠ [])
    (hdcd : decodeUri r = some v) (hv : v.toList = '/' :: (joinParts parts).toList)
    (hrsv : policy.isReservedComponent (parts.headD "") = false) :
    policy.parseRoute r = some ⟨joinParts parts⟩ := by
  have hnul : '\x00' ∉ v.toList := by
    rw [hv, mem_cons, not_or]
    exact ⟨by decide, h.nul_joinParts⟩
  have hcmps : pathComponents (trimSlashes v.toList) = parts.map .normal := by
    rw [hv, ← h.pathComponents hne, joinParts, toList_ofList,
      trimSlashes_join h.isName_toList]
  have htot := Nat.not_lt.2 h.total
  rw [← h.firstComponent hne] at hrsv
  simp [parseRoute, hdcd, hnul, hcmps, mapM_routePart_of_proper h, htot, hrsv]

/-- The rules for a component of a browser target at any place. -/
def Ordinary (component : String) : Prop :=
  component ≠ "" ∧ component ≠ "." ∧ component ≠ ".." ∧
    component.utf8ByteSize ≤ browserComponentBytesLimit ∧ isInternalName component = false

lemma refusesComponent_eq_false {index : ℕ} : policy.refusesComponent index comp = false ↔
      Ordinary comp ∧ (index = 0 → policy.isReservedComponent comp = false) := by
  simp [refusesComponent, Ordinary, and_assoc]

/-- No component is refused: all are ordinary, and the first one is not reserved. -/
lemma any_refusesComponent_eq_false :
    (parts.zipIdx.any fun piece => policy.refusesComponent piece.2 piece.1) = false ↔
      (∀ v ∈ parts, Ordinary v) ∧
        (parts ≠ [] → policy.isReservedComponent (parts.headD "") = false) := by
  have hlater : ∀ (l : List String) (k : ℕ), 0 < k →
      ((∀ piece ∈ l.zipIdx k, policy.refusesComponent piece.2 piece.1 = false) ↔
        ∀ v ∈ l, Ordinary v) := by
    intro l
    induction l with
    | nil => simp
    | cons v l ih =>
      intro k hk
      rw [zipIdx_cons, forall_mem_cons, forall_mem_cons, ih (k + 1) (by omega),
        refusesComponent_eq_false]
      have hne : k ≠ 0 := by omega
      simp [hne]
  rw [any_eq_false]
  simp only [Bool.not_eq_true]
  cases parts with
  | nil => simp
  | cons v l =>
    rw [zipIdx_cons, forall_mem_cons, forall_mem_cons, hlater l _ (by omega),
      refusesComponent_eq_false]
    tauto

lemma isName_of_ordinary (h : Ordinary comp) (hslash : '/' ∉ comp.toList) : IsName comp.toList := by
  obtain ⟨hemp, hdot, hdots, -, -⟩ := h
  have hne : ∀ other : String, comp ≠ other → comp.toList ≠ other.toList :=
    fun other h heq => h (String.toList_injective heq)
  exact ⟨hne "" hemp, hne "." hdot, hne ".." hdots, hslash⟩

lemma flatMap_pathComponents (h : ∀ v ∈ parts, IsName v.toList) :
    (parts.flatMap fun piece => DufsRam.pathComponents piece.toList) = parts.map .normal := by
  rw [← flatMap_singleton' (parts.map PathComponent.normal), flatMap_map]
  refine flatMap_congr fun v hv => ?_
  have hsgl := pathComponents_join (cons_ne_nil v.toList [])
    (forall_mem_singleton.2 (h v hv))
  simpa using hsgl

/-- What a browser target is made of. -/
lemma parseBrowserTarget_eq_some {p : RootedPath} : policy.parseBrowserTarget v = some p ↔
      ∃ parts ≠ [], Proper parts ∧ policy.isReservedComponent (parts.headD "") = false ∧
        v.toList = '/' :: (joinParts parts).toList ∧ p = ⟨parts.map .normal⟩ := by
  constructor
  · intro h
    unfold parseBrowserTarget at h
    split at h
    · next relative hv =>
      split_ifs at h with hrel
      simp only at h
      split_ifs at h with href
      cases h
      rw [Bool.not_eq_true, any_refusesComponent_eq_false] at href
      rw [not_or, not_or, Nat.not_lt] at hrel
      obtain ⟨hordn, hfst⟩ := href
      obtain ⟨hnonempty, htot, hnul⟩ := hrel
      set parts := (relative.splitOn '/').map ofList with hparts
      have hpieces : parts.map String.toList = relative.splitOn '/' := by
        rw [hparts, map_map]
        exact (map_congr_left fun v _ => toList_ofList).trans (map_id _)
      have hjoin : joinParts parts = ofList relative := by
        rw [joinParts, hpieces, intercalate_splitOn]
      have hmem : ∀ v ∈ parts, v.toList ∈ relative.splitOn '/' := by
        intro v hv
        rw [← hpieces]
        exact mem_map_of_mem hv
      have hne : parts ≠ [] := by
        intro hnil
        rw [hnil, map_nil] at hpieces
        exact splitOn_ne_nil _ _ hpieces.symm
      have hproper : Proper parts := by
        refine ⟨fun v hv => isName_of_ordinary (hordn v hv) (mem_splitOn (hmem v hv)).1,
          fun v hv hzero => hnul ((mem_splitOn (hmem v hv)).2 hzero),
          fun v hv => (hordn v hv).2.2.2.1, fun v hv => (hordn v hv).2.2.2.2, ?_⟩
        rwa [hjoin]
      refine ⟨parts, hne, hproper, hfst hne, ?_, ?_⟩
      · rw [hv, hjoin, toList_ofList]
      · rw [flatMap_pathComponents hproper.isName]
    · cases h
  · rintro ⟨parts, hne, h, hrsv, hv, rfl⟩
    have hpieces : ((joinParts parts).toList.splitOn '/').map ofList = parts := by
      rw [h.splitOn hne, map_map]
      exact (map_congr_left fun v _ => String.ofList_toList).trans (map_id _)
    have hordn : ∀ v ∈ parts, Ordinary v := by
      intro v hv
      have hname := h.isName v hv
      refine ⟨?_, ?_, ?_, h.length v hv, h.external v hv⟩
      · rintro rfl
        exact hname.ne_nil rfl
      · rintro rfl
        exact hname.ne_dot rfl
      · rintro rfl
        exact hname.ne_dots rfl
    have href := any_refusesComponent_eq_false.2 ⟨hordn, fun _ => hrsv⟩
    have hnonempty : (joinParts parts).toList ≠ [] := by
      simpa using h.joinParts_ne hne
    have htot := Nat.not_lt.2 h.total
    simp [parseBrowserTarget, hv, hpieces, href, hnonempty, htot, h.nul_joinParts,
      flatMap_pathComponents h.isName]

end PathPolicy

open PathPolicy

/-- The component names an entry: it is no dot or dots, has no slash or zero byte in it, and no
internal name. -/
def IsPlain (c : PathComponent) : Prop :=
  ∃ name, c = .normal name ∧ IsName name.toList ∧ '\x00' ∉ name.toList ∧
    isInternalName name = false

/-- The two parsers agree on all paths but those of reserved routes and the root, what they produce
are plain names below the root, and a reserved route is accepted in its canonical encoding only. -/
theorem route_and_target_agree (policy : PathPolicy) :
    (∀ r v p, decodeUri r = some v → policy.parseBrowserTarget v = some p →
      ∃ q, policy.parseRoute r = some q ∧ resolveRoute q = p) ∧
    (∀ r q, policy.parseRoute r = some q → q.text ≠ "" →
      policy.isReservedComponent (firstComponent q.text) = false →
      policy.parseBrowserTarget ("/" ++ q.text) = some (resolveRoute q)) ∧
    (∀ v p, policy.parseBrowserTarget v = some p →
      p.components ≠ [] ∧ ∀ c ∈ p.components, IsPlain c) ∧
    (∀ r q, policy.parseRoute r = some q → (q.text ≠ "" → (resolveRoute q).components ≠ []) ∧
      (∀ c ∈ (resolveRoute q).components, IsPlain c) ∧
      (policy.isReservedComponent (firstComponent q.text) = true →
        r = "/" ++ encodeUri q.text)) := by
  have hplain : ∀ parts, Proper parts → ∀ c ∈ parts.map PathComponent.normal, IsPlain c := by
    intro parts h c hc
    obtain ⟨v, hv, rfl⟩ := mem_map.1 hc
    exact ⟨v, rfl, h.isName v hv, h.nul v hv, h.external v hv⟩
  refine ⟨?_, ?_, ?_, ?_⟩
  · intro r v p hdecode htarget
    obtain ⟨parts, hne, h, hreserved, hv, rfl⟩ := parseBrowserTarget_eq_some.1 htarget
    exact ⟨_, parseRoute_of_proper h hne hdecode hv hreserved, h.resolveRoute⟩
  · intro r q hroute hq hreserved
    obtain ⟨parts, h, rfl, -⟩ := parseRoute_eq_some hroute
    have hne : parts ≠ [] := by
      rintro rfl
      exact hq rfl
    rw [h.firstComponent hne] at hreserved
    exact parseBrowserTarget_eq_some.2 ⟨parts, hne, h, hreserved, by simp, h.resolveRoute⟩
  · intro v p htarget
    obtain ⟨parts, hne, h, -, -, rfl⟩ := parseBrowserTarget_eq_some.1 htarget
    exact ⟨by simpa using hne, hplain parts h⟩
  · intro r q hroute
    obtain ⟨parts, h, rfl, hreserved⟩ := parseRoute_eq_some hroute
    rw [h.resolveRoute]
    refine ⟨fun hq => ?_, hplain parts h, hreserved⟩
    rintro hnil
    exact hq (by rw [map_eq_nil_iff.1 hnil, joinParts_nil])

/-- A name with a blank, which is encoded in the URL. -/
theorem route_and_target_agree_blank :
    ∃ q, (PathPolicy.new "__dufs_assets_test/").parseRoute "/a%20b" = some q ∧
      resolveRoute q = ⟨[.normal "a b"]⟩ :=
  (route_and_target_agree (PathPolicy.new "__dufs_assets_test/")).1 "/a%20b" "/a b"
    ⟨[.normal "a b"]⟩ (by decide +kernel) (by decide +kernel)

/-- The route of the root is accepted and does not lie below it. -/
theorem root_route_not_below : (PathPolicy.new "__dufs_assets_test/").parseRoute "/" = some ⟨""⟩ ∧
      (resolveRoute ⟨""⟩).components = [] := by
  decide +kernel

end DufsRam
