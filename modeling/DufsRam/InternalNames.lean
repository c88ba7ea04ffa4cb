import DufsRam.Lib.PathMap
import DufsRam.PathCoordinator.Key

/-!
# Reserved names

The server keeps stages, trash and probes beside the files of its clients, under names that no
request may use (`internal_names.rs`). A path of the server therefore overlaps a path of a request
only if it does so above the reserved name.
-/

namespace DufsRam

open List

/-! ### The names -/

def uploadTempPrefix : String := ".dufs-upload-"

def uploadTempSuffix : String := ".part"

def uploadStageDirectory : String := ".dufs-upload-stages"

def readinessPrefix : String := ".dufs-readiness-"

def readinessSuffix : String := ".probe"

def deleteTrashPrefix : String := ".dufs-upload-delete-"

def deleteTrashSuffix : String := ".trash"

def quarantinePrefix : String := ".dufs-quarantine-"

def quarantineSuffix : String := ".hold"

/-- A digit of `encode_hex`. -/
def hexDigit (n : ℕ) : Char := if n < 10 then Char.ofNat (48 + n) else Char.ofNat (87 + n)

def isLowerHex (c : Char) : Bool := c.isDigit || (decide ('a' ≤ c) && decide (c ≤ 'f'))

def encodeHex {w : ℕ} (digits : ℕ) (bytes : BitVec w) : List Char :=
  (range digits).map fun i => hexDigit (bytes.toNat / 16 ^ (digits - 1 - i) % 16)

/-- The positions of the hyphens of a UUID. -/
def uuidHyphens : List ℕ := [8, 13, 18, 23]

/-- The hyphenated form of a UUID. -/
def formatUuid (id : Uuid) : List Char :=
  (range 36).map fun i =>
    if i ∈ uuidHyphens then '-'
    else
      let digit := i - uuidHyphens.countP fun k => decide (k < i)
      hexDigit (id.toNat / 16 ^ (31 - digit) % 16)

/-- The string is the hyphenated lower-case form of a UUID. -/
def isCanonicalUuid (value : List Char) : Bool :=
  decide (value.length = 36) && (range 36).all fun i =>
    match value[i]? with
    | some c => if i ∈ uuidHyphens then decide (c = '-') else isLowerHex c
    | none => false

/-- `strip_prefix` and then `strip_suffix`. -/
def stripAffixes (pre suf : String) (name : List Char) : Option (List Char) :=
  if pre.toList <+: name then
    let value := name.drop pre.toList.length
    if suf.toList <:+ value then some (value.take (value.length - suf.toList.length)) else none
  else none

def isReservedName (pre suf name : String) : Bool :=
  (stripAffixes pre suf name.toList).any isCanonicalUuid

inductive InternalEntryName where
  | stageDirectory
  | readiness
  | deleteTrash
  | quarantine
  deriving DecidableEq

def classifyInternalName (fileName : String) : Option InternalEntryName :=
  if fileName = uploadStageDirectory then some .stageDirectory
  else if isReservedName quarantinePrefix quarantineSuffix fileName then some .quarantine
  else if isReservedName deleteTrashPrefix deleteTrashSuffix fileName then some .deleteTrash
  else if isReservedName readinessPrefix readinessSuffix fileName then some .readiness
  else none

def isInternalName (fileName : String) : Bool := (classifyInternalName fileName).isSome

/-! ### The paths -/

def uploadStageName (targetTag : List Char) (id : Uuid) : String :=
  uploadTempPrefix ++ String.ofList targetTag ++ "-" ++ String.ofList (formatUuid id) ++
    uploadTempSuffix

/-- `upload_temp_path`; the name of the target enters through its digest. -/
def uploadTempPath (digest : String → BitVec 256) (path : RelPath) (id : Uuid) : Option RelPath :=
  path.getLast?.map fun fileName =>
    path.dropLast ++
      [uploadStageDirectory, uploadStageName (encodeHex 64 (digest fileName)) id]

def deleteTrashName (id : Uuid) : String :=
  deleteTrashPrefix ++ String.ofList (formatUuid id) ++ deleteTrashSuffix

def quarantineName (id : Uuid) : String :=
  quarantinePrefix ++ String.ofList (formatUuid id) ++ quarantineSuffix

/-- `trash_path_for_id`; the root has no trash. -/
def trashPathForId (path : RelPath) (id : Uuid) : Option RelPath :=
  if path = [] then none else some (path.dropLast ++ [deleteTrashName id])

/-! ### Generated names are reserved -/

lemma isLowerHex_hexDigit {n : ℕ} (h : n < 16) : isLowerHex (hexDigit n) = true := by
  revert n
  decide

lemma isCanonicalUuid_formatUuid (id : Uuid) : isCanonicalUuid (formatUuid id) = true := by
  simp only [isCanonicalUuid, formatUuid, Bool.and_eq_true, decide_eq_true_eq, length_map,
    length_range, all_eq_true, mem_range, true_and]
  intro i hi
  rw [getElem?_map, getElem?_range hi]
  by_cases hhyphen : i ∈ uuidHyphens
  · simp [hhyphen]
  · simp only [Option.map_some, if_neg hhyphen]
    exact isLowerHex_hexDigit (Nat.mod_lt _ (by decide))

lemma stripAffixes_append (pre suf : String) (value : List Char) :
    stripAffixes pre suf (pre.toList ++ value ++ suf.toList) = some value := by
  have hpre : pre.toList <+: pre.toList ++ value ++ suf.toList := by
    rw [append_assoc]
    exact prefix_append _ _
  rw [stripAffixes, if_pos hpre, append_assoc, drop_left]
  simp

lemma isInternalName_deleteTrashName (id : Uuid) : isInternalName (deleteTrashName id) = true := by
  have hrsv : isReservedName deleteTrashPrefix deleteTrashSuffix (deleteTrashName id) = true := by
    simp only [isReservedName, deleteTrashName, String.toList_append, String.toList_ofList,
      stripAffixes_append, Option.any_some, isCanonicalUuid_formatUuid]
  unfold isInternalName classifyInternalName
  split_ifs <;> simp_all

lemma classifyInternalName_quarantineName (id : Uuid) :
    classifyInternalName (quarantineName id) = some .quarantine := by
  have hrsv : isReservedName quarantinePrefix quarantineSuffix (quarantineName id) = true := by
    simp only [isReservedName, quarantineName, String.toList_append, String.toList_ofList,
      stripAffixes_append, Option.any_some, isCanonicalUuid_formatUuid]
  have hstg : quarantineName id ≠ uploadStageDirectory := by
    intro h
    have hlen := congrArg (fun name : String => name.toList.length) h
    simp only [quarantineName, String.toList_append, length_append, String.toList_ofList,
      formatUuid, length_map, length_range] at hlen
    revert hlen
    decide
  rw [classifyInternalName, if_neg hstg, if_pos hrsv]

lemma isInternalName_quarantineName (id : Uuid) : isInternalName (quarantineName id) = true := by
  rw [isInternalName, classifyInternalName_quarantineName, Option.isSome_some]

lemma deleteTrashName_ne_quarantineName (id id' : Uuid) :
    deleteTrashName id ≠ quarantineName id' := by
  intro h
  have hchar := congrArg (fun name : String => name.toList[6]?) h
  simp only [deleteTrashName, quarantineName, String.toList_append, append_assoc] at hchar
  rw [getElem?_append_left (by decide), getElem?_append_left (by decide)] at hchar
  revert hchar
  decide

lemma isInternalName_uploadStageDirectory : isInternalName uploadStageDirectory = true := by
  simp [isInternalName, classifyInternalName]

/-! ### Paths of the server and of requests -/

/-- A path that a request may name. -/
def RelPath.Requestable (p : RelPath) : Prop := p ≠ [] ∧ ∀ c ∈ p, isInternalName c = false

instance (p : RelPath) : Decidable p.Requestable := inferInstanceAs (Decidable (_ ∧ _))

variable {p path : RelPath} {name : String} {id : Uuid}

/-- A path with a reserved name overlaps the path of a request only above the reserved name. -/
lemma not_lexicalOverlap_internal {parents rest : RelPath}
    (hp : p.Requestable) (hname : isInternalName name = true) (hpars : ¬ p <+: parents) :
    ¬ lexicalOverlap p (parents ++ name :: rest) := by
  have hnot : name ∉ p := by
    intro hmem
    simp [hp.2 name hmem] at hname
  rintro (hov | hov)
  · exact hnot (hov.subset (by simp))
  · rcases prefix_or_prefix_of_prefix hov (prefix_append parents (name :: rest)) with
      hwin | ⟨below, rfl⟩
    · exact hpars hwin
    · rw [prefix_append_right_inj] at hov
      cases below with
      | nil => exact hpars (by simp)
      | cons c below =>
        have hc := (cons_prefix_cons.1 hov).1
        exact hnot (by simp [hc])

lemma not_prefix_dropLast_of_not_overlap {t : RelPath} (h : ¬ lexicalOverlap p t) :
    ¬ p <+: t.dropLast :=
  fun hp => h (.inr (hp.trans <| dropLast_prefix t))

lemma uploadTempPath_eq_some {digest : String → BitVec 256} {stagePath : RelPath}
    (h : uploadTempPath digest path id = some stagePath) :
    ∃ name, stagePath = path.dropLast ++ uploadStageDirectory :: [name] := by
  obtain ⟨fileName, -, rfl⟩ := Option.map_eq_some_iff.1 h
  exact ⟨_, rfl⟩

lemma trashPathForId_eq_some {trashPath : RelPath} (h : trashPathForId path id = some trashPath) :
    trashPath = path.dropLast ++ [deleteTrashName id] := by
  unfold trashPathForId at h
  split_ifs at h
  exact (Option.some.inj h).symm

/-- Paths of requests followed by a reserved name overlap only if they are the same so far. -/
lemma eq_of_prefix_internal {a b u v : RelPath} {x y : String}
    (ha : ∀ c ∈ a, isInternalName c = false) (hb : ∀ c ∈ b, isInternalName c = false)
    (hx : isInternalName x = true) (hy : isInternalName y = true)
    (h : a ++ x :: u <+: b ++ y :: v) : a = b ∧ x = y := by
  induction a generalizing b with
  | nil =>
    cases b with
    | nil => exact ⟨rfl, (cons_prefix_cons.1 h).1⟩
    | cons c b =>
      have hc := (cons_prefix_cons.1 h).1
      simp [← hc, hx] at hb
  | cons d a ih =>
    cases b with
    | nil =>
      have hd := (cons_prefix_cons.1 h).1
      simp [hd, hy] at ha
    | cons c b =>
      obtain ⟨rfl, hrest⟩ := cons_prefix_cons.1 h
      obtain ⟨rfl, hxy⟩ := ih (fun e he => ha e (mem_cons_of_mem _ he))
        (fun e he => hb e (mem_cons_of_mem _ he)) hrest
      exact ⟨rfl, hxy⟩

lemma not_internal_dropLast (h : p.Requestable) : ∀ c ∈ p.dropLast, isInternalName c = false :=
  fun c hc => h.2 c (mem_of_mem_dropLast hc)

/-- A path that a request may name overlaps the trash of another only above it. -/
lemma lexicalOverlap_of_trash {q : RelPath} (hq : q.Requestable)
    (hname : isInternalName name = true) (h : lexicalOverlap (path.dropLast ++ [name]) q) :
    lexicalOverlap path q := by
  have hnot : name ∉ q := by
    intro hmem
    simp [hq.2 name hmem] at hname
  rcases h with h | h
  · rcases prefix_concat_iff.1 h with rfl | h
    · exact absurd (by simp) hnot
    · exact .inl (h.trans <| dropLast_prefix path)
  · exact absurd (h.subset (by simp)) hnot

end DufsRam
