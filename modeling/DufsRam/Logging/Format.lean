import DufsRam.Logging.Line
import DufsRam.StateStore.Model
import Mathlib.Data.List.DropRight

/-!
# The format of the access log

`HttpLogger::from_str` reads a format character by character into literals, variables and request
headers. A reference is a dollar sign with the letters, digits and underscores after it.
-/

namespace DufsRam.Logging

open List

/-- The classes of characters of the Unicode standard, as far as the reader asks for them. -/
structure CharClasses where
  isAlphanumeric : Char → Bool
  isWhitespace : Char → Bool
  alphanumeric_dollar : isAlphanumeric '$' = false
  alphanumeric_space : isAlphanumeric ' ' = false
  whitespace_space : isWhitespace ' ' = true
  whitespace_dollar : isWhitespace '$' = false
  whitespace_underscore : isWhitespace '_' = false
  disjoint : ∀ c, isAlphanumeric c = true → isWhitespace c = false

/-- The variables of a format. -/
inductive LogVariable where
  | request | requestMethod | requestUri | remoteUser | timeLocal | timeIso8601 | msec
  | remoteAddr | status | operationId | operationState | logLevel
  deriving DecidableEq

def LogVariable.name : LogVariable → String
  | request => "request"
  | requestMethod => "request_method"
  | requestUri => "request_uri"
  | remoteUser => "remote_user"
  | timeLocal => "time_local"
  | timeIso8601 => "time_iso8601"
  | msec => "msec"
  | remoteAddr => "remote_addr"
  | status => "status"
  | operationId => "operation_id"
  | operationState => "operation_state"
  | logLevel => "log_level"

def LogVariable.all : List LogVariable :=
  [request, requestMethod, requestUri, remoteUser, timeLocal, timeIso8601, msec, remoteAddr, status,
    operationId, operationState, logLevel]

/-- `LogNeeds::supports`. -/
def supported (name : String) : Option LogVariable := LogVariable.all.find? fun v => v.name == name

inductive LogElement where
  | var (v : LogVariable)
  | header (name : String) (sensitive : Bool)
  | literal (text : List Char)
  deriving DecidableEq

/-- `HeaderName::from_bytes` on a name without upper case. -/
def headerName (name : List Char) : Option String :=
  if !name.isEmpty && name.all (fun c => c.isAlphanum || "!#$%&'*+-.^_`|~".toList.contains c) then
    some (String.ofList name)
  else none

def isSensitiveHeader (name : String) : Bool :=
  ["authorization", "proxy-authorization", "cookie", "x-csrf-token"].contains name

/-- The element that a finished reference becomes. -/
def flushReference (cache : List Char) : Except String (List LogElement) :=
  if "$http_".toList.isPrefixOf cache then
    let normalized := (cache.drop 6).map fun c => if c = '_' then '-' else c.toLower
    match headerName normalized with
    | none => .error ("Invalid HTTP request header log variable `" ++ String.ofList cache ++ "`")
    | some name => .ok [.header name (isSensitiveHeader name)]
  else
    match cache with
    | '$' :: value =>
      match supported (String.ofList value) with
      | none => .error ("Unknown HTTP log variable `$" ++ String.ofList value ++ "`")
      | some v => .ok [.var v]
    | _ => .ok []

/-- A literal that is not empty. -/
def literalOf (text : List Char) : List LogElement :=
  if text = [] then [] else [.literal text]

structure HttpLogger where
  elements : List LogElement
  /-- The variables that are asked for; `$log_level` has no flag. -/
  needs : List LogVariable

def maxLogFormatBytes : ℕ := 4096

def maxLogFormatElements : ℕ := 128

variable (classes : CharClasses)

/-- What a name is made of. -/
def CharClasses.isWord (c : Char) : Bool := classes.isAlphanumeric c || c == '_'

def CharClasses.trimEnd (text : List Char) : List Char := text.rdropWhile classes.isWhitespace

/-- `str::trim`. -/
def CharClasses.trim (text : List Char) : List Char :=
  (classes.trimEnd text).dropWhile classes.isWhitespace

/-- The loop over the characters, with the elements that it pushes from here on and the literal that
is left at the end. -/
def scan (isVar : Bool) (cache : List Char) : List Char → Except String (List LogElement)
  | [] => .ok (literalOf (classes.trim cache))
  | c :: rest =>
    if c = '$' then (literalOf cache ++ ·) <$> scan true ['$'] rest
    else if isVar && !classes.isWord c then do
      let elements ← flushReference cache
      (elements ++ ·) <$> scan false [c] rest
    else scan isVar (cache ++ [c]) rest

def HttpLogger.fromStr (s : List Char) : Except String HttpLogger :=
  if maxLogFormatBytes < bytes s then .error "HTTP log format exceeds the 4096-byte limit"
  else do
    let elements ← scan classes false [] (s ++ [' '])
    if maxLogFormatElements < elements.length then
      .error "HTTP log format exceeds the 128-element limit"
    else .ok ⟨elements, elements.filterMap fun
      | .var .logLevel => none
      | .var v => some v
      | _ => none⟩

/-! ### What the elements stand for -/

/-- The element that a name refers to: the variable of that name, or after `http_` the header whose
name, a token of HTTP, is written with hyphens and in lower case. Other names refer to nothing. -/
inductive Names : List Char → LogElement → Prop
  | var (v : LogVariable) : Names v.name.toList (.var v)
  | header {field : List Char} {name : String} (hne : name.toList ≠ [])
      (htoken : ∀ c ∈ name.toList, c.isAlphanum ∨ c ∈ "!#$%&'*+-.^_`|~".toList)
      (hname : name.toList = field.map fun c => if c = '_' then '-' else c.toLower) :
      Names ("http_".toList ++ field) (.header name (isSensitiveHeader name))

/-- The text has a dollar sign with the name after it, which goes on as far as it can. -/
def Refers (name text : List Char) : Prop :=
  ∃ before rest, text = before ++ '$' :: (name ++ rest) ∧ (∀ c ∈ name, classes.isWord c = true) ∧
    ∀ c ∈ rest.head?, classes.isWord c = false

/-- The elements stand for the text: each reference, with all of its name, is one element, and what
is between the references is kept. -/
inductive Represents : List LogElement → List Char → Prop
  | nil : Represents [] []
  | reference {element elements name rest} (hname : ∀ c ∈ name, classes.isWord c = true)
      (hrest : ∀ c ∈ rest.head?, classes.isWord c = false)
      (helement : Names name element) (h : Represents elements rest) :
      Represents (element :: elements) ('$' :: (name ++ rest))
  | literal {elements text rest} (htext : text ≠ []) (hdollar : '$' ∉ text)
      (hrest : ∀ c ∈ rest.head?, c = '$') (h : Represents elements rest) :
      Represents (.literal text :: elements) (text ++ rest)

/-- No reference is followed at once by a dollar sign, and the literal at the end does not begin
with white space. -/
def separated (isVar : Bool) (cache : List Char) : List Char → Bool
  | [] => classes.trim cache == classes.trimEnd cache
  | c :: rest =>
    if c = '$' then !isVar && separated true ['$'] rest
    else if isVar && !classes.isWord c then separated false [c] rest
    else separated isVar (cache ++ [c]) rest

variable {classes} {name rest text : List Char} {c : Char} {elements : List LogElement}

lemma isWhitespace_of_isWord (h : classes.isWord c = true) : classes.isWhitespace c = false := by
  rw [CharClasses.isWord, Bool.or_eq_true, beq_iff_eq] at h
  obtain h | rfl := h
  · exact classes.disjoint c h
  · exact classes.whitespace_underscore

/-- White space is cut from the last part that has anything else. -/
lemma trimEnd_append (hlast : ∀ c ∈ text.getLast?, classes.isWhitespace c = false) :
    classes.trimEnd (text ++ rest) = text ++ classes.trimEnd rest := by
  induction rest using reverseRecOn with
  | nil =>
    rw [append_nil, CharClasses.trimEnd, CharClasses.trimEnd, rdropWhile_nil,
      append_nil, rdropWhile_eq_self_iff]
    intro hne
    simp [hlast _ (getLast?_eq_some_getLast hne)]
  | append_singleton rest c ih =>
    rw [CharClasses.trimEnd, CharClasses.trimEnd, ← append_assoc, rdropWhile_concat,
      rdropWhile_concat]
    split_ifs
    · exact ih
    · rw [append_assoc]

/-- A finished reference is the one element that its name refers to. -/
lemma flushReference_ok {cache : List Char} (h : flushReference cache = .ok elements) :
    elements = [] ∧ cache.head? ≠ some '$' ∨
      ∃ name element, cache = '$' :: name ∧ elements = [element] ∧ Names name element := by
  unfold flushReference at h
  split_ifs at h with hheader
  · obtain ⟨field, rfl⟩ := isPrefixOf_iff_prefix.1 hheader
    simp only at h
    split at h
    · cases h
    · rename_i header hname
      cases h
      unfold headerName at hname
      split_ifs at hname with htoken
      cases hname
      simp only [Bool.and_eq_true, Bool.not_eq_true', isEmpty_eq_false_iff, all_eq_true,
        Bool.or_eq_true, contains_iff_mem] at htoken
      refine .inr ⟨"http_".toList ++ field, _, rfl, rfl, ?_⟩
      exact .header (by simpa using htoken.1) (by simpa using htoken.2) (by simp)
  · split at h
    · split at h
      · cases h
      · rename_i value _ v hv
        cases h
        obtain rfl : v.name.toList = value := by
          rw [supported] at hv
          have hfound := find?_some hv
          rw [eq_of_beq hfound, String.toList_ofList]
        exact .inr ⟨_, _, rfl, rfl, .var v⟩
    · rename_i hcache
      cases h
      refine .inl ⟨rfl, fun hhead => ?_⟩
      cases cache <;> simp_all

/-- The name after a dollar sign is one. -/
lemma reference_unique {name' rest' : List Char} (hname : ∀ c ∈ name, classes.isWord c = true)
    (hname' : ∀ c ∈ name', classes.isWord c = true)
    (hrest : ∀ c ∈ rest.head?, classes.isWord c = false)
    (hrest' : ∀ c ∈ rest'.head?, classes.isWord c = false) (h : name ++ rest = name' ++ rest') :
    name = name' ∧ rest = rest' := by
  have hstop : ∀ {r : List Char}, (∀ c ∈ r.head?, classes.isWord c = false) →
      r.takeWhile classes.isWord = [] := by
    intro r hr
    cases r with
    | nil => rfl
    | cons c r => simp [hr c rfl]
  have htake := congrArg (takeWhile classes.isWord) h
  rw [takeWhile_append_of_pos hname, takeWhile_append_of_pos hname', hstop hrest,
    hstop hrest', append_nil, append_nil] at htake
  subst htake
  exact ⟨rfl, append_cancel_left h⟩

/-- A reference stands for itself and nothing else. -/
lemma represents_reference_iff {element : LogElement} (hname : ∀ c ∈ name, classes.isWord c = true)
    (hrest : ∀ c ∈ rest.head?, classes.isWord c = false)
    (helement : Names name element) :
    Represents classes (element :: elements) ('$' :: (name ++ rest)) ↔
      Represents classes elements rest := by
  refine ⟨fun h => ?_, .reference hname hrest helement⟩
  generalize htext : '$' :: (name ++ rest) = text at h
  cases h with
  | reference hname' hrest' _ h =>
    obtain ⟨-, rfl⟩ := reference_unique hname hname' hrest hrest' (List.cons.inj htext).2
    exact h
  | literal => cases helement

lemma represents_literal_iff (htext : text ≠ []) (hdollar : '$' ∉ text)
    (hrest : ∀ c ∈ rest.head?, c = '$') :
    Represents classes (.literal text :: elements) (text ++ rest) ↔
      Represents classes elements rest := by
  refine ⟨fun h => ?_, .literal htext hdollar hrest⟩
  generalize hwhole : text ++ rest = whole at h
  cases h with
  | reference _ _ helement => cases helement
  | literal _ _ _ h =>
    obtain rfl := append_cancel_left hwhole
    exact h

/-- A literal holds no dollar sign. -/
lemma not_represents_dollar : ¬ Represents classes (.literal ('$' :: text) :: elements) rest := by
  intro h
  generalize hliteral : LogElement.literal ('$' :: text) = element at h
  cases h with
  | reference _ _ helement =>
    subst hliteral
    cases helement
  | literal _ hdollar =>
    cases hliteral
    exact hdollar mem_cons_self

lemma represents_literalOf_trim_iff (hdollar : '$' ∉ text) :
    Represents classes (literalOf (classes.trim text)) (classes.trimEnd text) ↔
      classes.trim text = classes.trimEnd text := by
  have hdollar' : '$' ∉ classes.trim text := fun h =>
    hdollar ((List.rdropWhile_prefix _ _).subset ((dropWhile_suffix _).subset h))
  generalize classes.trimEnd text = whole
  generalize classes.trim text = trimmed at hdollar'
  rw [literalOf]
  split_ifs with hnil
  · subst hnil
    exact ⟨fun h => by cases h with | nil => rfl, fun h => h ▸ .nil⟩
  · constructor
    · intro h
      cases h with
      | reference _ _ helement => cases helement
      | literal _ _ _ h =>
        cases h
        exact (append_nil _).symm
    · rintro rfl
      have hliteral : Represents classes [.literal trimmed] (trimmed ++ []) :=
        .literal hnil hdollar' nofun .nil
      rwa [append_nil] at hliteral

lemma head_trimEnd (h : c ∈ (classes.trimEnd text).head?) : c ∈ text.head? := by
  obtain ⟨rest, hrest⟩ := List.rdropWhile_prefix classes.isWhitespace text
  rw [← hrest, head?_append]
  exact Option.or_eq_some_iff.2 (.inl h)

/-- The loop from any point on; a reference is finished before the end. -/
lemma represents_scan_iff {isVar : Bool} {cache : List Char}
    (hscan : scan classes isVar cache text = .ok elements)
    (hvar : isVar = true → (∃ name, cache = '$' :: name ∧ ∀ c ∈ name, classes.isWord c = true) ∧
      text ≠ []) (hend : ∀ c ∈ text.getLast?, c = ' ') (hliteral : isVar = false → '$' ∉ cache) :
    Represents classes elements (classes.trimEnd (cache ++ text)) ↔
      separated classes isVar cache text = true := by
  have hspace : classes.isWord ' ' = false := by
    simp [CharClasses.isWord, classes.alphanumeric_space]
  induction text generalizing isVar cache elements with
  | nil =>
    cases isVar with
    | true => exact absurd rfl (hvar rfl).2
    | false =>
      cases hscan
      rw [append_nil, separated, beq_iff_eq]
      exact represents_literalOf_trim_iff (hliteral rfl)
  | cons c rest ih =>
    have hend' : ∀ c ∈ rest.getLast?, c = ' ' := by
      intro d hd
      cases rest with
      | nil => cases hd
      | cons e rest => exact hend d (by rwa [getLast?_cons_cons])
    have hlast : c ≠ ' ' → rest ≠ [] := by
      rintro hc rfl
      exact hc (hend c rfl)
    rw [scan] at hscan
    rw [separated]
    split_ifs at hscan ⊢ with hdollar hflush
    · subst hdollar
      obtain ⟨elements', hscan', rfl⟩ := Result.map_eq_ok_iff.1 hscan
      have hrest := ih hscan' (fun _ => ⟨⟨[], rfl, nofun⟩, hlast (by decide)⟩) hend' nofun
      cases isVar with
      | true =>
        obtain ⟨⟨name, rfl, -⟩, -⟩ := hvar rfl
        simp only [literalOf, reduceCtorEq, if_false, singleton_append, Bool.not_true,
          Bool.false_and, Bool.false_eq_true, iff_false]
        exact not_represents_dollar
      | false =>
        have htrim : ∀ text : List Char, classes.trimEnd (text ++ '$' :: rest) =
            text ++ '$' :: classes.trimEnd rest := by
          intro text
          rw [append_cons, trimEnd_append (by simp [classes.whitespace_dollar]), ← append_cons]
        rw [Bool.not_false, Bool.true_and, htrim, literalOf]
        refine Iff.trans ?_ hrest
        rw [singleton_append, show classes.trimEnd ('$' :: rest) = _ from htrim []]
        split_ifs with hcch
        · rw [hcch]
          rfl
        · exact represents_literal_iff hcch (hliteral rfl) (by simp)
    · simp only [Bool.and_eq_true, Bool.not_eq_true'] at hflush
      obtain ⟨rfl, hword⟩ := hflush
      obtain ⟨⟨name, rfl, hname⟩, -⟩ := hvar rfl
      obtain ⟨flushed, hfls, hscan⟩ := Result.bind_eq_ok_iff.1 hscan
      obtain ⟨elements', hscan', rfl⟩ := Result.map_eq_ok_iff.1 hscan
      obtain ⟨-, hhead⟩ | ⟨_, element, ⟨⟩, rfl, helement⟩ := flushReference_ok hfls
      · exact absurd rfl hhead
      refine Iff.trans ?_ (ih hscan' nofun hend' fun _ => by simpa using Ne.symm hdollar)
      rw [singleton_append, singleton_append, trimEnd_append, cons_append]
      · refine represents_reference_iff hname (fun d hd => ?_) helement
        cases head_trimEnd hd
        exact hword
      · intro d hd
        obtain rfl | hd := mem_cons.1 (mem_of_getLast? hd)
        · exact classes.whitespace_dollar
        · exact isWhitespace_of_isWord (hname d hd)
    · rw [append_cons]
      refine ih hscan (fun hv => ?_) hend' fun hv => ?_
      · obtain ⟨⟨name, rfl, hname⟩, -⟩ := hvar hv
        have hword : classes.isWord c = true := by simpa [hv] using hflush
        refine ⟨⟨name ++ [c], rfl, fun d hd => ?_⟩, hlast ?_⟩
        · obtain hd | hd := mem_append.1 hd
          · exact hname d hd
          · rwa [mem_singleton.1 hd]
        · rintro rfl
          cases hspace.symm.trans hword
      · simpa [hliteral hv] using Ne.symm hdollar

/-- A text without a dollar sign refers to nothing. -/
lemma Refers.of_append (h : Refers classes name (text ++ rest)) (hdollar : '$' ∉ text) :
    Refers classes name rest := by
  obtain ⟨before, after, heq, h⟩ := h
  obtain ⟨mid, -, hrest⟩ | ⟨mid, htext, hmid⟩ := append_eq_append_iff.1 heq
  · exact ⟨mid, after, hrest, h⟩
  · cases mid with
    | nil => exact ⟨[], after, hmid.symm, h⟩
    | cons c mid =>
      obtain ⟨rfl, -⟩ := List.cons.inj hmid
      exact absurd (htext ▸ mem_append_right _ mem_cons_self) hdollar

/-- In a text that elements stand for, every name refers to one. -/
lemma Represents.names (h : Represents classes elements text) (hname : Refers classes name text) :
    ∃ element, Names name element := by
  induction h with
  | nil =>
    obtain ⟨before, rest, heq, -⟩ := hname
    cases before <;> cases heq
  | @reference element elements name' rest' hword hrest helement _ ih =>
    obtain ⟨before, rest, heq, hname⟩ := hname
    cases before with
    | nil =>
      obtain ⟨rfl, -⟩ := reference_unique hword hname.1 hrest hname.2 (List.cons.inj heq).2
      exact ⟨element, helement⟩
    | cons c before =>
      have hrefers : Refers classes name (name' ++ rest') :=
        ⟨before, rest, (List.cons.inj heq).2, hname⟩
      refine ih (hrefers.of_append fun hmem => ?_)
      have hdollar := hword _ hmem
      simp [CharClasses.isWord, classes.alphanumeric_dollar] at hdollar
  | literal _ hdollar _ _ ih => exact ih (hname.of_append hdollar)

lemma Refers.trimEnd (h : Refers classes name text) :
    Refers classes name (classes.trimEnd text) := by
  obtain ⟨before, rest, rfl, hname, hrest⟩ := h
  refine ⟨before, classes.trimEnd rest, ?_, hname, fun c hc => hrest c (head_trimEnd hc)⟩
  rw [← cons_append, ← append_assoc, trimEnd_append, append_assoc, cons_append]
  intro c hc
  rw [getLast?_append_cons] at hc
  obtain rfl | hc := mem_cons.1 (mem_of_getLast? hc)
  · exact classes.whitespace_dollar
  · exact isWhitespace_of_isWord (hname c hc)

lemma represents_fromStr_iff {s : List Char} {logger : HttpLogger}
    (h : HttpLogger.fromStr classes s = .ok logger) :
    Represents classes logger.elements (classes.trimEnd s) ↔
      separated classes false [] (s ++ [' ']) = true := by
  unfold HttpLogger.fromStr at h
  split_ifs at h
  obtain ⟨elements, hscan, h⟩ := Result.bind_eq_ok_iff.1 h
  split_ifs at h
  cases h
  have hiff := represents_scan_iff hscan nofun (by simp) nofun
  rw [List.nil_append, CharClasses.trimEnd, List.rdropWhile_concat_pos _ _ _ ?_] at hiff
  · exact hiff
  · exact classes.whitespace_space

/-- A format that is accepted is read as it is written exactly if it is separated. A separated
format with a name that refers to nothing is not accepted. -/
theorem fromStr_represents_iff (s : List Char) :
    (∀ logger, HttpLogger.fromStr classes s = .ok logger →
        (Represents classes logger.elements (classes.trimEnd s) ↔
          separated classes false [] (s ++ [' ']) = true)) ∧
      (separated classes false [] (s ++ [' ']) = true → ∀ name, Refers classes name s →
        (∀ element, ¬ Names name element) →
          ∃ message, HttpLogger.fromStr classes s = .error message) := by
  refine ⟨fun logger => represents_fromStr_iff, fun hseparated name hname hnone => ?_⟩
  cases h : HttpLogger.fromStr classes s with
  | error message => exact ⟨message, rfl⟩
  | ok logger =>
    have hrepresents := (represents_fromStr_iff h).2 hseparated
    obtain ⟨element, helement⟩ := hrepresents.names hname.trimEnd
    exact absurd helement (hnone element)

/-- The classes of the ASCII characters. -/
def asciiClasses : CharClasses where
  isAlphanumeric := Char.isAlphanum
  isWhitespace := Char.isWhitespace
  alphanumeric_dollar := by decide
  alphanumeric_space := by decide
  whitespace_space := by decide
  whitespace_dollar := by decide
  whitespace_underscore := by decide
  disjoint c h := by
    rw [Char.isWhitespace, Bool.eq_false_iff]
    intro hspace
    simp only [Bool.or_eq_true, decide_eq_true_eq] at hspace
    obtain ((rfl | rfl) | rfl) | rfl := hspace <;> exact absurd h (by decide)

/-- A variable with text after it, and a dollar sign without a name. -/
theorem fromStr_represents_status : (HttpLogger.fromStr asciiClasses "$status: ok".toList =
        .ok ⟨[.var .status, .literal ": ok".toList], [.status]⟩ ∧
      Represents asciiClasses [.var .status, .literal ": ok".toList] "$status: ok".toList) ∧
      Refers asciiClasses [] "$: ok".toList ∧
      ∃ message, HttpLogger.fromStr asciiClasses "$: ok".toList = .error message := by
  have h : HttpLogger.fromStr asciiClasses "$status: ok".toList =
      .ok ⟨[.var .status, .literal ": ok".toList], [.status]⟩ := by rfl
  have hempty : Refers asciiClasses [] "$: ok".toList := by
    refine ⟨[], ": ok".toList, rfl, nofun, ?_⟩
    rintro _ ⟨⟩
    decide
  refine ⟨⟨h, ((fromStr_represents_iff _).1 _ h).2 (by decide +kernel)⟩, hempty, ?_⟩
  refine (fromStr_represents_iff _).2 (by decide +kernel) [] hempty fun element hnames => ?_
  generalize hname : ([] : List Char) = name at hnames
  cases hnames with
  | var v => cases v <;> cases hname
  | header => cases hname

/-- A reference before another is kept as text, and the space after a reference is lost. -/
theorem fromStr_misreads : (HttpLogger.fromStr asciiClasses "$request$status".toList =
        .ok ⟨[.literal "$request".toList, .var .status], [.status]⟩ ∧
      ¬ Represents asciiClasses [.literal "$request".toList, .var .status]
        "$request$status".toList) ∧ (HttpLogger.fromStr asciiClasses "$status ok".toList =
        .ok ⟨[.var .status, .literal "ok".toList], [.status]⟩ ∧
      ¬ Represents asciiClasses [.var .status, .literal "ok".toList] "$status ok".toList) := by
  refine ⟨⟨by rfl, not_represents_dollar⟩, by rfl, fun h => ?_⟩
  have hscan : scan asciiClasses false [] "$status ok ".toList =
      .ok [.var .status, .literal "ok".toList] := by rfl
  exact absurd ((represents_scan_iff hscan nofun (by simp) nofun).1 h) (by decide +kernel)

end DufsRam.Logging
