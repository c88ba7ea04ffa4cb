import DufsRam.Logging.Format
import DufsRam.PathPolicy
import Mathlib.Data.List.Forall2

/-!
# The entries of the access log

`HttpLogger::data` collects what a format asks for in one map from names to texts: what it takes
from the request line, and then the values of request headers. The server sets its own values
later, and `render` looks everything up by name.
-/

namespace DufsRam.Logging

open List HttpLogger Function LogVariable

structure LogRequest where
  method : String
  uri : String
  version : String
  headers : List (String × List UInt8)

/-- What the server sets for a request that is logged. -/
structure Runtime where
  remoteAddr : List Char
  status : List Char
  remoteUser : Option (List Char)
  operationId : Option (List Char)
  operationState : Option (List Char)

structure Clock where
  timeLocal : List Char
  timeIso8601 : List Char
  msec : List Char

abbrev LogData := String → Option (List Char)

/-- `HeaderMap::get`. -/
def LogRequest.header (req : LogRequest) (name : String) : Option (List UInt8) :=
  (req.headers.find? fun h => h.1 == name).map Prod.snd

/-- `HeaderValue::to_str`. -/
def headerText (value : List UInt8) : Option (List Char) :=
  if value.all fun b => (decide (32 ≤ b) && decide (b < 127)) || b == 9 then
    some (value.map fun b => Char.ofNat b.toNat)
  else none

/-- One character of `sanitize_log_value`. -/
def sanitizeChar (c : Char) : List Char :=
  match c with
  | '\\' => "\\\\".toList
  | '"' => "\\\"".toList
  | '\n' => "\\n".toList
  | '\r' => "\\r".toList
  | '\t' => "\\t".toList
  | c => if isControl c then unicodeEscape c else [c]

def sanitizeLogValue (value : List Char) : List Char := value.flatMap sanitizeChar

def formatRequestLine (req : LogRequest) : List Char :=
  req.method.toList ++ ' ' :: sanitizeLogValue req.uri.toList ++ ' ' :: req.version.toList

def sanitizeRequestUri (uri : String) : List Char :=
  sanitizeLogValue ((decodeUri uri).getD uri).toList

/-- What an element puts into the map. -/
def insertHeader (req : LogRequest) (data : LogData) : LogElement → LogData
  | .header name true =>
    if (req.header name).isSome then update data name (some "[REDACTED]".toList) else data
  | .header name false =>
    match (req.header name).bind headerText with
    | some value => update data name (some (sanitizeLogValue value))
    | none => data
  | _ => data

namespace HttpLogger

variable (logger : HttpLogger)

/-- An entry that is made only if the format asks for it. -/
def setValue (v : LogVariable) (value : Option (List Char)) (data : LogData) : LogData :=
  if v ∈ logger.needs then
    match value with
    | some text => update data v.name (some text)
    | none => data
  else data

/-- What is taken from the request line. -/
def requestLine (req : LogRequest) : LogData :=
  logger.setValue .requestMethod (some req.method.toList) <|
    logger.setValue .requestUri (some (sanitizeRequestUri req.uri)) <|
    logger.setValue .request (some (formatRequestLine req)) fun _ => none

def data (req : LogRequest) : LogData :=
  logger.elements.foldl (insertHeader req) (logger.requestLine req)

/-- The map with the values of the server. -/
def accessLog (req : LogRequest) (runtime : Runtime) : LogData :=
  logger.setValue .operationState runtime.operationState <|
    logger.setValue .status (some runtime.status) <|
    logger.setValue .remoteUser (runtime.remoteUser.map sanitizeLogValue) <|
    logger.setValue .operationId runtime.operationId <|
    logger.setValue .remoteAddr (some runtime.remoteAddr) (logger.data req)

/-- The values that are not looked up in the map. -/
def resolved (clock : Clock) (err : Option (List Char)) (v : LogVariable) : Option (List Char) :=
  match v with
  | .timeLocal => if v ∈ logger.needs then some clock.timeLocal else none
  | .timeIso8601 => if v ∈ logger.needs then some clock.timeIso8601 else none
  | .msec => if v ∈ logger.needs then some clock.msec else none
  | .logLevel => some (if err.isSome then "ERROR" else "INFO").toList
  | _ => none

def elementText (data : LogData) (clock : Clock) (err : Option (List Char)) :
    LogElement → List Char
  | .literal text => text
  | .var v => ((logger.resolved clock err v).or (data v.name)).getD ['-']
  | .header name _ => (data name).getD ['-']

/-- The pieces that are pushed after a line is truncated have no effect. -/
def render (data : LogData) (clock : Clock) (err : Option (List Char)) : List Char :=
  boundedLine (logger.elements.map (logger.elementText data clock err) ++
    match err with
    | some err => [' '] :: err.map sanitizeChar
    | none => [])

end HttpLogger

/-- The requests have the same line and the same header names. -/
structure SameButHeaders (keeps : String → Prop) (req req' : LogRequest) : Prop where
  method : req.method = req'.method
  uri : req.uri = req'.uri
  version : req.version = req'.version
  headers : Forall₂ (fun h h' => h.1 = h'.1 ∧ (keeps h.1 → h.2 = h'.2)) req.headers req'.headers

/-- The format shows the request line, and a request header of the same name. -/
def HttpLogger.confused (logger : HttpLogger) : Bool :=
  decide (.var .request ∈ logger.elements ∧ .header "request" false ∈ logger.elements)

variable {classes : CharClasses} {logger : HttpLogger} {req req' : LogRequest} {runtime : Runtime}
  {clock : Clock} {err : Option (List Char)} {name : String} {v : LogVariable}
  {keeps : String → Prop} {cache : List Char} {elements : List LogElement}

/-! ### What a format holds -/

/-- The headers of a format have no underscores in their names. -/
def HeadersProper (elements : List LogElement) : Prop :=
  ∀ name sensitive, .header name sensitive ∈ elements →
    '_' ∉ name.toList ∧ sensitive = isSensitiveHeader name

lemma toLower_ne_underscore {c : Char} (h : c ≠ '_') : c.toLower ≠ '_' := by
  unfold Char.toLower
  split
  · rename_i hupper
    intro heq
    have hval : c.val + 32 = 95 := congrArg Char.val heq
    have hlower : (65 : UInt32) ≤ c.val := hupper.1
    grind
  · exact h

lemma headersProper_flush (h : flushReference cache = .ok elements) : HeadersProper elements := by
  intro name sensitive hmem
  obtain ⟨rfl, -⟩ | ⟨_, _, -, rfl, hnames⟩ := flushReference_ok h
  · simp at hmem
  · cases mem_singleton.1 hmem
    cases hnames with
    | header _ _ hname =>
      refine ⟨fun hunderscore => ?_, rfl⟩
      obtain ⟨c, -, hc⟩ := mem_map.1 (hname ▸ hunderscore)
      split_ifs at hc with hunderscore
      · cases hc
      · exact toLower_ne_underscore hunderscore hc

lemma headersProper_append {elements' : List LogElement} (h : HeadersProper elements)
    (h' : HeadersProper elements') : HeadersProper (elements ++ elements') :=
  fun name sensitive hmem => (mem_append.1 hmem).elim (h name sensitive) (h' name sensitive)

lemma headersProper_literalOf (text : List Char) : HeadersProper (literalOf text) := by
  intro name sensitive hmem
  rw [literalOf] at hmem
  split_ifs at hmem <;> simp at hmem

lemma headersProper_scan {isVar : Bool} {text : List Char}
    (h : scan classes isVar cache text = .ok elements) : HeadersProper elements := by
  induction text generalizing isVar cache elements with
  | nil =>
    cases h
    exact headersProper_literalOf _
  | cons c text ih =>
    rw [scan] at h
    split_ifs at h
    · obtain ⟨elements', h', rfl⟩ := Result.map_eq_ok_iff.1 h
      exact headersProper_append (headersProper_literalOf _) (ih h')
    · obtain ⟨flushed, hflushed, h⟩ := Result.bind_eq_ok_iff.1 h
      obtain ⟨elements', h', rfl⟩ := Result.map_eq_ok_iff.1 h
      exact headersProper_append (headersProper_flush hflushed) (ih h')
    · exact ih h

/-- What an accepted format asks for. -/
lemma fromStr_eq_ok {s : List Char} (h : fromStr classes s = .ok logger) :
    HeadersProper logger.elements ∧
      ∀ v, .var v ∈ logger.elements → v ≠ .logLevel → v ∈ logger.needs := by
  unfold fromStr at h
  split_ifs at h
  obtain ⟨elements, hscan, h⟩ := Result.bind_eq_ok_iff.1 h
  split_ifs at h
  cases h
  refine ⟨headersProper_scan hscan, fun v hv hlevel => mem_filterMap.2 ⟨.var v, hv, ?_⟩⟩
  cases v with
  | logLevel => exact absurd rfl hlevel
  | _ => rfl

/-! ### What is looked up -/

lemma insertHeader_of_ne {data : LogData} {element : LogElement}
    (h : ∀ sensitive, element ≠ .header name sensitive) :
    insertHeader req data element name = data name := by
  cases element with
  | header other sensitive =>
    have hne : name ≠ other := by
      rintro rfl
      exact h sensitive rfl
    cases sensitive with
    | true =>
      rw [insertHeader]
      split_ifs
      · exact update_of_ne hne ..
      · rfl
    | false =>
      rw [insertHeader]
      cases (req.header other).bind headerText with
      | none => rfl
      | some value => exact update_of_ne hne ..
  | _ => rfl

lemma foldl_insertHeader_of_not_mem {data : LogData}
    (h : ∀ sensitive, .header name sensitive ∉ elements) :
    elements.foldl (insertHeader req) data name = data name := by
  induction elements generalizing data with
  | nil => rfl
  | cons element elements ih =>
    rw [foldl_cons, ih fun sensitive hmem => h sensitive (mem_cons_of_mem _ hmem),
      insertHeader_of_ne]
    rintro sensitive rfl
    exact h sensitive mem_cons_self

/-- A header that is shown is what is found under its name. -/
lemma foldl_insertHeader_of_mem {data : LogData} {value : List Char}
    (hvl : (req.header name).bind headerText = some value)
    (hplain : .header name true ∉ elements) (hmem : .header name false ∈ elements) :
    elements.foldl (insertHeader req) data name = some (sanitizeLogValue value) := by
  induction elements using List.reverseRecOn with
  | nil => cases hmem
  | append_singleton elements element ih =>
    rw [foldl_concat]
    by_cases helement : element = .header name false
    · subst helement
      simp [insertHeader, hvl]
    · simp only [mem_append, mem_singleton, not_or] at hplain hmem
      rw [insertHeader_of_ne, ih hplain.1 (hmem.resolve_right (Ne.symm helement))]
      rintro (_ | _) rfl
      · exact helement rfl
      · exact hplain.2 rfl

lemma setValue_apply (value : Option (List Char)) (data : LogData) :
    logger.setValue v value data name =
      if v ∈ logger.needs ∧ name = v.name then value.or (data name) else data name := by
  unfold setValue
  by_cases hneeds : v ∈ logger.needs
  · cases value with
    | none => simp [hneeds]
    | some text => simp [hneeds, update_apply]
  · simp [hneeds]

lemma accessLog_congr (h : logger.data req name = logger.data req' name) :
    logger.accessLog req runtime name = logger.accessLog req' runtime name := by
  simp only [accessLog, setValue_apply, h]

section

variable (h : SameButHeaders keeps req req')

include h

/-- A header is there in both requests or in neither, and the same if it is kept. -/
lemma header_eq (name : String) : (req.header name).isSome = (req'.header name).isSome ∧
      (keeps name → req.header name = req'.header name) := by
  obtain ⟨-, -, -, hheaders⟩ := h
  unfold LogRequest.header
  generalize req.headers = headers at hheaders
  generalize req'.headers = headers' at hheaders
  induction hheaders with
  | nil => exact ⟨rfl, fun _ => rfl⟩
  | cons hhead _ ih =>
    rw [find?_cons, find?_cons, hhead.1]
    split
    · rename_i heq
      refine ⟨rfl, fun hname => ?_⟩
      rw [Option.map_some, Option.map_some, hhead.2 ?_]
      rwa [hhead.1, beq_iff_eq.1 heq]
    · exact ih

lemma requestLine_eq : logger.requestLine req = logger.requestLine req' := by
  simp only [requestLine, formatRequestLine, h.method, h.uri, h.version]

/-- What is not a header is the same whatever the headers are. -/
lemma data_eq_of_not_mem (hname : ∀ sensitive, .header name sensitive ∉ logger.elements) :
    logger.data req name = logger.data req' name := by
  rw [data, data, foldl_insertHeader_of_not_mem hname,
    foldl_insertHeader_of_not_mem hname, requestLine_eq h]

end

lemma accessLog_status (h : .status ∈ logger.needs) :
    logger.accessLog req runtime "status" = some runtime.status := by
  simp [accessLog, setValue_apply, h, name]

/-- Only the values of headers that are not sensitive are shown. -/
lemma data_eq_of_sensitive (hproper : HeadersProper logger.elements)
    (h : SameButHeaders (fun name => isSensitiveHeader name = false) req req') :
    logger.data req = logger.data req' := by
  rw [data, data, requestLine_eq h]
  refine foldl_ext _ _ _ fun data element helement => ?_
  cases element with
  | header name sensitive =>
    obtain ⟨hsome, heq⟩ := header_eq h name
    cases sensitive with
    | true => rw [insertHeader, insertHeader, hsome]
    | false => rw [insertHeader, insertHeader, heq (hproper name false helement).2.symm]
  | _ => rfl

/-- A variable shows nothing of the headers unless a header takes its name. -/
lemma elementText_eq (hproper : HeadersProper logger.elements)
    (hneeds : ∀ v, .var v ∈ logger.elements → v ≠ .logLevel → v ∈ logger.needs)
    (hconfused : logger.confused = false) (h : SameButHeaders keeps req req')
    (hv : .var v ∈ logger.elements) :
    logger.elementText (logger.accessLog req runtime) clock err (.var v) =
      logger.elementText (logger.accessLog req' runtime) clock err (.var v) := by
  have hdata : (∀ sensitive, .header v.name sensitive ∉ logger.elements) →
      logger.accessLog req runtime v.name = logger.accessLog req' runtime v.name :=
    fun hname => accessLog_congr (data_eq_of_not_mem h hname)
  have hunderscore : '_' ∈ v.name.toList →
      logger.accessLog req runtime v.name = logger.accessLog req' runtime v.name :=
    fun hmem => hdata fun sensitive hheader => (hproper _ sensitive hheader).1 hmem
  simp only [elementText]
  cases v with
  | request =>
    rw [hdata]
    intro sensitive hheader
    obtain rfl := (hproper _ sensitive hheader).2
    exact of_decide_eq_false hconfused ⟨hv, hheader⟩
  | status =>
    have hstat := hneeds _ hv (by decide)
    rw [show status.name = "status" from rfl, accessLog_status hstat,
      accessLog_status hstat]
  | msec => simp [resolved, hneeds _ hv (by decide)]
  | logLevel => rfl
  | _ => rw [hunderscore (by decide)]

/-- A request with one header that is called `request`. -/
def forgedRequest (value : UInt8) : LogRequest := ⟨"GET", "/", "HTTP/1.1", [("request", [value])]⟩

lemma elementText_forged (hproper : HeadersProper logger.elements)
    (hheader : .header "request" false ∈ logger.elements) {value : UInt8} (text : Char)
    (hvl : headerText [value] = some [text]) :
    logger.elementText (logger.accessLog (forgedRequest value) runtime) clock err (.var .request) =
      sanitizeLogValue [text] := by
  have hplain : .header "request" true ∉ logger.elements := fun h =>
    absurd (hproper _ true h).2 (by decide)
  have hdata : logger.data (forgedRequest value) "request" = some (sanitizeLogValue [text]) :=
    foldl_insertHeader_of_mem hvl hplain hheader
  simp [elementText, resolved, accessLog, setValue_apply, name, hdata]

/-- What a variable shows does not depend on the headers exactly if the format does not show the
request line together with a header of that name, and what the sensitive headers hold is shown
nowhere. -/
theorem variables_unforged_iff (s : List Char) (logger : HttpLogger)
    (h : fromStr classes s = .ok logger) :
    ((∀ (req req' : LogRequest) (runtime : Runtime) (clock : Clock) (err : Option (List Char)),
        SameButHeaders (fun _ => False) req req' → ∀ v, .var v ∈ logger.elements →
          logger.elementText (logger.accessLog req runtime) clock err (.var v) =
            logger.elementText (logger.accessLog req' runtime) clock err (.var v)) ↔
      logger.confused = false) ∧
    ∀ (req req' : LogRequest) (runtime : Runtime) (clock : Clock) (err : Option (List Char)),
      SameButHeaders (fun name => isSensitiveHeader name = false) req req' →
        logger.render (logger.accessLog req runtime) clock err =
          logger.render (logger.accessLog req' runtime) clock err := by
  obtain ⟨hproper, hneeds⟩ := fromStr_eq_ok h
  refine ⟨⟨fun hsame => ?_, fun hconfused req req' runtime clock err hreq v hv =>
    elementText_eq hproper hneeds hconfused hreq hv⟩, fun req req' runtime clock err hreq => ?_⟩
  · by_contra hconfused
    obtain ⟨hvar, hheader⟩ := of_decide_eq_true (Bool.eq_true_of_not_eq_false hconfused)
    have heq := hsame (forgedRequest 97) (forgedRequest 98) ⟨[], [], none, none, none⟩
      ⟨[], [], []⟩ none ⟨rfl, rfl, rfl, .cons ⟨rfl, False.elim⟩ .nil⟩ .request hvar
    rw [elementText_forged hproper hheader 'a' (by decide),
      elementText_forged hproper hheader 'b' (by decide)] at heq
    exact absurd heq (by decide)
  · have hdata : logger.accessLog req runtime = logger.accessLog req' runtime :=
      funext fun name => accessLog_congr (congrFun (data_eq_of_sensitive hproper hreq) name)
    rw [hdata]

/-- The format `$request $status`. -/
def plainLogger : HttpLogger :=
  ⟨[.var .request, .literal [' '], .var .status], [.request, .status]⟩

theorem variables_unforged_plain :
    fromStr asciiClasses "$request $status".toList = .ok plainLogger ∧
      plainLogger.elementText (plainLogger.accessLog (forgedRequest 97) ⟨[], [], none, none, none⟩)
          ⟨[], [], []⟩ none (.var .request) =
        plainLogger.elementText
          (plainLogger.accessLog (forgedRequest 98) ⟨[], [], none, none, none⟩)
          ⟨[], [], []⟩ none (.var .request) := by
  have h : fromStr asciiClasses "$request $status".toList = .ok plainLogger := by rfl
  exact ⟨h, (variables_unforged_iff _ _ h).1.2 (by decide) _ _ _ _ _
    ⟨rfl, rfl, rfl, .cons ⟨rfl, False.elim⟩ .nil⟩ _ (by decide)⟩

/-- A client writes the request line of the entry: two requests that differ in a header show
different ones. -/
theorem request_line_forged :
    (fromStr asciiClasses "$request $http_request.".toList).map (·.confused) = .ok true ∧
      SameButHeaders (fun _ => False) (forgedRequest 97) (forgedRequest 98) ∧
      [97, 98].map (fun byte => (fromStr asciiClasses "$request $http_request.".toList).map
        fun logger => logger.elementText
          (logger.accessLog (forgedRequest byte) ⟨[], [], none, none, none⟩) ⟨[], [], []⟩ none
            (.var .request)) = [.ok ['a'], .ok ['b']] :=
  ⟨by rfl, ⟨rfl, rfl, rfl, .cons ⟨rfl, False.elim⟩ .nil⟩, by rfl⟩

end DufsRam.Logging
