import Mathlib.Data.List.Infix
import DufsRam.Download.Range
import DufsRam.Lib.Loop

/-!
# Sending a file

`send_open_file_with_gate` of `download.rs` decides on the status and the part of the file that is
sent, and `gated_file_body` reads that part in chunks. The file may be changed by other processes
while it is read, and a read may return fewer bytes than it was asked for.
-/

namespace DufsRam.Download

open List

/-- The headers of a request: whether each precondition that is present passes, and the values of
all `Range` headers, those that are not text being `none`. -/
structure Headers where
  ifMatch : Option Bool
  ifUnmodifiedSince : Option Bool
  ifNoneMatch : Option Bool
  ifModifiedSince : Option Bool
  ranges : List (Option String)
  ifRange : Bool

/-- The metadata of an open file; the validators are missing if it has no usable time. -/
structure OpenFile where
  isFile : Bool
  size : ℕ
  validators : Bool

inductive Status where
  | ok
  | partialContent
  | notModified
  | notFound
  | preconditionFailed
  | rangeNotSatisfiable
  deriving DecidableEq

inductive ContentRange where
  | bytes (first last size : ℕ)
  | unsatisfied (size : ℕ)
  deriving DecidableEq

/-- A response; its body is read from an offset on and has a length. -/
structure Reply where
  status : Status
  contentRange : Option ContentRange := none
  contentLength : Option ℕ := none
  body : Option (ℕ × ℕ) := none
  deriving DecidableEq

/-- The status that the preconditions require instead of sending the file. -/
def failedPrecondition (h : Headers) : Option Status :=
  if (h.ifMatch <|> h.ifUnmodifiedSince) = some false then some .preconditionFailed
  else if (h.ifNoneMatch <|> h.ifModifiedSince) = some false then some .notModified
  else none

/-- The range of the first `Range` header, if it is the only one or its unit is unknown. -/
def requestedRange (ranges : List (Option String)) (size : ℕ) : Option ParsedRange :=
  match ranges with
  | [] => none
  | range :: others =>
    let parsed := match range with
      | none => .unsatisfiable
      | some text => parseRange text size
    some (if parsed = .ignore then .ignore else if others ≠ [] then .unsatisfiable else parsed)

def sendOpenFile (f : OpenFile) (h : Headers) (headOnly : Bool) : Reply :=
  if f.isFile = false then { status := .notFound }
  else match if f.validators then failedPrecondition h else none with
    | some status => { status }
    | none =>
      let useRange := !headOnly && !(f.validators && (h.ranges.isEmpty || h.ifRange))
      match if useRange then requestedRange h.ranges f.size else none with
      | some (.satisfiable first last) =>
        { status := .partialContent
          contentRange := some (.bytes first last f.size)
          contentLength := some (last - first + 1)
          body := if headOnly then none else some (first, last - first + 1) }
      | some .unsatisfiable =>
        { status := .rangeNotSatisfiable, contentRange := some (.unsatisfied f.size) }
      | none | some .ignore =>
        { status := .ok
          contentLength := some f.size
          body := if headOnly then none else some (0, f.size) }

/-! ### The body -/

def bufSize : ℕ := 65536

/-- What a read meets: the file as it is then and how many bytes beyond the first it returns at
most, or an error, which may be the idle timeout. -/
inductive ReadAnswer where
  | data (content : List UInt8) (more : ℕ)
  | failed

/-- `read_at`: nothing is returned only at or beyond the end of the file. -/
def readAt (content : List UInt8) (more length offset : ℕ) : List UInt8 :=
  (content.drop offset).take (min length (more + 1))

inductive ReadError where
  | unexpectedEof
  | other
  deriving DecidableEq

/-- `DownloadReadState`, with the number of reads, the bytes that were yielded and the error that
ended the stream. -/
structure ReadState where
  reads : ℕ
  offset : ℕ
  remaining : ℕ
  yielded : List UInt8
  error : Option ReadError

/-- A poll of the stream of `gated_file_body`. -/
def poll (answers : ℕ → ReadAnswer) (s : ReadState) : Option ReadState :=
  if s.error.isSome ∨ s.remaining = 0 then none
  else some <| match answers s.reads with
    | .failed => { s with reads := s.reads + 1, error := some .other }
    | .data content more =>
      let read := readAt content more (min s.remaining bufSize) s.offset
      if read = [] then { s with reads := s.reads + 1, error := some .unexpectedEof }
      else ⟨s.reads + 1, s.offset + read.length, s.remaining - read.length, s.yielded ++ read, none⟩

/-- The file keeps the bytes it had: it may grow or be cut short. -/
def Keeps (file : List UInt8) (answers : ℕ → ReadAnswer) : Prop :=
  ∀ i content more, answers i = .data content more → content.take file.length <+: file

/-- The state of a body that was to yield `length` bytes from `offset` on. -/
structure Framed (file : List UInt8) (answers : ℕ → ReadAnswer) (offset length : ℕ)
    (s : ReadState) : Prop where
  total : s.yielded.length + s.remaining = length
  position : s.offset = offset + s.yielded.length
  failed : s.error ≠ none → 0 < s.remaining
  bytes : Keeps file answers → s.yielded <+: file.drop offset
  /-- The last read found the file at least as long as what has been read. -/
  covered : s.error ≠ none ∨ s.yielded = [] ∨
    ∃ content more, answers (s.reads - 1) = .data content more ∧ s.offset ≤ content.length

section Stream

variable {file : List UInt8} {answers : ℕ → ReadAnswer} {offset length : ℕ} {s s' : ReadState}

lemma framed_start : Framed file answers offset length ⟨0, offset, length, [], none⟩ where
  total := by simp
  position := rfl
  failed := by simp
  bytes := by simp
  covered := .inr (.inl rfl)

/-- The bytes that a read returns are those of the file, as far as it has kept them. -/
lemma readAt_prefix {content : List UInt8} (more size position : ℕ)
    (hkept : content.take file.length <+: file) (hfits : position + size ≤ file.length) :
    readAt content more size position <+: file.drop position := by
  have hcut : readAt content more size position =
      ((content.take file.length).drop position).take (min size (more + 1)) := by
    rw [readAt, drop_take, take_take]
    congr 1
    omega
  rw [hcut]
  exact (List.take_prefix _ _).trans (hkept.drop position)

/-- What a poll does, unless the stream is over. -/
lemma poll_cases (h : poll answers s = some s') : s.error = none ∧ 0 < s.remaining ∧
    ((∃ e, s' = { s with reads := s.reads + 1, error := some e }) ∨
      ∃ content more read, answers s.reads = .data content more ∧
        read = readAt content more (min s.remaining bufSize) s.offset ∧ read ≠ [] ∧
        s' = ⟨s.reads + 1, s.offset + read.length, s.remaining - read.length, s.yielded ++ read,
          none⟩) := by
  unfold poll at h
  split_ifs at h with hover
  obtain ⟨herr, hrem⟩ := not_or.mp hover
  refine ⟨by simpa using herr, by omega, ?_⟩
  obtain rfl := Option.some.inj h
  cases answers s.reads with
  | failed => exact .inl ⟨.other, rfl⟩
  | data content more =>
    by_cases hread : readAt content more (min s.remaining bufSize) s.offset = []
    · exact .inl ⟨.unexpectedEof, by simp [hread]⟩
    · exact .inr ⟨content, more, _, rfl, rfl, hread, by simp [hread]⟩

/-- The reads that are still possible. -/
def ReadState.left (s : ReadState) : ℕ := if s.error = none then s.remaining + 1 else 0

lemma Framed.poll (h : Framed file answers offset length s)
    (hfits : offset + length ≤ file.length) (hpoll : poll answers s = some s') :
    Framed file answers offset length s' ∧ s'.left < s.left := by
  obtain ⟨herr, hrem, ⟨e, rfl⟩ | ⟨content, more, read, hanswer, hread, hne, rfl⟩⟩ :=
    poll_cases hpoll
  · refine ⟨⟨h.total, h.position, fun _ => hrem, h.bytes, .inl (by simp)⟩, ?_⟩
    simp [ReadState.left, herr]
  have hlen : read.length ≤ min s.remaining bufSize := by
    rw [hread]
    simp [readAt]
  have hpos : 0 < read.length := length_pos_iff.mpr hne
  have htot := h.total
  have hpsn := h.position
  refine ⟨⟨?_, ?_, by simp, ?_, ?_⟩, ?_⟩
  · simp only [length_append]
    omega
  · simp only [length_append]
    omega
  · intro hkeeps
    have hpre := readAt_prefix more (min s.remaining bufSize) s.offset
      (hkeeps s.reads content more hanswer) (by omega)
    obtain ⟨rest, hrest⟩ := h.bytes hkeeps
    rw [← hread, hpsn, ← drop_drop, ← hrest, drop_left] at hpre
    rw [← hrest]
    exact (prefix_append_right_inj s.yielded).mpr hpre
  · have hcov : read.length ≤ content.length - s.offset := by
      rw [hread]
      simp [readAt]
    exact .inr (.inr ⟨content, more, hanswer, by dsimp only; omega⟩)
  · simp only [ReadState.left, herr, if_true]
    omega

/-- A body ends, and it ends without an error exactly if it has yielded its whole length. -/
lemma exists_body (answers : ℕ → ReadAnswer) (hfits : offset + length ≤ file.length) :
    ∃ s, Loop.iterate (poll answers) (length + 2) ⟨0, offset, length, [], none⟩ = some s ∧
      Framed file answers offset length s ∧ (s.error = none ↔ s.remaining = 0) := by
  obtain ⟨s, hs⟩ := Loop.exists_iterate (P := Framed file answers offset length) ReadState.left
    (fun _ _ h hpoll => h.poll hfits hpoll) framed_start (n := length + 2)
    (by simp [ReadState.left])
  obtain ⟨hfr, hover⟩ := Loop.iterate_spec (fun _ _ h hpoll => (h.poll hfits hpoll).1)
    framed_start hs
  refine ⟨s, hs, hfr, ?_⟩
  have hend : s.error.isSome = true ∨ s.remaining = 0 := by
    unfold Download.poll at hover
    by_contra hnot
    simp [hnot] at hover
  have hfail := hfr.failed
  cases herr : s.error with
  | none => simpa [herr] using hend
  | some e =>
    have hpos := hfail (by simp [herr])
    simp only [reduceCtorEq, false_iff]
    omega

/-- A body yields the bytes of its part of the file and ends, or some of them and an error; it is
never longer than announced, and the error comes if the last read finds the file too short. -/
def Delivers (file : List UInt8) (answers : ℕ → ReadAnswer) (offset length : ℕ) : Prop :=
  ∃ s, Loop.iterate (poll answers) (length + 2) ⟨0, offset, length, [], none⟩ = some s ∧
    s.yielded.length ≤ length ∧
    (Keeps file answers → s.error = none ∧ s.yielded = (file.drop offset).take length ∨
      s.error ≠ none ∧ ∃ k < length, s.yielded = (file.drop offset).take k) ∧
    (0 < length → (∀ content more, answers (s.reads - 1) = .data content more →
      content.length < offset + length) → s.error ≠ none)

lemma delivers (answers : ℕ → ReadAnswer) (hfits : offset + length ≤ file.length) :
    Delivers file answers offset length := by
  obtain ⟨s, hs, hfr, hend⟩ := exists_body answers hfits
  have htot := hfr.total
  refine ⟨s, hs, by omega, ?_, ?_⟩
  · intro hkeeps
    have hyielded := prefix_iff_eq_take.mp (hfr.bytes hkeeps)
    by_cases herr : s.error = none
    · have hrem := hend.mp herr
      obtain rfl : s.yielded.length = length := by omega
      exact .inl ⟨herr, hyielded⟩
    · have hpos := hfr.failed herr
      exact .inr ⟨herr, s.yielded.length, by omega, hyielded⟩
  · intro hpos hshort herr
    have hrem := hend.mp herr
    have hpsn := hfr.position
    rcases hfr.covered with hfail | hemp | ⟨content, more, hanswer, hlong⟩
    · exact hfail herr
    · rw [hemp] at htot
      simp only [length_nil] at htot
      omega
    · have hlt := hshort content more hanswer
      omega

end Stream

lemma requestedRange_bounds {ranges : List (Option String)} {size first last : ℕ}
    (h : requestedRange ranges size = some (.satisfiable first last)) :
    first ≤ last ∧ last < size := by
  unfold requestedRange at h
  split at h
  · cases h
  · have hprs := Option.some.inj h
    split_ifs at hprs
    split at hprs
    · cases hprs
    · obtain ⟨start, stop, -, hrng⟩ := parseRange_eq_satisfiable.mp hprs
      exact hrng.bounds

/-- What is answered: something other than the file, a part of it, or the whole file. -/
lemma sendOpenFile_cases {f : OpenFile} {h : Headers} {headOnly : Bool} {reply : Reply}
    (hrep : sendOpenFile f h headOnly = reply) :
    (reply.status ≠ .ok ∧ reply.status ≠ .partialContent) ∨
    (∃ first last, first ≤ last ∧ last < f.size ∧ reply =
      ⟨.partialContent, some (.bytes first last f.size), some (last - first + 1),
        some (first, last - first + 1)⟩) ∨
    reply = ⟨.ok, none, some f.size, if headOnly then none else some (0, f.size)⟩ := by
  unfold sendOpenFile at hrep
  split at hrep
  · subst hrep
    simp
  split at hrep
  case h_1 status hstat =>
    subst hrep
    left
    split_ifs at hstat
    unfold failedPrecondition at hstat
    split_ifs at hstat <;> cases hstat <;> simp
  case h_2 =>
    dsimp only at hrep
    split at hrep
    case h_1 first last hrng =>
      subst hrep
      right; left
      split_ifs at hrng with huse
      obtain ⟨hle, hlt⟩ := requestedRange_bounds hrng
      refine ⟨first, last, hle, hlt, ?_⟩
      cases headOnly with
      | true => simp at huse
      | false => rfl
    · subst hrep
      simp
    · exact .inr (.inr hrep.symm)
    · exact .inr (.inr hrep.symm)

/-- The parts of the file that are announced are those that the body delivers. -/
theorem sendOpenFile_delivers (file : List UInt8) (isFile validators headOnly : Bool)
    (h : Headers) (answers : ℕ → ReadAnswer) :
    ((sendOpenFile ⟨isFile, file.length, validators⟩ h headOnly).status = .partialContent →
      ∃ first last, first ≤ last ∧ last < file.length ∧
        sendOpenFile ⟨isFile, file.length, validators⟩ h headOnly =
          ⟨.partialContent, some (.bytes first last file.length), some (last - first + 1),
            some (first, last - first + 1)⟩ ∧
        Delivers file answers first (last - first + 1)) ∧
    ((sendOpenFile ⟨isFile, file.length, validators⟩ h headOnly).status = .ok →
      sendOpenFile ⟨isFile, file.length, validators⟩ h headOnly =
          ⟨.ok, none, some file.length, if headOnly then none else some (0, file.length)⟩ ∧
        Delivers file answers 0 file.length) := by
  generalize hreply : sendOpenFile ⟨isFile, file.length, validators⟩ h headOnly = reply
  rcases sendOpenFile_cases hreply with ⟨hok, hpartial⟩ | ⟨first, last, hle, hlt, rfl⟩ | rfl
  · exact ⟨fun hstatus => absurd hstatus hpartial, fun hstatus => absurd hstatus hok⟩
  · dsimp only at hlt
    have hpart : Delivers file answers first (last - first + 1) := delivers answers (by omega)
    exact ⟨fun _ => ⟨first, last, hle, hlt, rfl, hpart⟩, fun hstatus => by cases hstatus⟩
  · exact ⟨fun hstatus => (by cases hstatus), fun _ => ⟨rfl, delivers answers (by omega)⟩⟩

end DufsRam.Download
