import Mathlib.Algebra.Order.Ring.Nat

/-!
# Log entries of bounded length

A log entry is built from pieces, escaped to one line, and cut at a bound. A text is the list of its
characters; its length is that of its UTF-8 encoding.
-/

namespace DufsRam.Logging

open List

/-! ### Texts -/

/-- `str::len`. -/
def bytes (s : List Char) : ℕ := (s.map Char.utf8Size).sum

/-- `str::is_char_boundary`. -/
def isCharBoundary : List Char → ℕ → Bool
  | _, 0 => true
  | [], _ + 1 => false
  | c :: cs, n + 1 => decide (c.utf8Size ≤ n + 1) && isCharBoundary cs (n + 1 - c.utf8Size)

/-- The characters that end within the first bytes. -/
def takeBytes : List Char → ℕ → List Char
  | [], _ => []
  | c :: cs, n => if c.utf8Size ≤ n then c :: takeBytes cs (n - c.utf8Size) else []

/-- The loop that moves an end back to a character boundary. -/
def floorBoundary (s : List Char) : ℕ → ℕ
  | 0 => 0
  | n + 1 => if isCharBoundary s (n + 1) then n + 1 else floorBoundary s n

variable {s t piece value out : List Char} {n : ℕ} {c : Char}

@[simp] lemma bytes_nil : bytes [] = 0 := rfl

@[simp] lemma bytes_cons (c : Char) (s : List Char) : bytes (c :: s) = c.utf8Size + bytes s := rfl

@[simp] lemma bytes_append (s t : List Char) : bytes (s ++ t) = bytes s + bytes t := by
  simp [bytes]

lemma bytes_replicate (n : ℕ) (c : Char) : bytes (replicate n c) = n * c.utf8Size := by
  simp [bytes]

lemma takeBytes_isPrefix (s : List Char) (n : ℕ) : takeBytes s n <+: s := by
  induction s generalizing n with
  | nil => exact prefix_refl _
  | cons c s ih =>
    rw [takeBytes]
    split_ifs
    · exact prefix_cons_inj c |>.2 (ih _)
    · exact List.nil_prefix

lemma bytes_takeBytes_le (s : List Char) (n : ℕ) : bytes (takeBytes s n) ≤ n := by
  induction s generalizing n with
  | nil => exact Nat.zero_le n
  | cons c s ih =>
    rw [takeBytes]
    split_ifs with hfits
    · have := ih (n - c.utf8Size)
      rw [bytes_cons]
      omega
    · exact Nat.zero_le n

lemma takeBytes_append (h : bytes s ≤ n) :
    takeBytes (s ++ t) n = s ++ takeBytes t (n - bytes s) := by
  induction s generalizing n with
  | nil => rfl
  | cons c s ih =>
    rw [bytes_cons] at h ⊢
    rw [cons_append, takeBytes, if_pos (by omega), ih (by omega), Nat.sub_sub, cons_append]

lemma takeBytes_of_le (h : bytes s ≤ n) : takeBytes s n = s := by
  simpa [takeBytes] using takeBytes_append (t := []) h

/-- The first character that is cut off does not fit. -/
lemma lt_utf8Size_of_takeBytes (h : s = takeBytes s n ++ c :: t) :
    n - bytes (takeBytes s n) < c.utf8Size := by
  induction s generalizing n with
  | nil => simp at h
  | cons d s ih =>
    rw [takeBytes] at h ⊢
    split_ifs at h ⊢ with hfits
    · rw [bytes_cons, ← Nat.sub_sub]
      exact ih (List.cons.inj h).2
    · obtain ⟨rfl, -⟩ := List.cons.inj h
      rw [bytes_nil]
      omega

lemma takeBytes_succ (h : isCharBoundary s (n + 1) = false) :
    takeBytes s (n + 1) = takeBytes s n := by
  induction s generalizing n with
  | nil => rfl
  | cons c s ih =>
    rw [isCharBoundary] at h
    rw [takeBytes, takeBytes]
    obtain hlt | heq | hgt := lt_trichotomy c.utf8Size (n + 1)
    · have hsub : n + 1 - c.utf8Size = n - c.utf8Size + 1 := by omega
      rw [if_pos hlt.le, if_pos (by omega), hsub]
      rw [hsub, decide_eq_true hlt.le, Bool.true_and] at h
      rw [ih h]
    · simp [heq, isCharBoundary] at h
    · rw [if_neg (by omega), if_neg (by omega)]

/-- Cutting at the boundary found by the loop keeps what fits. -/
lemma takeBytes_floorBoundary (s : List Char) (n : ℕ) :
    takeBytes s (floorBoundary s n) = takeBytes s n := by
  induction n with
  | zero => rfl
  | succ n ih =>
    rw [floorBoundary]
    split_ifs with h
    · rfl
    · rw [ih, takeBytes_succ (Bool.eq_false_iff.2 h)]

lemma takeBytes_min (s : List Char) (n : ℕ) : takeBytes s (min (bytes s) n) = takeBytes s n := by
  obtain h | h := Nat.le_total (bytes s) n
  · rw [Nat.min_eq_left h, takeBytes_of_le le_rfl, takeBytes_of_le h]
  · rw [Nat.min_eq_right h]

/-! ### Lines -/

def maxLogEntryBytes : ℕ := 16 * 1024

def logTruncationSuffix : List Char := "...[truncated]".toList

/-- What is left for the text before the suffix. -/
def contentLimit : ℕ := maxLogEntryBytes - bytes logTruncationSuffix

structure BoundedLogLine where
  value : List Char
  truncated : Bool

def BoundedLogLine.new : BoundedLogLine := ⟨[], false⟩

def BoundedLogLine.pushStr (line : BoundedLogLine) (value : List Char) : BoundedLogLine :=
  if line.truncated then line
  else if bytes value ≤ maxLogEntryBytes - bytes line.value then ⟨line.value ++ value, false⟩
  else
    let kept :=
      if contentLimit < bytes line.value then
        takeBytes line.value (floorBoundary line.value contentLimit)
      else line.value
    let stop := floorBoundary value (min (bytes value) (contentLimit - bytes kept))
    ⟨kept ++ takeBytes value stop ++ logTruncationSuffix, true⟩

def BoundedLogLine.finish (line : BoundedLogLine) : List Char := line.value

/-- The line that is made of some pieces. -/
def boundedLine (pieces : List (List Char)) : List Char :=
  (pieces.foldl BoundedLogLine.pushStr .new).finish

/-- The text itself if it keeps the bound, and otherwise a part from its beginning that is marked as
truncated. -/
def IsImage (text out : List Char) : Prop :=
  (bytes text ≤ maxLogEntryBytes ∧ out = text) ∨
    (maxLogEntryBytes < bytes text ∧ bytes out ≤ maxLogEntryBytes ∧
      ∃ head, head <+: text ∧ out = head ++ logTruncationSuffix)

/-- The piece that exceeds the bound comes when a part of what was accepted has to make room for the
suffix, the limit falls within a character, and the piece begins with a character that is short
enough for the bytes that are then left. -/
def splices (value : List Char) : List (List Char) → Bool
  | [] => false
  | piece :: rest =>
    if bytes value + bytes piece ≤ maxLogEntryBytes then splices (value ++ piece) rest
    else decide (contentLimit < bytes value) &&
      !(takeBytes piece (contentLimit - bytes (takeBytes value contentLimit))).isEmpty

lemma contentLimit_add : contentLimit + bytes logTruncationSuffix = maxLogEntryBytes := by decide

/-- The text before the suffix keeps the limit. -/
lemma isImage_of_prefix {head : List Char} (htext : maxLogEntryBytes < bytes s) (hhead : head <+: s)
    (hlim : bytes head ≤ contentLimit) : IsImage s (head ++ logTruncationSuffix) := by
  refine .inr ⟨htext, ?_, head, hhead, rfl⟩
  rw [bytes_append, ← contentLimit_add]
  exact Nat.add_le_add_right hlim _

lemma foldl_truncated (value : List Char) (pieces : List (List Char)) :
    pieces.foldl BoundedLogLine.pushStr ⟨value, true⟩ = ⟨value, true⟩ := by
  induction pieces with
  | nil => rfl
  | cons piece pieces ih => exact ih

/-- The piece that exceeds the bound. -/
lemma pushStr_of_lt (hvl : bytes value ≤ maxLogEntryBytes)
    (h : maxLogEntryBytes < bytes value + bytes piece) :
    BoundedLogLine.pushStr ⟨value, false⟩ piece =
      ⟨takeBytes value contentLimit ++
        takeBytes piece (contentLimit - bytes (takeBytes value contentLimit)) ++
        logTruncationSuffix, true⟩ := by
  have hkept : (if contentLimit < bytes value then takeBytes value contentLimit else value) =
      takeBytes value contentLimit := by
    split_ifs with hlim
    · rfl
    · rw [takeBytes_of_le (by omega)]
  simp only [BoundedLogLine.pushStr, Bool.false_eq_true, if_false, takeBytes_floorBoundary,
    takeBytes_min]
  rw [if_neg (by omega), hkept]

/-- What is spliced in is not what follows. -/
lemma not_prefix_of_spliced {rest : List Char} (hvl : contentLimit < bytes value)
    (hpiece : takeBytes piece (contentLimit - bytes (takeBytes value contentLimit)) ≠ []) :
    ¬ takeBytes value contentLimit ++
      takeBytes piece (contentLimit - bytes (takeBytes value contentLimit)) <+: value ++ rest := by
  intro h
  obtain ⟨cut, hcut⟩ := takeBytes_isPrefix value contentLimit
  cases cut with
  | nil =>
    have hle := bytes_takeBytes_le value contentLimit
    rw [append_nil] at hcut
    rw [hcut] at hle
    omega
  | cons c cut =>
    have hsize := lt_utf8Size_of_takeBytes hcut.symm
    have hbyt := bytes_takeBytes_le piece (contentLimit - bytes (takeBytes value contentLimit))
    generalize takeBytes piece (contentLimit - bytes (takeBytes value contentLimit)) = spliced at *
    cases spliced with
    | nil => exact hpiece rfl
    | cons d spliced =>
      nth_rewrite 2 [← hcut] at h
      rw [append_assoc, prefix_append_right_inj, cons_append, cons_prefix_cons] at h
      rw [h.1, bytes_cons] at hbyt
      omega

/-- A line is an image of its text unless a piece is spliced in. -/
lemma isImage_foldl_iff (hs : bytes s ≤ maxLogEntryBytes) (pieces : List (List Char)) :
    IsImage (s ++ pieces.flatten) (pieces.foldl BoundedLogLine.pushStr ⟨s, false⟩).value ↔
      splices s pieces = false := by
  induction pieces generalizing s with
  | nil =>
    simp only [flatten_nil, append_nil, splices, iff_true]
    exact .inl ⟨hs, rfl⟩
  | cons piece pieces ih =>
    rw [flatten_cons, ← append_assoc, foldl_cons, splices]
    split_ifs with hfits
    · rw [← ih (by rwa [bytes_append]), BoundedLogLine.pushStr, if_neg (by simp),
        if_pos (Nat.le_sub_of_add_le (by rwa [Nat.add_comm]))]
    rw [Nat.not_le] at hfits
    have htext : maxLogEntryBytes < bytes (s ++ piece ++ pieces.flatten) := by
      simp only [bytes_append]
      omega
    have hlim := bytes_takeBytes_le piece (contentLimit - bytes (takeBytes s contentLimit))
    have hkept := bytes_takeBytes_le s contentLimit
    rw [pushStr_of_lt hs hfits, foldl_truncated]
    by_cases hover : contentLimit < bytes s
    · rw [decide_eq_true hover, Bool.true_and, Bool.not_eq_false', List.isEmpty_iff]
      constructor
      · rintro (⟨hle, -⟩ | ⟨-, -, head, hhead, hout⟩)
        · omega
        · by_contra hspliced
          rw [← append_cancel_right hout, append_assoc s] at hhead
          exact not_prefix_of_spliced hover hspliced hhead
      · intro hnil
        rw [hnil, append_nil]
        refine isImage_of_prefix htext ?_ hkept
        rw [append_assoc]
        exact (takeBytes_isPrefix _ _).trans (prefix_append _ _)
    · rw [decide_eq_false hover, Bool.false_and, iff_true_intro rfl, iff_true]
      have hsame : takeBytes s contentLimit = s := takeBytes_of_le (Nat.not_lt.1 hover)
      rw [hsame] at hlim hkept ⊢
      refine isImage_of_prefix htext ?_ ?_
      · rw [append_assoc s]
        exact prefix_append_right_inj s |>.2 ((takeBytes_isPrefix _ _).trans (prefix_append _ _))
      · rw [bytes_append]
        omega

lemma isImage_boundedLine_iff (pieces : List (List Char)) :
    IsImage pieces.flatten (boundedLine pieces) ↔ splices [] pieces = false :=
  isImage_foldl_iff (s := []) (Nat.zero_le _) pieces

/-! ### Entries -/

/-- `char::is_control`. -/
def isControl (c : Char) : Bool :=
  decide (c.toNat < 0x20) || (decide (0x7f ≤ c.toNat) && decide (c.toNat < 0xa0))

/-- One line of text. -/
abbrev Plain (text : List Char) : Prop := ∀ c ∈ text, isControl c = false

/-- The escape of a control character by its code. -/
def unicodeEscape (c : Char) : List Char := "\\u\x7b".toList ++ Nat.toDigits 16 c.toNat ++ ['\x7d']

def sanitizeLogLine (value : List Char) : List Char :=
  value.flatMap fun c =>
    match c with
    | '\n' => "\\n".toList
    | '\r' => "\\r".toList
    | '\t' => "\\t".toList
    | c => if isControl c then unicodeEscape c else [c]

def truncateLogEntry (value : List Char) : List Char :=
  if bytes value ≤ maxLogEntryBytes then value
  else takeBytes value (floorBoundary value contentLimit) ++ logTruncationSuffix

inductive Level where
  | error | warn | info | debug | trace
  deriving DecidableEq

def Level.text : Level → List Char
  | .error => "ERROR".toList
  | .warn => "WARN".toList
  | .info => "INFO".toList
  | .debug => "DEBUG".toList
  | .trace => "TRACE".toList

/-- `enabled`: the level is at most `Info`. -/
def Level.enabled : Level → Bool
  | .debug | .trace => false
  | _ => true

structure Record where
  level : Level
  target : String
  args : List Char

/-- The time as `to_rfc3339_opts` writes it, which is without control characters. -/
def Timestamp : Type := { text : List Char // Plain text }

/-- The line of a record before it is cut. -/
def Record.text (now : Timestamp) (record : Record) : List Char :=
  let message := sanitizeLogLine record.args
  if record.target = "http_access" then message
  else now.1 ++ ' ' :: record.level.text ++ ' ' :: message

/-- `AsyncLogger::log` up to the queue of the writer. -/
def Record.entry (now : Timestamp) (record : Record) : Option (List Char) :=
  if record.level.enabled then some (truncateLogEntry (record.text now)) else none

lemma plain_of_all (h : s.all (!isControl ·) = true) : Plain s := by simpa using h

lemma plain_toDigits (n : ℕ) (hn : n < 0xa0) : Plain (Nat.toDigits 16 n) := by
  have hall : ∀ n < 0xa0, (Nat.toDigits 16 n).all (!isControl ·) = true := by decide +kernel
  exact plain_of_all (hall n hn)

lemma plain_unicodeEscape (hc : isControl c = true) : Plain (unicodeEscape c) := by
  have hlt : c.toNat < 0xa0 := by
    simp only [isControl, Bool.or_eq_true, Bool.and_eq_true, decide_eq_true_eq] at hc
    omega
  intro d hd
  rw [unicodeEscape, mem_append, mem_append] at hd
  obtain (hd | hd) | hd := hd
  · exact plain_of_all (by decide) d hd
  · exact plain_toDigits _ hlt d hd
  · exact plain_of_all (by decide) d hd

lemma plain_sanitizeLogLine (value : List Char) : Plain (sanitizeLogLine value) := by
  intro c hc
  obtain ⟨d, -, hd⟩ := mem_flatMap.1 hc
  split at hd
  · exact plain_of_all (by decide) c hd
  · exact plain_of_all (by decide) c hd
  · exact plain_of_all (by decide) c hd
  · split_ifs at hd with hctl
    · exact plain_unicodeEscape hctl c hd
    · rw [mem_singleton.1 hd]
      exact Bool.eq_false_iff.2 hctl

lemma plain_text (now : Timestamp) (record : Record) : Plain (record.text now) := by
  have hmsg := plain_sanitizeLogLine record.args
  have hlevel : Plain record.level.text := by
    cases record.level <;> exact plain_of_all (by decide)
  intro c hc
  rw [Record.text] at hc
  split_ifs at hc
  · exact hmsg c hc
  · simp only [mem_append, mem_cons] at hc
    obtain (hc | rfl | hc) | rfl | hc := hc
    · exact now.2 c hc
    · decide
    · exact hlevel c hc
    · decide
    · exact hmsg c hc

lemma isImage_truncateLogEntry (value : List Char) : IsImage value (truncateLogEntry value) := by
  rw [truncateLogEntry]
  split_ifs with hfits
  · exact .inl ⟨hfits, rfl⟩
  · rw [takeBytes_floorBoundary]
    exact isImage_of_prefix (Nat.lt_of_not_le hfits) (takeBytes_isPrefix _ _)
      (bytes_takeBytes_le _ _)

lemma IsImage.bytes_le (h : IsImage s out) : bytes out ≤ maxLogEntryBytes := by
  obtain ⟨h, rfl⟩ | ⟨-, h, -⟩ := h
  · exact h
  · exact h

lemma IsImage.mem (h : IsImage s out) (hc : c ∈ out) : c ∈ s ∨ c ∈ logTruncationSuffix := by
  obtain ⟨-, rfl⟩ | ⟨-, -, head, hhead, rfl⟩ := h
  · exact .inl hc
  · exact (mem_append.1 hc).imp_left fun hc => hhead.subset hc

/-- A line of pieces is an image of their text exactly if no piece is spliced in; an entry that is
written is an image of its escaped text and one line. -/
theorem log_entries_true (pieces : List (List Char)) :
    (IsImage pieces.flatten (boundedLine pieces) ↔ splices [] pieces = false) ∧
      ∀ (now : Timestamp) (record : Record) (entry : List Char), record.entry now = some entry →
        Plain entry ∧ bytes entry ≤ maxLogEntryBytes ∧ IsImage (record.text now) entry := by
  refine ⟨isImage_boundedLine_iff pieces, fun now record entry hentry => ?_⟩
  rw [Record.entry] at hentry
  split_ifs at hentry
  cases hentry
  have himage := isImage_truncateLogEntry (record.text now)
  refine ⟨fun c hc => ?_, himage.bytes_le, himage⟩
  exact (himage.mem hc).elim (plain_text now record c) (plain_of_all (by decide) c)

/-- A character of two bytes ends just after the limit, and what follows it does not fit. -/
def splicedPieces : List (List Char) :=
  [List.replicate (contentLimit - 1) 'a' ++ ['é'], List.replicate 14 'b']

theorem spliced_not_prefix : ¬ IsImage splicedPieces.flatten (boundedLine splicedPieces) := by
  have hbytes : bytes (List.replicate (contentLimit - 1) 'a') = contentLimit - 1 := by
    rw [bytes_replicate]
    exact Nat.mul_one _
  have htake : takeBytes (List.replicate (contentLimit - 1) 'a' ++ ['é']) contentLimit =
      List.replicate (contentLimit - 1) 'a' := by
    rw [takeBytes_append (hbytes.trans_le (Nat.sub_le _ _)), hbytes]
    exact List.append_nil _
  rw [isImage_boundedLine_iff]
  simp only [splicedPieces, splices, List.nil_append, htake, bytes_append, bytes_nil, hbytes]
  decide

end DufsRam.Logging
