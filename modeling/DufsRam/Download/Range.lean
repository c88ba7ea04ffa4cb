import Mathlib.Data.List.DropRight
import Mathlib.Data.String.Basic

/-!
# The `Range` header

`parse_range` of `utils.rs` accepts a single byte range. Its numbers are read with `str::parse`,
which refuses what does not fit 64 bits and takes a leading `+`.
-/

namespace DufsRam.Download

open List Char

inductive ParsedRange where
  | ignore
  | satisfiable (first last : ℕ)
  | unsatisfiable
  deriving DecidableEq

/-- `char::is_whitespace`: the characters with the Unicode property `White_Space`. -/
def isWhitespace (c : Char) : Bool :=
  c.toNat ∈ [0x20, 0x85, 0xa0, 0x1680, 0x2028, 0x2029, 0x202f, 0x205f, 0x3000] ||
    (9 ≤ c.toNat && c.toNat ≤ 13) || (0x2000 ≤ c.toNat && c.toNat ≤ 0x200a)

/-- `str::trim`. -/
def trim (text : List Char) : List Char :=
  (text.dropWhile isWhitespace).rdropWhile isWhitespace

/-- `str::split_once`. -/
def splitOnce (separator : Char) : List Char → Option (List Char × List Char)
  | [] => none
  | c :: rest =>
    if c = separator then some ([], rest)
    else (splitOnce separator rest).map fun p => (c :: p.1, p.2)

def decimal (digits : List Char) : ℕ :=
  digits.foldl (fun n c => 10 * n + (c.toNat - '0'.toNat)) 0

/-- `str::parse::<u64>`. -/
def parseU64 (text : List Char) : Option ℕ :=
  let digits := if text.head? = some '+' then text.tail else text
  if digits ≠ [] ∧ digits.all isDigit ∧ decimal digits < 2 ^ 64 then some (decimal digits)
  else none

/-- The texts on both sides of the dash. -/
def splitRange (range : String) : Except ParsedRange (List Char × List Char) :=
  match splitOnce '=' range.toList with
  | none => .error .unsatisfiable
  | some (unit, positions) =>
    if unit.map toLower ≠ "bytes".toList then .error .ignore
    else if ',' ∈ positions then .error .unsatisfiable
    else match splitOnce '-' (trim positions) with
      | none => .error .unsatisfiable
      | some texts => .ok texts

def parsePositions (start stop : List Char) (size : ℕ) : ParsedRange :=
  if start = [] then
    match parseU64 stop with
    | none => .unsatisfiable
    | some length =>
      if length = 0 ∨ size = 0 then .unsatisfiable
      else .satisfiable (size - min length size) (size - 1)
  else
    match parseU64 start with
    | none => .unsatisfiable
    | some first =>
      if size ≤ first then .unsatisfiable
      else if stop = [] then .satisfiable first (size - 1)
      else match parseU64 stop with
        | none => .unsatisfiable
        | some last =>
          if last < first then .unsatisfiable else .satisfiable first (min last (size - 1))

def parseRange (range : String) (size : ℕ) : ParsedRange :=
  match splitRange range with
  | .error parsed => parsed
  | .ok (start, stop) => parsePositions start stop size

/-! ### The grammar -/

/-- The unit `bytes` and a range between optional whitespace. -/
def RangeField (range : String) (start stop : List Char) : Prop :=
  ∃ unit before after, range.toList = unit ++ '=' :: (before ++ (start ++ '-' :: stop) ++ after) ∧
    unit.map toLower = "bytes".toList ∧ (∀ c ∈ before, isWhitespace c = true) ∧
    ∀ c ∈ after, isWhitespace c = true

/-- The three forms of a range, over the way numbers are written, and what they select. -/
inductive ByteRange (Number : List Char → ℕ → Prop) (size : ℕ) :
    List Char → List Char → ℕ → ℕ → Prop
  | closed {start stop : List Char} {first last : ℕ} : Number start first → Number stop last →
      first < size → first ≤ last → ByteRange Number size start stop first (min last (size - 1))
  | toEnd {start : List Char} {first : ℕ} : Number start first → first < size →
      ByteRange Number size start [] first (size - 1)
  | suffix {stop : List Char} {length : ℕ} : Number stop length → 0 < length → 0 < size →
      ByteRange Number size [] stop (size - min length size) (size - 1)

/-- A number is a string of digits that is not empty. -/
def Digits (text : List Char) (n : ℕ) : Prop :=
  text ≠ [] ∧ text.all isDigit = true ∧ decimal text = n

/-- A number that fits 64 bits. -/
def Digits64 (text : List Char) (n : ℕ) : Prop := Digits text n ∧ n < 2 ^ 64

def Grammar (Number : List Char → ℕ → Prop) (range : String) (size first last : ℕ) : Prop :=
  ∃ start stop, RangeField range start stop ∧ ByteRange Number size start stop first last

/-- No number of the range, which is split at its first hyphen, begins with a plus sign. -/
def Unsigned (range : String) : Prop :=
  ∀ start stop, RangeField range start stop → '-' ∉ start →
    start.head? ≠ some '+' ∧ stop.head? ≠ some '+'

/-! ### Splitting -/

lemma splitOnce_eq_some {separator : Char} {text a b : List Char} :
    splitOnce separator text = some (a, b) ↔ text = a ++ separator :: b ∧ separator ∉ a := by
  induction text generalizing a with
  | nil => simp [splitOnce]
  | cons c rest ih =>
    unfold splitOnce
    split_ifs with hc
    · constructor
      · rintro ⟨⟩
        simp [hc]
      · rintro ⟨htext, hnot⟩
        cases a with
        | nil => simp_all
        | cons d a =>
          obtain ⟨rfl, -⟩ := List.cons.inj htext
          simp [hc] at hnot
    · constructor
      · intro h
        obtain ⟨⟨a', b'⟩, hrest, heq⟩ := Option.map_eq_some_iff.mp h
        cases heq
        obtain ⟨htext, hnot⟩ := ih.mp hrest
        simp [htext, hnot, Ne.symm hc]
      · rintro ⟨htext, hnot⟩
        cases a with
        | nil => exact absurd (List.cons.inj htext).1 hc
        | cons d a =>
          obtain ⟨rfl, hrest⟩ := List.cons.inj htext
          have hspl := ih.mpr ⟨hrest, fun hmem => hnot (mem_cons_of_mem _ hmem)⟩
          simp [hspl]

lemma trim_between {before core after : List Char} (hne : core ≠ [])
    (hbef : ∀ c ∈ before, isWhitespace c = true) (hafter : ∀ c ∈ after, isWhitespace c = true)
    (hcore : ∀ c ∈ core, isWhitespace c = false) : trim (before ++ core ++ after) = core := by
  have hfst : (before ++ core ++ after).dropWhile isWhitespace = core ++ after := by
    obtain ⟨c, rest, rfl⟩ := exists_cons_of_ne_nil hne
    rw [append_assoc, dropWhile_append_of_pos hbef, cons_append,
      dropWhile_cons_of_neg (by simp [hcore c])]
  have hlast : (core ++ after).reverse.dropWhile isWhitespace = core.reverse := by
    obtain ⟨c, rest, hc⟩ := exists_cons_of_ne_nil (reverse_ne_nil_iff.mpr hne)
    have hmem : c ∈ core := mem_reverse.mp (hc ▸ mem_cons_self)
    rw [reverse_append, dropWhile_append_of_pos (by simpa using hafter), hc,
      dropWhile_cons_of_neg (by simp [hcore c hmem])]
  rw [trim, hfst, rdropWhile, hlast, reverse_reverse]

lemma exists_trim (text : List Char) : ∃ before after, text = before ++ trim text ++ after ∧
    (∀ c ∈ before, isWhitespace c = true) ∧ ∀ c ∈ after, isWhitespace c = true := by
  refine ⟨text.takeWhile isWhitespace, (text.dropWhile isWhitespace).rtakeWhile isWhitespace,
    ?_, fun c => mem_takeWhile_imp, fun c => mem_rtakeWhile_imp⟩
  rw [trim, append_assoc, rdropWhile_append_rtakeWhile, takeWhile_append_dropWhile]

variable {range : String} {start stop : List Char} {first last size : ℕ}

lemma rangeField_of_splitRange (h : splitRange range = .ok (start, stop)) :
    RangeField range start stop ∧ '-' ∉ start := by
  unfold splitRange at h
  split at h
  · cases h
  case h_2 unit positions hfield =>
    split_ifs at h with hunit hcomma
    split at h
    · cases h
    case h_2 texts hdash =>
      cases h
      obtain ⟨hrng, -⟩ := splitOnce_eq_some.mp hfield
      obtain ⟨hpsns, hstart⟩ := splitOnce_eq_some.mp hdash
      obtain ⟨before, after, htrim, hbef, hafter⟩ := exists_trim positions
      refine ⟨⟨unit, before, after, ?_, not_not.mp hunit, hbef, hafter⟩, hstart⟩
      rw [hrng, ← hpsns, ← htrim]

lemma not_isWhitespace_of_isDigit {c : Char} (h : c.isDigit = true) : isWhitespace c = false := by
  have hdigit : 48 ≤ c.toNat ∧ c.toNat ≤ 57 := by
    simpa [isDigit, UInt32.le_iff_toNat_le] using h
  simp only [isWhitespace, Bool.or_eq_false_iff, Bool.and_eq_false_iff, decide_eq_false_iff_not,
    mem_cons, not_mem_nil, or_false]
  omega

/-- Nothing of the grammar is lost or added by the order in which the code splits. -/
lemma splitRange_of_rangeField (h : RangeField range start stop) (hst : start.all isDigit = true)
    (hstop : stop.all isDigit = true) : splitRange range = .ok (start, stop) := by
  obtain ⟨unit, before, after, hrng, hunit, hbef, hafter⟩ := h
  have hdigit : ∀ c ∈ start ++ '-' :: stop, c = '-' ∨ c.isDigit = true := by
    intro c hc
    simp only [mem_append, mem_cons] at hc
    simp only [all_eq_true] at hst hstop
    grind
  have hcore : ∀ c ∈ start ++ '-' :: stop, isWhitespace c = false := by
    intro c hc
    rcases hdigit c hc with rfl | hc
    · decide
    · exact not_isWhitespace_of_isDigit hc
  have hequals : '=' ∉ unit := by
    intro hmem
    have hlower := mem_map_of_mem (f := toLower) hmem
    rw [hunit] at hlower
    revert hlower
    decide
  have hcomma : ',' ∉ before ++ (start ++ '-' :: stop) ++ after := by
    intro hmem
    rcases mem_append.mp hmem with hmem | hmem
    · rcases mem_append.mp hmem with hmem | hmem
      · exact absurd (hbef _ hmem) (by decide)
      · exact absurd (hdigit _ hmem) (by decide)
    · exact absurd (hafter _ hmem) (by decide)
  have hdash : '-' ∉ start := fun hmem => absurd (all_eq_true.mp hst _ hmem) (by decide)
  unfold splitRange
  rw [splitOnce_eq_some.mpr ⟨hrng, hequals⟩]
  dsimp only
  rw [if_neg (not_not.mpr hunit), if_neg hcomma,
    trim_between (by simp) hbef hafter hcore, splitOnce_eq_some.mpr ⟨rfl, hdash⟩]

/-! ### Positions -/

lemma parsePositions_eq_satisfiable : parsePositions start stop size = .satisfiable first last ↔
      ByteRange (fun text n => parseU64 text = some n) size start stop first last := by
  have hemp : parseU64 [] = none := rfl
  constructor
  · intro h
    unfold parsePositions at h
    by_cases hst : start = []
    · rw [if_pos hst] at h
      subst hst
      split at h
      · cases h
      case h_2 length hlen =>
        split_ifs at h with hzero
        cases h
        exact .suffix hlen (by omega) (by omega)
    rw [if_neg hst] at h
    split at h
    · cases h
    case h_2 n hn =>
      by_cases hsize : size ≤ n
      · rw [if_pos hsize] at h
        cases h
      rw [if_neg hsize] at h
      split at h
      · cases h
        subst stop
        exact .toEnd hn (by omega)
      · split at h
        · cases h
        case h_2 m hm =>
          split_ifs at h with hle
          cases h
          exact .closed hn hm (by omega) (by omega)
  · intro h
    unfold parsePositions
    cases h with
    | closed hst hstop hsize hle =>
      have hne : start ≠ [] := fun heq => by simp [heq, hemp] at hst
      have hne' : stop ≠ [] := fun heq => by simp [heq, hemp] at hstop
      rw [if_neg hne, hst]
      dsimp only
      rw [if_neg (by omega), if_neg hne', hstop]
      exact if_neg (by omega)
    | toEnd hst hsize =>
      have hne : start ≠ [] := fun heq => by simp [heq, hemp] at hst
      rw [if_neg hne, hst]
      dsimp only
      rw [if_neg (by omega), if_pos rfl]
    | suffix hstop hlen hsize =>
      rw [if_pos rfl, hstop]
      exact if_neg (by omega)

lemma parseU64_eq_some_of_unsigned {text : List Char} {n : ℕ} (h : text.head? ≠ some '+') :
    parseU64 text = some n ↔ Digits64 text n := by
  unfold parseU64 Digits64 Digits
  simp only [if_neg h]
  split_ifs with hdig
  · simp only [Option.some.injEq]
    exact ⟨fun heq => ⟨⟨hdig.1, hdig.2.1, heq⟩, heq ▸ hdig.2.2⟩, fun heq => heq.1.2.2⟩
  · simp only [false_iff]
    rintro ⟨⟨hne, hall, rfl⟩, hfits⟩
    exact hdig ⟨hne, hall, hfits⟩

lemma ByteRange.map {N M : List Char → ℕ → Prop} (h : ByteRange N size start stop first last)
    (hst : ∀ n, N start n → M start n) (hstop : ∀ n, N stop n → M stop n) :
    ByteRange M size start stop first last := by
  cases h with
  | closed hfst hlast hsize hle => exact .closed (hst _ hfst) (hstop _ hlast) hsize hle
  | toEnd hfst hsize => exact .toEnd (hst _ hfst) hsize
  | suffix hlen hpos hsize => exact .suffix (hstop _ hlen) hpos hsize

lemma ByteRange.bounds {N : List Char → ℕ → Prop} (h : ByteRange N size start stop first last) :
    first ≤ last ∧ last < size := by
  cases h <;> omega

lemma ByteRange.all_isDigit (h : ByteRange Digits64 size start stop first last) :
    start.all isDigit = true ∧ stop.all isDigit = true := by
  cases h with
  | closed hfst hlast => exact ⟨hfst.1.2.1, hlast.1.2.1⟩
  | toEnd hfst => exact ⟨hfst.1.2.1, rfl⟩
  | suffix hlen => exact ⟨rfl, hlen.1.2.1⟩

lemma parseRange_eq_satisfiable : parseRange range size = .satisfiable first last ↔
      ∃ start stop, splitRange range = .ok (start, stop) ∧
        ByteRange (fun text n => parseU64 text = some n) size start stop first last := by
  simp only [← parsePositions_eq_satisfiable]
  unfold parseRange
  cases hspl : splitRange range with
  | ok texts =>
    obtain ⟨start, stop⟩ := texts
    simp
  | error parsed =>
    have hprs : parsed ≠ .satisfiable first last := by
      rintro rfl
      unfold splitRange at hspl
      split at hspl
      · cases hspl
      · split_ifs at hspl with hunit hcomma
        · cases hspl
        · cases hspl
        · split at hspl <;> cases hspl
    simp [hprs]

/-- A range whose numbers carry no sign is accepted exactly if it is in the grammar and its
numbers fit 64 bits. -/
theorem parseRange_satisfiable_iff (range : String) (hunsigned : Unsigned range)
    (size first last : ℕ) : parseRange range size = .satisfiable first last ↔
      Grammar Digits64 range size first last := by
  rw [parseRange_eq_satisfiable]
  constructor
  · rintro ⟨start, stop, hsplit, hrange⟩
    obtain ⟨hfield, hhyphen⟩ := rangeField_of_splitRange hsplit
    obtain ⟨hstart, hstop⟩ := hunsigned start stop hfield hhyphen
    refine ⟨start, stop, hfield, hrange.map ?_ ?_⟩
    · exact fun n => (parseU64_eq_some_of_unsigned hstart).mp
    · exact fun n => (parseU64_eq_some_of_unsigned hstop).mp
  · rintro ⟨start, stop, hfield, hrange⟩
    obtain ⟨hdigits, hdigits'⟩ := hrange.all_isDigit
    obtain ⟨hstart, hstop⟩ := hunsigned start stop hfield fun hmem =>
      absurd (all_eq_true.1 hdigits _ hmem) (by decide)
    refine ⟨start, stop, splitRange_of_rangeField hfield hdigits hdigits', hrange.map ?_ ?_⟩
    · exact fun n => (parseU64_eq_some_of_unsigned hstart).mpr
    · exact fun n => (parseU64_eq_some_of_unsigned hstop).mpr

lemma unsigned_of_not_mem (h : '+' ∉ range.toList) : Unsigned range := by
  rintro start stop ⟨unit, before, after, hrng, -⟩ -
  rw [hrng] at h
  constructor <;> intro hhead <;> exact h (by simp [mem_of_mem_head? hhead])

theorem parseRange_suffix_satisfiable : Grammar Digits64 "BYTES= -300\t" 500 200 499 := by
  have hunsigned : Unsigned "BYTES= -300\t" := unsigned_of_not_mem (by decide)
  exact (parseRange_satisfiable_iff _ hunsigned 500 200 499).mp (by decide +kernel)

/-- A number beyond 64 bits is refused where the grammar would cut it back to the end, and a sign
is taken where the grammar knows none. -/
theorem parseRange_departs : parseRange "bytes=0-18446744073709551616" 1 = .unsatisfiable ∧
      Grammar Digits "bytes=0-18446744073709551616" 1 0 0 ∧
      parseRange "bytes=+0-0" 1 = .satisfiable 0 0 := by
  refine ⟨by decide +kernel, ?_, by decide +kernel⟩
  refine ⟨"0".toList, "18446744073709551616".toList, ?_, ?_⟩
  · exact ⟨"bytes".toList, [], [], by decide, by decide, by simp, by simp⟩
  · have hfirst : Digits "0".toList 0 := ⟨by decide, by decide, by decide⟩
    have hlast : Digits "18446744073709551616".toList 18446744073709551616 :=
      ⟨by decide, by decide, by decide⟩
    exact .closed hfirst hlast (by decide) (by decide)

end DufsRam.Download
