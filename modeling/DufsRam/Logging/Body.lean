import Mathlib.Algebra.Order.Ring.Nat

/-!
# The access log of a response body

`log_response_body` puts off the record of a request until its response body is through:
`AccessLogBody` passes the frames on, and calls the completion at an error, at the end of the stream
or when it is dropped.
-/

namespace DufsRam.Logging

/-- What a poll of a body gives; of data only the length is looked at. -/
inductive PollFrame where
  | pending
  | data (length : ℕ)
  | trailers
  | error (text : String)
  | finished
  deriving DecidableEq

/-- `reports` lists what the completion was called with; it is called while it is still there. -/
structure AccessLogBody where
  expectedBodyBytes : Option ℕ
  producedBodyBytes : ℕ
  completion : Bool
  reports : List (Option String)

def bodyLengthError (expected : Option ℕ) (produced : ℕ) : Option String :=
  (expected.filter fun expected => expected ≠ produced).map fun expected =>
    "response body produced " ++ toString produced ++ " bytes but declared " ++ toString expected ++
      " bytes"

/-- What `Drop` reports. -/
def droppedError (expected : Option ℕ) (produced : ℕ) : Option String :=
  match bodyLengthError expected produced with
  | some error => some error
  | none =>
    if expected.isSome then none else some "response body was dropped before stream completion"

namespace AccessLogBody

def complete (error : Option String) (b : AccessLogBody) : AccessLogBody :=
  if b.completion then { b with completion := false, reports := b.reports ++ [error] } else b

/-- `u64::saturating_add`. -/
def saturatingAdd (a b : ℕ) : ℕ := min (a + b) (2 ^ 64 - 1)

def pollFrame (b : AccessLogBody) : PollFrame → AccessLogBody
  | .pending | .trailers => b
  | .data length => { b with producedBodyBytes := saturatingAdd b.producedBodyBytes length }
  | .error text => b.complete (some ("response body stream failed: " ++ text))
  | .finished => b.complete (bodyLengthError b.expectedBodyBytes b.producedBodyBytes)

def drop (b : AccessLogBody) : AccessLogBody :=
  b.complete (droppedError b.expectedBodyBytes b.producedBodyBytes)

end AccessLogBody

/-- What the completion is called with, for a format with elements, when the body gives these polls
before it is dropped. A body that is at its end is not polled. -/
def logResponseBody (expected sizeHint : Option ℕ) (isEndStream : Bool) (polls : List PollFrame) :
    List (Option String) :=
  let expected := expected.or sizeHint
  if isEndStream then [bodyLengthError expected 0]
  else (polls.foldl AccessLogBody.pollFrame ⟨expected, 0, true, []⟩).drop.reports

/-! ### The completion -/

/-- The poll completes the record. -/
def PollFrame.ends : PollFrame → Bool
  | .error _ | .finished => true
  | _ => false

/-- The data bytes before the completion. -/
def producedBytes : List PollFrame → ℕ
  | .data length :: rest => length + producedBytes rest
  | .pending :: rest | .trailers :: rest => producedBytes rest
  | _ => 0

/-- No error comes before the completion, and the body is known to be whole: the bytes, as they are
counted, are those expected or, if it is not known how many, the stream has ended. -/
def Whole (count : ℕ → ℕ) (expected : Option ℕ) (polls : List PollFrame) : Prop :=
  (∀ text, polls.find? PollFrame.ends ≠ some (.error text)) ∧
    (∀ n ∈ expected, n = count (producedBytes polls)) ∧
    (expected = none → polls.find? PollFrame.ends = some .finished)

variable {b : AccessLogBody} {polls : List PollFrame}

lemma bodyLengthError_eq_none {expected : Option ℕ} {produced : ℕ} :
    bodyLengthError expected produced = none ↔ ∀ n ∈ expected, n = produced := by
  cases expected <;> simp [bodyLengthError]

lemma droppedError_eq_none {expected : Option ℕ} {produced : ℕ} :
    droppedError expected produced = none ↔ expected = some produced := by
  cases expected with
  | none => simp [droppedError, bodyLengthError]
  | some n => by_cases hn : n = produced <;> simp [droppedError, bodyLengthError, Option.filter, hn]

namespace AccessLogBody

lemma saturatingAdd_zero {a : ℕ} (h : a ≤ 2 ^ 64 - 1) : saturatingAdd a 0 = a := by
  unfold saturatingAdd
  omega

/-- After the completion nothing is reported. -/
lemma reports_of_completed (h : b.completion = false) :
    (polls.foldl pollFrame b).drop.reports = b.reports := by
  induction polls generalizing b with
  | nil => simp [drop, complete, h]
  | cons p rest ih =>
    rw [List.foldl_cons]
    cases p with
    | pending | trailers => exact ih h
    | data length => exact ih (b := { b with producedBodyBytes := _ }) h
    | error | finished =>
      simp only [pollFrame, complete, h, Bool.false_eq_true, if_false]
      exact ih h

section

variable (h : b.completion = true) (hr : b.reports = [])

include h hr

lemma reports_complete (error : Option String) : (b.complete error).reports = [error] := by
  simp [complete, h, hr]

lemma reports_foldl_complete (error : Option String) :
    (polls.foldl pollFrame (b.complete error)).drop.reports = [error] := by
  rw [reports_of_completed (by simp [complete, h]), reports_complete h hr]

/-- While the completion is there, it is called once, and reports whether the body is whole. -/
lemma reports_once (polls : List PollFrame) (hp : b.producedBodyBytes ≤ 2 ^ 64 - 1) :
    ∃ report, (polls.foldl pollFrame b).drop.reports = [report] ∧ (report = none ↔
      Whole (saturatingAdd b.producedBodyBytes) b.expectedBodyBytes polls) := by
  induction polls generalizing b with
  | nil =>
    refine ⟨_, reports_complete h hr _, ?_⟩
    rw [droppedError_eq_none, Whole, show producedBytes [] = 0 from rfl, saturatingAdd_zero hp]
    cases hexp : b.expectedBodyBytes <;> simp [hexp]
  | cons p rest ih =>
    rw [List.foldl_cons]
    cases p with
    | pending | trailers => exact ih h hr hp
    | data length =>
      obtain ⟨report, hreport, hiff⟩ :=
        ih (b := { b with producedBodyBytes := saturatingAdd b.producedBodyBytes length }) h hr
          (Nat.min_le_right _ _)
      have hcount : saturatingAdd (saturatingAdd b.producedBodyBytes length) (producedBytes rest) =
          saturatingAdd b.producedBodyBytes (length + producedBytes rest) := by
        unfold saturatingAdd
        omega
      refine ⟨report, hreport, hiff.trans ?_⟩
      rw [Whole, hcount]
      rfl
    | error text => exact ⟨_, reports_foldl_complete h hr _, by simp [Whole, PollFrame.ends]⟩
    | finished =>
      refine ⟨_, reports_foldl_complete h hr _, ?_⟩
      rw [bodyLengthError_eq_none, Whole, show producedBytes (.finished :: rest) = 0 from rfl,
        saturatingAdd_zero hp]
      cases b.expectedBodyBytes <;> simp [PollFrame.ends]

end

end AccessLogBody

/-- The completion is called once, and reports no error exactly if the body is whole, with its bytes
counted up to the largest `u64`. A body at its end counts as one whose stream has ended. -/
theorem completion_once (expected sizeHint : Option ℕ) (isEndStream : Bool)
    (polls : List PollFrame) :
    ∃ report, logResponseBody expected sizeHint isEndStream polls = [report] ∧ (report = none ↔
      Whole (AccessLogBody.saturatingAdd 0) (expected.or sizeHint)
        (if isEndStream then [.finished] else polls)) := by
  have hrun := fun polls => AccessLogBody.reports_once (b := ⟨expected.or sizeHint, 0, true, []⟩)
    rfl rfl polls (Nat.zero_le _)
  cases isEndStream with
  | true => exact hrun [.finished]
  | false => exact hrun polls

/-- More bytes than can be counted pass for the largest number. -/
theorem overlong_body_passes :
    logResponseBody (some (2 ^ 64 - 1)) none false
        [.data (2 ^ 63 - 1), .data (2 ^ 63 - 1), .data 2, .finished] = [none] ∧
      ¬ Whole id (some (2 ^ 64 - 1))
        [.data (2 ^ 63 - 1), .data (2 ^ 63 - 1), .data 2, .finished] := by
  refine ⟨by decide +kernel, fun h => ?_⟩
  exact absurd (h.2.1 _ rfl) (by decide +kernel)

end DufsRam.Logging
