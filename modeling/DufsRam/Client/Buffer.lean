import DufsRam.Client.Protocol
import DufsRam.Lib.Machine

/-!
# Buffered responses

`bufferResponse` of `clients/web/modules/http/response_buffer.js` reads the body of a response up to
a limit and hands it on as a stream that gives the same chunks again. The body and the reader of the
new response are the events of a run.
-/

namespace DufsRam.Client.ResponseBuffer

open Transition

abbrev Chunk := List UInt8

inductive Failure where
  | invalidLimit
  | tooLarge
  | invalidBody
  /-- The stream itself fails. -/
  | stream
  deriving DecidableEq

inductive Phase where
  | reading (chunks : List Chunk) (received : ℕ)
  | failed (failure : Failure)
  /-- The chunks that `replayBufferedChunks` holds, and which one is next. -/
  | replaying (chunks : List Chunk) (index : ℕ)
  | closed
  | cancelled
  deriving DecidableEq

/-- `replayed` records the chunks that were given again. -/
structure State where
  phase : Phase
  replayed : List Chunk

inductive Event where
  | chunk (value : Chunk)
  /-- A value that is no `Uint8Array`. -/
  | invalid
  | error
  | done
  /-- The reader of the new response asks for a chunk. -/
  | pull
  | cancel
  deriving DecidableEq

/-- The function up to its loop, for a response with a body. -/
def start (limit : ℕ) (declaredLength : Option ℕ) : Phase :=
  if maxSafeInteger < limit ∨ limit = 0 then .failed .invalidLimit
  else if declaredLength.any fun length => limit < length then .failed .tooLarge
  else .reading [] 0

def step (limit : ℕ) (s : State) (e : Event) : Option State :=
  match s.phase, e with
  | .reading chunks received, .chunk value => some { s with
      phase :=
        if limit - received < value.length then .failed .tooLarge
        else .reading (chunks ++ [value]) (received + value.length) }
  | .reading _ _, .invalid => some { s with phase := .failed .invalidBody }
  | .reading _ _, .error => some { s with phase := .failed .stream }
  | .reading chunks _, .done => some { s with phase := .replaying chunks 0 }
  | .replaying chunks index, .pull => some <| match chunks[index]? with
    | none => { s with phase := .closed }
    | some chunk =>
      { s with phase := .replaying chunks (index + 1), replayed := s.replayed ++ [chunk] }
  | .replaying _ _, .cancel => some { s with phase := .cancelled }
  | _, _ => none

def machine (limit : ℕ) (declaredLength : Option ℕ) : Machine State Event where
  init := ⟨start limit declaredLength, []⟩
  step := step limit

/-- The chunks that are held. -/
def Phase.held : Phase → List Chunk
  | .reading chunks _ | .replaying chunks _ => chunks
  | _ => []

/-! ### What the body gives -/

/-- The chunks of the body, and how it has ended. -/
structure Body where
  chunks : List Chunk := []
  ending : Option Event := none

/-- What the body has given after the event; its reader is not concerned with the other events. -/
def Body.after (body : Body) (e : Event) : Body :=
  match body.ending, e with
  | none, .chunk value => { body with chunks := body.chunks ++ [value] }
  | none, .invalid | none, .error | none, .done => { body with ending := some e }
  | _, _ => body

/-- What the body gives in the first events of a schedule. -/
def received (schedule : ℕ → Event) : ℕ → Body
  | 0 => {}
  | n + 1 => (received schedule n).after (schedule n)

/-- There is a reason to fail: an invalid limit, too long a body or one that is broken. -/
def Refused (limit : ℕ) (declared : Option ℕ) (body : Body) : Prop :=
  limit = 0 ∨ maxSafeInteger < limit ∨ (∃ length ∈ declared, limit < length) ∨
    limit < body.chunks.flatten.length ∨ body.ending = some .invalid ∨ body.ending = some .error

/-- The states that can be reached, with what the body has given. -/
inductive Reached (limit : ℕ) (declared : Option ℕ) : Body → State → Prop
  | reading {chunks} (h : chunks.flatten.length ≤ limit) :
      Reached limit declared { chunks } ⟨.reading chunks chunks.flatten.length, []⟩
  | failed {body failure} (h : Refused limit declared body) :
      Reached limit declared body ⟨.failed failure, []⟩
  | replaying {chunks e index} (h : chunks.flatten.length ≤ limit) :
      Reached limit declared ⟨chunks, some e⟩ ⟨.replaying chunks index, chunks.take index⟩
  | closed {chunks e} (h : chunks.flatten.length ≤ limit) :
      Reached limit declared ⟨chunks, some e⟩ ⟨.closed, chunks⟩
  | cancelled {chunks e index} (h : chunks.flatten.length ≤ limit) :
      Reached limit declared ⟨chunks, some e⟩ ⟨.cancelled, chunks.take index⟩

variable {limit : ℕ} {declared : Option ℕ} {body : Body} {s : State} {schedule : ℕ → Event}

lemma Refused.after (h : Refused limit declared body) (e : Event) :
    Refused limit declared (body.after e) := by
  obtain ⟨chunks, ending⟩ := body
  cases ending with
  | some ending => exact h
  | none =>
    obtain h | h | h | h | h | h := h
    · exact .inl h
    · exact .inr (.inl h)
    · exact .inr (.inr (.inl h))
    · refine .inr (.inr (.inr (.inl (h.trans_le ?_))))
      cases e <;> simp [Body.after]
    all_goals cases h

/-- Every event, whether there is somebody to take it or not. -/
lemma Reached.after (hs : Reached limit declared body s) (e : Event) :
    Reached limit declared (body.after e) ((step limit s e).getD s) := by
  cases hs with
  | @reading chunks hle =>
    cases e with
    | chunk value =>
      have hlen : (chunks ++ [value]).flatten.length = chunks.flatten.length + value.length := by
        simp
      simp only [step, Option.getD_some]
      split_ifs with hfull
      · refine .failed (.inr (.inr (.inr (.inl ?_))))
        simp only [Body.after, hlen]
        omega
      · rw [← hlen]
        exact .reading (by change (chunks ++ [value]).flatten.length ≤ limit; omega)
    | invalid => exact .failed (by simp [Refused, Body.after])
    | error => exact .failed (by simp [Refused, Body.after])
    | done => exact (.replaying hle : Reached _ _ _ ⟨_, chunks.take 0⟩)
    | pull | cancel => exact .reading hle
  | @replaying chunks _ index hle =>
    cases e with
    | pull =>
      cases hget : chunks[index]? with
      | none =>
        simp only [step, hget, Option.getD_some]
        rw [List.take_of_length_le (List.getElem?_eq_none_iff.1 hget)]
        exact .closed hle
      | some chunk =>
        simp only [step, hget, Option.getD_some]
        obtain ⟨hlt, rfl⟩ := List.getElem?_eq_some_iff.1 hget
        rw [List.take_append_getElem hlt]
        exact .replaying hle
    | cancel => exact .cancelled hle
    | chunk | invalid | error | done => exact .replaying hle
  | failed h => cases e <;> exact .failed (h.after _)
  | closed h => cases e <;> exact .closed h
  | cancelled h => cases e <;> exact .cancelled h

end DufsRam.Client.ResponseBuffer
