import Mathlib.Data.List.Basic

/-!
# The upload transport

The listeners of `createUploadRequest` in `clients/web/modules/upload/transport.js`. Callbacks and
`request.abort()` can fire further events before they return, so an event carries those that are
fired inside it.
-/

namespace DufsRam.Client.Transport

/-- What a listener reads of the request. -/
structure Request where
  readyState : ℕ
  status : ℕ
  /-- The value of `parseUnsignedHeader` for `Content-Length`. -/
  declaredLength : Option ℕ
  responseText : String

inductive Signal where
  | readystatechange
  | progress (loaded : ℕ)
  | load
  | error
  | abort
  /-- `progress` or `load` of `request.upload`. -/
  | upload

/-- An event, with the events that are fired by the callback and by `request.abort()`. -/
inductive Event where
  | mk (signal : Signal) (request : Request) (callback : List Event) (throws : Bool)
    (aborting : List Event)

inductive Terminal where
  | onResponse (request : Request)
  | onNetworkError
  | onAbort
  | onOversizedResponse

structure State where
  settled : Bool
  delivered : List Terminal

def headersReceived : ℕ := 2

def utf16Length (value : String) : ℕ :=
  (value.toList.flatMap fun c => List.replicate (if c.toNat < 0x10000 then 1 else 2) c).length

def responseTextExceedsLimit (value : String) (limit : ℕ) : Bool :=
  limit < utf16Length value || limit < value.utf8ByteSize

/-- Settles the request with a callback. -/
def settle (terminal : Terminal) (callback : State → State) (s : State) : State :=
  callback ⟨true, s.delivered ++ [terminal]⟩

section Listeners

variable (limit : ℕ) (request : Request) (throws : Bool) (callback aborting : State → State)

def rejectOversizedResponse (s : State) : State :=
  if s.settled then s
  else
    let s := settle .onOversizedResponse callback s
    if throws then s else aborting s

/-- The listener of a signal, for what its callback and its abort do. -/
def listener (s : State) : Signal → State
  | .readystatechange =>
    if s.settled || request.readyState != headersReceived then s
    else if request.status == 401 then aborting (settle (.onResponse request) callback s)
    else if request.declaredLength.any fun length => limit < length then
      rejectOversizedResponse throws callback aborting s
    else s
  | .progress loaded =>
    if s.settled then s
    else if limit < loaded then rejectOversizedResponse throws callback aborting s
    else s
  | .load =>
    if s.settled then s
    else if responseTextExceedsLimit request.responseText limit then
      rejectOversizedResponse throws callback aborting s
    else settle (.onResponse request) callback s
  | .error => if s.settled then s else settle .onNetworkError callback s
  | .abort => if s.settled then s else settle .onAbort callback s
  | .upload => callback s

end Listeners

mutual

def fire (limit : ℕ) : Event → State → State
  | .mk signal request callback throws aborting, s =>
    listener limit request throws (fireAll limit callback) (fireAll limit aborting) s signal

def fireAll (limit : ℕ) : List Event → State → State
  | [], s => s
  | e :: es, s => fireAll limit es (fire limit e s)

end

/-- A terminal callback that may be invoked: a response is complete only within the limit. -/
def Terminal.Allowed (limit : ℕ) : Terminal → Prop
  | .onResponse request => request.status ≠ 401 → request.responseText.utf8ByteSize ≤ limit
  | _ => True

/-- No terminal callback was invoked, or the request is settled and one was invoked. -/
def Single (limit : ℕ) (s : State) : Prop :=
  s.delivered = [] ∨ s.settled ∧ ∃ terminal, s.delivered = [terminal] ∧ terminal.Allowed limit

variable {limit : ℕ} {s : State} {callback aborting : State → State}

lemma Single.settle {terminal : Terminal} (hs : Single limit s) (hopen : ¬ s.settled)
    (hok : terminal.Allowed limit) (hcall : ∀ s, Single limit s → Single limit (callback s)) :
    Single limit (settle terminal callback s) := by
  obtain hnil | ⟨hset, -⟩ := hs
  · refine hcall _ (.inr ⟨rfl, terminal, ?_, hok⟩)
    rw [hnil, List.nil_append]
  · exact absurd hset hopen

section Listeners

variable (hcall : ∀ s, Single limit s → Single limit (callback s))
  (habort : ∀ s, Single limit s → Single limit (aborting s))

include hcall habort

lemma Single.reject (throws : Bool) (hs : Single limit s) :
    Single limit (rejectOversizedResponse throws callback aborting s) := by
  unfold rejectOversizedResponse
  split_ifs with hset hthrow
  · exact hs
  · exact hs.settle hset trivial hcall
  · exact habort _ (hs.settle hset trivial hcall)

lemma Single.listener (request : Request) (throws : Bool) (signal : Signal) (hs : Single limit s) :
    Single limit (listener limit request throws callback aborting s signal) := by
  have hreject := hs.reject hcall habort throws
  cases signal with
  | readystatechange =>
    simp only [Transport.listener]
    split_ifs with hset hauth
    · exact hs
    · refine habort _ (hs.settle (by simp_all) (fun hne => ?_) hcall)
      exact absurd (beq_iff_eq.1 hauth) hne
    · exact hreject
    · exact hs
  | progress loaded =>
    simp only [Transport.listener]
    split_ifs
    · exact hs
    · exact hreject
    · exact hs
  | load =>
    simp only [Transport.listener]
    split_ifs with hset hlong
    · exact hs
    · exact hreject
    · refine hs.settle hset (fun _ => ?_) hcall
      simp [responseTextExceedsLimit] at hlong
      exact hlong.2
  | error | abort =>
    simp only [Transport.listener]
    split_ifs with hset
    · exact hs
    · exact hs.settle hset trivial hcall
  | upload => exact hcall s hs

end Listeners

mutual

lemma Single.fire (e : Event) (s : State) (hs : Single limit s) :
    Single limit (fire limit e s) := by
  cases e with
  | mk signal request callback throws aborting =>
    rw [Transport.fire]
    exact hs.listener (Single.fireAll callback) (Single.fireAll aborting) request throws signal

lemma Single.fireAll (es : List Event) (s : State) (hs : Single limit s) :
    Single limit (fireAll limit es s) := by
  cases es with
  | nil =>
    rw [Transport.fireAll]
    exact hs
  | cons e es =>
    rw [Transport.fireAll]
    exact Single.fireAll es _ (Single.fire e s hs)

end

/-- Whatever events are fired, one inside another or after each other, at most one terminal callback
is invoked, and a response other than 401 is given only if its text is within the limit. -/
theorem one_terminal_callback (limit : ℕ) (events : List Event) :
    let delivered := (fireAll limit events ⟨false, []⟩).delivered
    delivered.length ≤ 1 ∧ ∀ request, .onResponse request ∈ delivered → request.status ≠ 401 →
      request.responseText.utf8ByteSize ≤ limit := by
  intro delivered
  have hs : Single limit (fireAll limit events ⟨false, []⟩) := .fireAll events _ (.inl rfl)
  obtain hnil | ⟨-, terminal, hone, hok⟩ := hs
  · simp [delivered, hnil]
  · refine ⟨by simp [delivered, hone], fun request hmem => ?_⟩
    obtain rfl : .onResponse request = terminal := by simpa [delivered, hone] using hmem
    exact hok

end DufsRam.Client.Transport
