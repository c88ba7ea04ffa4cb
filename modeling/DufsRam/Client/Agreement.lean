import DufsRam.Client.Protocol
import DufsRam.Upload.Agreement

/-!
# The client understands the server

A response that conforms to the matrix carries, in the headers that `apply_upload_record_headers`
writes, the state that `classifyUploadResponse` reads from it.
-/

namespace DufsRam

open Crash Client UploadSystem

/-- `encode` of a revision: its 64 hexadecimal digits. -/
def encodeRevision (revision : Revision) : String :=
  let digits := Nat.toDigits 16 revision.toNat
  String.ofList (List.replicate (64 - digits.length) '0' ++ digits)

/-- The headers that `apply_upload_record_headers` and `apply_target_inspection_headers` write. -/
def UploadResponse.headers (uploadId : String) (res : UploadResponse) : Headers
  | .uploadId => res.state.map fun _ => uploadId
  | .operationState => res.state.map UploadPublicState.wireName
  | .uploadLength => res.uploadLength.map toString
  | .uploadOffset => res.uploadOffset.map toString
  | .targetRevision => (res.target.bind fun inspection => inspection.revision).map encodeRevision
  | .targetReplaceable =>
    res.target.map fun inspection => if inspection.replaceable then "true" else "false"

/-- A call of the client: a `PUT` or a `PATCH`, or a `HEAD` for an upload of the given length. -/
inductive UploadCall where
  | transfer (r : UploadRequest)
  | checkpoint (expectedLength : ℕ)

namespace UploadCall

def phase : UploadCall → UploadRequestPhase
  | transfer r => r.phase
  | checkpoint _ => .checkpoint

def expectedLength : UploadCall → ℕ
  | transfer r => r.uploadLength
  | checkpoint expectedLength => expectedLength

/-- The server's side of the call. -/
def run (site : Site) : UploadCall → Io UploadResponse
  | transfer r => runTrackedUpload site r
  | checkpoint _ => handleUploadStatus site

/-- What the client passes to `classifyUploadResponse`. -/
def options (call : UploadCall) (uploadId : String) (errorCode : Option String)
    (res : UploadResponse) : UploadResponseOptions where
  phase := call.phase
  errorCode := errorCode
  status := res.status.asU16
  headers := res.headers uploadId
  expectedUploadId := uploadId
  expectedLength := call.expectedLength

/-- A `PATCH` begins within its upload. -/
def OffsetFits : UploadCall → Prop
  | transfer r => r.OffsetFits
  | checkpoint _ => True

end UploadCall

/-! ### Reading the headers back -/

lemma uploadProtocolState_wireName (state : UploadPublicState) :
    uploadProtocolState state.wireName = some state := by
  cases state <;> rfl

variable {presence : FieldPresence} {value : Option ℕ}

/-- A value that the rule allows passes the check of its header. -/
lemma matchesBoundField_toString {bound : ℕ → Prop} [DecidablePred bound]
    (h : presence.Allows bound value) (hsf : ∀ n, bound n → n ≤ maxSafeInteger) :
    matchesBoundField (value.map toString) (parseUnsignedHeader (value.map toString)) presence
      (fun n => decide (bound n)) = true := by
  have hsome : ∀ n, bound n →
      (parseUnsignedHeader (some (toString n))).any (fun n => decide (bound n)) = true := by
    intro n hn
    rw [parseUnsignedHeader_toString (hsf n hn)]
    exact decide_eq_true hn
  cases presence with
  | absent =>
    cases h
    rfl
  | optional =>
    cases value with
    | none => rfl
    | some n => exact hsome n (h n rfl)
  | required =>
    obtain ⟨n, rfl, hn⟩ := h
    exact hsome n hn

lemma parseUnsignedHeader_map (h : ∀ n, value = some n → n ≤ maxSafeInteger) :
    parseUnsignedHeader (value.map toString) = value := by
  cases value with
  | none => rfl
  | some n => exact parseUnsignedHeader_toString (h n rfl)

lemma Client.FieldPresence.Allows.bound {bound : ℕ → Prop}
    (h : presence.Allows bound value) {n : ℕ} (hn : value = some n) : bound n := by
  cases presence with
  | absent => cases hn.symm.trans h
  | optional => exact h n hn
  | required =>
    obtain ⟨k, hk, hbd⟩ := h
    cases hn.symm.trans hk
    exact hbd

section Classify

variable {phase : UploadRequestPhase} {expectedLength : ℕ} {state : UploadPublicState}
  {res : UploadResponse} {uploadId : String} {call : UploadCall} {errorCode : Option String}

lemma parseBoundUploadProtocol_headers (hsf : expectedLength ≤ maxSafeInteger)
    (hst : res.state = some state) (h : res.Conforms phase expectedLength state) :
    parseBoundUploadProtocol (res.headers uploadId) uploadId expectedLength =
      some ⟨uploadId, state, res.uploadLength, res.uploadOffset⟩ := by
  have hlen := matchesBoundField_toString h.length fun n hn => hn ▸ hsf
  have hoff := matchesBoundField_toString h.offset fun n hn => hn.trans hsf
  have hparsedLength : parseUnsignedHeader (res.uploadLength.map toString) = res.uploadLength :=
    parseUnsignedHeader_map fun n hn => h.length.bound hn ▸ hsf
  have hparsedOffset : parseUnsignedHeader (res.uploadOffset.map toString) = res.uploadOffset :=
    parseUnsignedHeader_map fun n hn => (h.offset.bound hn).trans hsf
  unfold parseBoundUploadProtocol
  rw [if_neg (Nat.not_lt.2 hsf)]
  simp only [UploadResponse.headers, hst, Option.map_some, Option.getD_some,
    uploadProtocolState_wireName, hlen, hoff]
  simp [hparsedLength, hparsedOffset]

lemma kind_classifyUploadResponse {options : UploadResponseOptions}
    {protocol : BoundUploadProtocol} (hrng : 100 ≤ options.status ∧ options.status ≤ 599)
    (hunauthorized : options.status ≠ 401) (hforb : options.status ≠ 403)
    (hparse : parseBoundUploadProtocol options.headers options.expectedUploadId
      options.expectedLength = some protocol) (hagrees : options.contradicts protocol = false) :
    (classifyUploadResponse options).kind = .state protocol.state := by
  have hinside : ¬ (options.status < 100 ∨ 599 < options.status) := by omega
  simp [classifyUploadResponse, hinside, hunauthorized, hforb, hparse, hagrees]

lemma asU16_range (status : StatusCode) :
    (100 ≤ status.asU16 ∧ status.asU16 ≤ 599) ∧ status.asU16 ≠ 401 ∧ status.asU16 ≠ 403 := by
  cases status <;> decide

lemma asU16_injective : Function.Injective StatusCode.asU16 := by
  intro a b h
  cases a <;> cases b <;> first | rfl | cases h

/-- A response that conforms contradicts nothing that the client expects. -/
lemma contradicts_of_conforms (hph : call.phase ≠ .discard)
    (h : res.Conforms call.phase call.expectedLength state) :
    (call.options uploadId errorCode res).contradicts
      ⟨uploadId, state, res.uploadLength, res.uploadOffset⟩ = false := by
  have hmemb := h.status
  simp only [UploadResponseOptions.contradicts, UploadCall.options, Bool.or_eq_false_iff,
    Bool.and_eq_false_iff, Bool.not_eq_false', List.contains_iff_mem]
  refine ⟨⟨⟨hmemb, ?_⟩, ?_⟩, .inl (.inl (decide_eq_false hph))⟩
  · by_cases hcp : call.phase = .checkpoint
    · refine .inl (.inl (.inr (decide_eq_false fun hstat => h.checkpoint hcp ?_)))
      exact asU16_injective hstat
    · exact .inl (.inl (.inl (decide_eq_false hcp)))
  · by_cases hcom : state = .committed
    · exact .inr (decide_eq_false (not_not_intro (h.committed hcom)))
    · exact .inl (decide_eq_false hcom)

lemma classifyUploadResponse_of_conforms (hsf : call.expectedLength ≤ maxSafeInteger)
    (hph : call.phase ≠ .discard) (hst : res.state = some state)
    (h : res.Conforms call.phase call.expectedLength state) :
    (classifyUploadResponse (call.options uploadId errorCode res)).kind = .state state := by
  obtain ⟨hrng, hunauthorized, hforb⟩ := asU16_range res.status
  exact kind_classifyUploadResponse hrng hunauthorized hforb
    (parseBoundUploadProtocol_headers hsf hst h) (contradicts_of_conforms hph h)

end Classify

lemma UploadCall.phase_ne_discard (call : UploadCall) : call.phase ≠ .discard := by
  cases call with
  | transfer r =>
    unfold UploadCall.phase UploadRequest.phase
    dsimp only
    cases r.mode <;> simp
  | checkpoint => nofun

/-- Every response of a call agrees with what the client expects. -/
lemma UploadCall.run_agrees {site : Site} {call : UploadCall} {script : List Answer} {w : World}
    (hoff : call.OffsetFits) (hw : w.Records site call.expectedLength) :
    (call.run site script w).Ends (fun res _ => res.Agrees call.phase call.expectedLength)
      (fun _ _ => True) fun _ => True := by
  cases call with
  | transfer r =>
    exact (runTrackedUpload_at hoff hw script).mono (fun _ _ h => h) (fun _ _ _ => trivial)
      fun _ h => h
  | checkpoint expectedLength => exact handleUploadStatus_at hw

/-- The client reads the state that the server has written, in every response to a `PUT`, a `PATCH`
or a `HEAD` that is not a clash, if the recorded length is the expected one. -/
theorem client_reads_server_state (site : Site) (call : UploadCall) (uploadId : String)
    (errorCode : Option String) (w w' : World) (script rest : List Answer) (res : UploadResponse)
    (state : UploadPublicState) (hsafe : call.expectedLength ≤ maxSafeInteger)
    (hoffset : call.OffsetFits) (hrecorded : w.Records site call.expectedLength)
    (hrun : call.run site script w = .done res rest w') (hstate : res.state = some state)
    (hclash : res.reportsClash = false) :
    (classifyUploadResponse (call.options uploadId errorCode res)).kind = .state state := by
  have hends : (call.run site script w).Ends _ _ _ := UploadCall.run_agrees hoffset hrecorded
  rw [hrun] at hends
  exact classifyUploadResponse_of_conforms hsafe call.phase_ne_discard hstate
    (hends state hstate hclash)

/-- An upload of one byte is answered by 201 with the state that the client reads. -/
theorem client_reads_server_state_smooth :
    ∃ res rest w', UploadCall.run smallSite (.transfer smallPut) (smoothly 60)
        (start .empty none).world = .done res rest w' ∧ res.state = some .committed ∧
      (classifyUploadResponse ((UploadCall.transfer smallPut).options "7f" none res)).kind =
        .state .committed := by
  have hdone : (UploadCall.run smallSite (.transfer smallPut) (smoothly 60)
      (start .empty none).world).returns
        (fun res => decide (res.state = some .committed ∧ res.reportsClash = false)) = true := by
    decide +kernel
  obtain ⟨res, rest, w', hrun, hdone⟩ := Outcome.exists_of_returns hdone
  obtain ⟨hstate, hclash⟩ := of_decide_eq_true hdone
  exact ⟨res, rest, w', hrun, hstate, client_reads_server_state smallSite (.transfer smallPut)
    "7f" none _ w' _ rest res .committed (by decide) (Nat.zero_le 1) (by rintro row ⟨⟩) hrun
    hstate hclash⟩

/-- The same upload with a length of two bytes. -/
def longerPut : UploadRequest := ⟨.fresh, 2, .noReplace, none, [.chunk [7, 7]]⟩

/-- The session is recorded with another length, which the answer reports; and a crash has left the
stage without a record, so that the answer declares a length for a session that was not seen. -/
theorem client_refuses_length_header : (∃ a ∈ ((smallRun none [.request smallPut (smoothly 60),
        .request longerPut (smoothly 60)]).state 2).log, a.response.state = some .committed ∧
      (classifyUploadResponse ((UploadCall.transfer longerPut).options "7f" none
        a.response)).kind = .invalid) ∧
    ∃ a ∈ ((smallRun none [.request smallPut (smoothly 10), .restart 0 fun _ => [],
        .request smallPut (smoothly 60)]).state 3).log, a.response.state = some .notSeen ∧
      (classifyUploadResponse ((UploadCall.transfer smallPut).options "7f" none
        a.response)).kind = .invalid := by
  decide +kernel

end DufsRam
