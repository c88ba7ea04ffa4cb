import DufsRam.Upload.Transfer

/-!
# Receiving a body in chunks

How a body is split into chunks decides when the free space is checked again, and nothing else:
while every call succeeds, the receiving loop is the sequence of its calls `transferCalls`, and
what they write depends on the bytes of the body and the length that was declared.
-/

namespace DufsRam

open Crash List

/-- Every call succeeds, every check finds enough space and no deadline passes. -/
def Favourable (script : List Answer) : Prop :=
  ∀ a ∈ script, a.error = none ∧ a.no = false

/-- Two programs that cannot be told apart while every call succeeds. -/
def SameRun {α : Type} (p q : Io α) : Prop :=
  ∀ script, Favourable script → ∀ w, p script w = q script w

/-- A call of the receiving loop on the file system; a write is followed by a look at the clock. -/
inductive TransferCall where
  | checkSpace
  | write (data : List UInt8)

def TransferCall.perform (file : StageFile) : TransferCall → Io StageFile
  | .checkSpace => do
    let _ ← reservedSpaceIsAvailable
    pure file
  | .write data => do
    let written ← file.writeAll data
    let _ ← deadlinePassed
    pure written.1

def performAll : List TransferCall → StageFile → Io StageFile
  | [], file => pure file
  | call :: rest, file => do
    let file' ← call.perform file
    performAll rest file'

/-- The bytes that the calls write, in order. -/
def writtenBytes : List TransferCall → List UInt8
  | [] => []
  | .checkSpace :: rest => writtenBytes rest
  | .write data :: rest => data ++ writtenBytes rest

/-- How many bytes are written before, between and after the checks, `count` being what has been
written since the last one. -/
def spans : List TransferCall → (count : ℕ) → List ℕ
  | [], count => [count]
  | .checkSpace :: rest, count => count :: spans rest 0
  | .write data :: rest, count => spans rest (count + data.length)

/-- The calls for one chunk. -/
def chunkCalls (data : List UInt8) (untilCheck : ℕ) : List TransferCall :=
  if untilCheck ≤ data.length then [.checkSpace, .write data] else [.write data]

def nextCheck (data : List UInt8) (untilCheck : ℕ) : ℕ :=
  (if untilCheck ≤ data.length then diskSpaceRecheckBytes else untilCheck) - data.length

/-- The calls of `receive_upload_body` on the chunks of a body. -/
def transferCalls : List (List UInt8) → (untilCheck remaining : ℕ) → List TransferCall
  | [], _, _ => []
  | bytes :: rest, untilCheck, remaining =>
    if bytes = [] then transferCalls rest untilCheck remaining
    else if remaining = 0 then []
    else chunkCalls (bytes.take remaining) untilCheck ++
      if remaining < bytes.length then []
      else transferCalls rest (nextCheck (bytes.take remaining) untilCheck)
        (remaining - (bytes.take remaining).length)

/-- What the transfer reports on a body of this many bytes. -/
def transferResult (total remaining : ℕ) : Option UploadTransferError :=
  if total ≤ remaining then none else some .excessBody

/-! ### The loop is the sequence of its calls -/

namespace SameRun

variable {α β : Type} {p q : Io α}

lemma refl (p : Io α) : SameRun p p := fun _ _ _ => rfl

lemma trans {s : Io α} (h : SameRun p q) (h' : SameRun q s) : SameRun p s :=
  fun script hs w => (h script hs w).trans (h' script hs w)

lemma ask_bind {f g : Answer → Io α}
    (h : ∀ a, a.error = none → a.no = false → SameRun (f a) (g a)) :
    SameRun (Prog.ask >>= f) (Prog.ask >>= g) := by
  intro script hs w
  cases script with
  | nil => rfl
  | cons a rest =>
    obtain ⟨herr, hno⟩ := hs a mem_cons_self
    exact h a herr hno rest (fun b hb => hs b (mem_cons_of_mem _ hb)) w

lemma modify_bind {f : World → World} {k l : Unit → Io α} (h : SameRun (k ()) (l ())) :
    SameRun (Prog.modify f >>= k) (Prog.modify f >>= l) :=
  fun script hs w => h script hs (f w)

lemma write_bind {file : StageFile} {data : List UInt8} {k l : StageFile × Option ErrorKind → Io α}
    (h : ∀ file', SameRun (k (file', none)) (l (file', none))) :
    SameRun (file.writeAll data >>= k) (file.writeAll data >>= l) := by
  simp only [StageFile.writeAll, bind_assoc]
  apply ask_bind
  intro a herr _
  apply modify_bind
  rw [herr]
  exact h _

end SameRun

lemma recheckSpace_sameRun {α : Type} {needed : Prop} [Decidable needed]
    {k : Option UploadTransferError → Io α} {l : Io α} (h : SameRun (k none) l) :
    SameRun (recheckSpace needed >>= k)
      (if needed then reservedSpaceIsAvailable >>= fun _ => l else l) := by
  unfold recheckSpace
  split
  · intro script hs w
    cases script with
    | nil => rfl
    | cons a rest =>
      have hrest : Favourable rest := fun b hb => hs b (mem_cons_of_mem _ hb)
      obtain ⟨herr, hno⟩ := hs a mem_cons_self
      cases a
      cases herr
      cases hno
      exact h rest hrest w
  · exact h

lemma performAll_append (calls more : List TransferCall) (file : StageFile) :
    performAll (calls ++ more) file = performAll calls file >>= performAll more := by
  induction calls generalizing file with
  | nil => simp [performAll]
  | cons call rest ih => simp [performAll, ih]

/-- A chunk that the reservation covers. -/
lemma writeUploadChunk_sameRun {α : Type} {data : List UInt8} {t : Receiver}
    {k : Receiver × Option UploadTransferError → Io α} {l : StageFile → Io α}
    (hfits : data.length ≤ t.lease)
    (h : ∀ file, SameRun (k (⟨file, t.lease - data.length, nextCheck data t.bytesUntilSpaceCheck,
      t.remaining - data.length⟩, none)) (l file)) : SameRun (writeUploadChunk data t >>= k)
      (performAll (chunkCalls data t.bytesUntilSpaceCheck) t.file >>= l) := by
  rw [writeUploadChunk, if_neg (Nat.not_lt.mpr hfits), bind_assoc]
  refine (recheckSpace_sameRun (l := (TransferCall.write data).perform t.file >>= l) ?_).trans ?_
  · simp only [TransferCall.perform, bind_assoc, pure_bind]
    apply SameRun.write_bind
    intro file
    simp only [deadlinePassed, bind_assoc, pure_bind]
    apply SameRun.ask_bind
    intro a _ hno
    rw [hno]
    exact h file
  · intro script _ w
    unfold chunkCalls
    split <;> simp [performAll, TransferCall.perform]

/-- While the reservation covers what remains, it plays no part in how the transfer ends. -/
lemma receiveUploadBody_sameRun (chunks : List (List UInt8)) :
    ∀ t : Receiver, t.remaining ≤ t.lease →
      SameRun (receiveUploadBody (chunks.map .chunk) t) (do
        let file ← performAll (transferCalls chunks t.bytesUntilSpaceCheck t.remaining) t.file
        pure (file, transferResult chunks.flatten.length t.remaining)) := by
  induction chunks with
  | nil =>
    intro t _
    simp only [map_nil, receiveUploadBody, transferCalls, performAll, pure_bind]
    exact .refl _
  | cons bytes rest ih =>
    intro t hfits
    have hlen : (bytes :: rest).flatten.length = bytes.length + rest.flatten.length := by simp
    rw [map_cons, receiveUploadBody, transferCalls, hlen]
    by_cases hemp : bytes = []
    · rw [if_pos hemp, if_pos hemp, hemp, length_nil, Nat.zero_add]
      exact ih t hfits
    have hpos : 0 < bytes.length := length_pos_iff.mpr hemp
    rw [if_neg hemp, if_neg hemp]
    by_cases hzero : t.remaining = 0
    · rw [if_pos hzero, if_pos hzero, transferResult, if_neg (by omega)]
      simp only [performAll, pure_bind]
      exact .refl _
    rw [if_neg hzero, if_neg hzero, performAll_append, bind_assoc]
    have htake : (bytes.take t.remaining).length ≤ t.lease :=
      (length_take_le _ _).trans hfits
    apply writeUploadChunk_sameRun htake
    intro file
    by_cases hexc : t.remaining < bytes.length
    · simp only [if_pos hexc]
      rw [transferResult, if_neg (by omega)]
      simp only [performAll, pure_bind]
      exact .refl _
    · have hall : (bytes.take t.remaining).length = bytes.length := by
        rw [length_take]
        omega
      simp only [if_neg hexc]
      have hres : transferResult (bytes.length + rest.flatten.length) t.remaining =
          transferResult rest.flatten.length (t.remaining - bytes.length) := by
        unfold transferResult
        congr 1
        exact propext (by omega)
      rw [hres, ← hall]
      exact ih _ (Nat.sub_le_sub_right hfits _)

/-! ### What the calls write -/

lemma writtenBytes_append (calls more : List TransferCall) :
    writtenBytes (calls ++ more) = writtenBytes calls ++ writtenBytes more := by
  induction calls with
  | nil => rfl
  | cons call rest ih => cases call <;> simp [writtenBytes, ih]

lemma writtenBytes_chunkCalls (data : List UInt8) (untilCheck : ℕ) :
    writtenBytes (chunkCalls data untilCheck) = data := by
  unfold chunkCalls
  split <;> simp [writtenBytes]

lemma writtenBytes_transferCalls (chunks : List (List UInt8)) (untilCheck remaining : ℕ) :
    writtenBytes (transferCalls chunks untilCheck remaining) = chunks.flatten.take remaining := by
  induction chunks generalizing untilCheck remaining with
  | nil => simp [transferCalls, writtenBytes]
  | cons bytes rest ih =>
    rw [transferCalls, flatten_cons, take_append]
    split_ifs with hemp hzero hexc
    · simp [hemp, ih]
    · simp [hzero, writtenBytes]
    · rw [writtenBytes_append, writtenBytes_chunkCalls, Nat.sub_eq_zero_of_le hexc.le]
      simp [writtenBytes]
    · rw [writtenBytes_append, writtenBytes_chunkCalls, ih, length_take]
      congr 2
      omega

/-- The bytes since the last check and those until the next one make up an interval. Only a chunk
that is longer than an interval is written without a check in it. -/
def Spaced (limit untilCheck count : ℕ) : Prop :=
  0 < untilCheck ∧ count + untilCheck ≤ diskSpaceRecheckBytes ∨ untilCheck = 0 ∧ count ≤ limit

/-- The bytes since the last check after a chunk. -/
def countAfter (data : List UInt8) (untilCheck count : ℕ) : ℕ :=
  if untilCheck ≤ data.length then data.length else count + data.length

namespace Spaced

variable {limit untilCheck count : ℕ} {data : List UInt8}

lemma le (h : Spaced limit untilCheck count) : count ≤ max limit (diskSpaceRecheckBytes - 1) := by
  unfold Spaced at h
  omega

lemma chunk (h : Spaced limit untilCheck count) (hlim : data.length ≤ limit) :
    Spaced limit (nextCheck data untilCheck) (countAfter data untilCheck count) := by
  unfold Spaced at *
  unfold nextCheck countAfter
  split <;> omega

end Spaced

lemma mem_spans_chunkCalls {data : List UInt8} {untilCheck count n : ℕ} {more : List TransferCall}
    (h : n ∈ spans (chunkCalls data untilCheck ++ more) count) :
    n = count ∨ n ∈ spans more (countAfter data untilCheck count) := by
  unfold chunkCalls at h
  unfold countAfter
  by_cases hchk : untilCheck ≤ data.length
  · rw [if_pos hchk] at h ⊢
    simpa [spans] using h
  · rw [if_neg hchk] at h ⊢
    exact .inr h

lemma spans_le {limit : ℕ} (chunks : List (List UInt8))
    (hlim : ∀ bytes ∈ chunks, bytes.length ≤ limit) {untilCheck rem count : ℕ}
    (hspc : Spaced limit untilCheck count) :
    ∀ n ∈ spans (transferCalls chunks untilCheck rem) count,
      n ≤ max limit (diskSpaceRecheckBytes - 1) := by
  induction chunks generalizing untilCheck rem count with
  | nil =>
    intro n hn
    obtain rfl : n = count := by simpa [transferCalls, spans] using hn
    exact hspc.le
  | cons bytes rest ih =>
    intro n hn
    have ih := @ih fun b hb => hlim b (mem_cons_of_mem _ hb)
    have htake : (bytes.take rem).length ≤ limit :=
      (length_take_le' _ _).trans (hlim bytes mem_cons_self)
    have hchunk := hspc.chunk htake
    rw [transferCalls] at hn
    split_ifs at hn with hemp hzero hexc
    · exact ih hspc n hn
    · obtain rfl : n = count := by simpa [spans] using hn
      exact hspc.le
    all_goals
      rcases mem_spans_chunkCalls hn with rfl | hn
      · exact hspc.le
    · obtain rfl := mem_singleton.mp hn
      exact hchunk.le
    · exact ih hchunk n hn

lemma le_roundUp {value unit : ℕ} (hunit : 0 < unit) : value ≤ roundUp value unit := by
  unfold roundUp
  split
  · omega
  · have hdiv := Nat.div_add_mod (value + (unit - 1)) unit
    have hmod := Nat.mod_lt (value + (unit - 1)) hunit
    rw [Nat.mul_comm] at hdiv
    omega

/-- The reservation for a body covers it. -/
lemma le_of_allocationBudget {bytes unit metadata lease : ℕ}
    (h : allocationBudget bytes (max unit 1) metadata = some lease) : bytes ≤ lease := by
  unfold allocationBudget at h
  split at h
  · have hle := @le_roundUp bytes (max unit 1) (by omega)
    have hls := Option.some.inj h
    omega
  · cases h

/-- However a body is split into chunks: with the reservation made for the bytes that remain, the
loop is the sequence of its calls, these write the body up to what remains, the body is too long
exactly if it is longer than what remains, and the bytes between two checks are fewer than an
interval unless they are a single chunk. -/
theorem receiveUploadBody_chunking (chunks : List (List UInt8)) (file : StageFile)
    (unit remaining lease : ℕ)
    (hlease : allocationBudget remaining (max unit 1) uploadReservationMetadataBytes = some lease) :
    SameRun (receiveUploadBody (chunks.map .chunk) ⟨file, lease, diskSpaceRecheckBytes, remaining⟩)
        (do
          let file' ← performAll (transferCalls chunks diskSpaceRecheckBytes remaining) file
          pure (file', if chunks.flatten.length ≤ remaining then none else some .excessBody)) ∧
      writtenBytes (transferCalls chunks diskSpaceRecheckBytes remaining) =
        chunks.flatten.take (min chunks.flatten.length remaining) ∧
      ∀ limit, (∀ bytes ∈ chunks, bytes.length ≤ limit) →
        ∀ n ∈ spans (transferCalls chunks diskSpaceRecheckBytes remaining) 0,
          n ≤ max limit (diskSpaceRecheckBytes - 1) := by
  refine ⟨receiveUploadBody_sameRun chunks _ (le_of_allocationBudget hlease), ?_, ?_⟩
  · rw [writtenBytes_transferCalls, ← List.take_take]
    exact (List.take_of_length_le (List.length_take_le' _ _)).symm
  · intro limit hlimit
    exact spans_le chunks hlimit (.inl ⟨by decide, by decide⟩)

theorem receiveUploadBody_chunking_small :
    writtenBytes (transferCalls [[1, 2], [], [3]] diskSpaceRecheckBytes 2) = [1, 2] := by
  have hlease : allocationBudget 2 (max 4096 1) uploadReservationMetadataBytes = some 1118208 := by
    decide
  exact (receiveUploadBody_chunking [[1, 2], [], [3]] ⟨⟨1, 2⟩, 0, []⟩ 4096 2 1118208 hlease).2.1

/-- A chunk is not cut at the interval: as far as the declared length reaches, any number of bytes
can be written between two checks. -/
lemma spans_long_chunk (n : ℕ) :
    spans (transferCalls [replicate (n + diskSpaceRecheckBytes) 0, [0]] diskSpaceRecheckBytes
      (n + diskSpaceRecheckBytes + 1)) 0 = [0, n + diskSpaceRecheckBytes, 1] := by
  have hrecheck : diskSpaceRecheckBytes = 8388608 := rfl
  simp [transferCalls, chunkCalls, nextCheck, spans, hrecheck]

theorem chunk_exceeds_bound :
    allocationBudget (2 ^ 62 + diskSpaceRecheckBytes + 1) (max 1 1) uploadReservationMetadataBytes =
        some (2 ^ 62 + diskSpaceRecheckBytes + 1 + uploadReservationMetadataBytes) ∧
      spans (transferCalls [List.replicate (2 ^ 62 + diskSpaceRecheckBytes) 0, [0]]
        diskSpaceRecheckBytes (2 ^ 62 + diskSpaceRecheckBytes + 1)) 0 =
        [0, 2 ^ 62 + diskSpaceRecheckBytes, 1] :=
  ⟨by decide, spans_long_chunk (2 ^ 62)⟩

end DufsRam
