import DufsRam.Upload.Staging
import DufsRam.Upload.Transfer

/-!
# Responses and the transfer of a body

What a response may say of its session, and that every way a transfer can end leaves the session
within its protocol and answers with such a response.
-/

namespace DufsRam

open Crash Session Ensures UploadRequest List UploadResponse

variable {site : Site} {r : UploadRequest} {w w' : World} {s s' : Session} {file file' : StageFile}
  {P : Session → Prop} {k : ℕ} {message : String} {E : Exit → Session → Prop}
  {rest data : List UInt8} {e : Exit} {α : Type} {c : Prop}

/-! ### Honest responses -/

/-- The offset is one that the row records. -/
def Session.Durable (s : Session) (k : ℕ) : Prop := ∃ row, s.row = some row ∧ k ≤ row.durableOffset

/-- The response tells the client this offset, in its header or in the problem it describes. -/
def UploadResponse.Advertises (res : UploadResponse) (k : ℕ) : Prop :=
  res.uploadOffset = some k ∨ ∃ p, res.problem = some p ∧ p.context.uploadOffset = some k

instance (res : UploadResponse) (k : ℕ) : Decidable (res.Advertises k) :=
  decidable_of_iff (res.uploadOffset = some k ∨ ∃ p ∈ res.problem, p.context.uploadOffset = some k)
    Iff.rfl

/-- An offset that a response tells is durable, or it repeats what the client declared in a
response that leaves the outcome open. A commit that a response reports is recorded. -/
structure UploadResponse.Honest (r : UploadRequest) (res : UploadResponse) (s : Session) :
    Prop where
  offset : ∀ k, res.Advertises k → s.Durable k ∨
    (r.mode.offset = some k ∧ (res.state = some .notStarted ∨ res.state = some .unknown))
  committed : res.state = some .committed → ∃ row, s.row = some row ∧ row.state = .committed ∧
    res.uploadLength = some row.uploadLength

/-- What holds when a handler ends early. -/
def Leaves (r : UploadRequest) : Exit → Session → Prop
  | .reply res, s => res.Honest r s
  | .error _, _ => True

/-- A run that ends early only as the request may be left. -/
abbrev Serves {α : Type} (site : Site) (r : UploadRequest) (p : Io α) (Q : α → Session → Prop)
    (w : World) : Prop :=
  Runs site r p Q (Leaves r) w

/-- A run whose response is honest. -/
abbrev Replies (site : Site) (r : UploadRequest) (p : Io UploadResponse) (w : World) : Prop :=
  Serves site r p (fun res s => res.Honest r s) w

lemma Fails.leaves (h : Fails P e s) : Leaves r e s := by
  obtain ⟨⟨f, rfl⟩, -⟩ := h
  trivial

/-- A run that ends early only with an error. -/
lemma serves {p : Io α} {Q : α → Session → Prop} (h : Runs site r p Q (Fails P) w) :
    Serves site r p Q w :=
  h.mono (fun _ _ h => h) fun _ _ h => h.leaves

lemma Session.Durable.of_row (h : s.Durable k) (hrow : s'.row = s.row) : s'.Durable k := by
  rw [Durable, hrow]
  exact h

lemma Session.Durable.kept (h : s.Durable k) (hk : Kept s s') : s'.Durable k :=
  h.of_row hk.row

section Problem

variable {context : UploadErrorContext} {status : StatusCode} {code : ErrorCode} {detail : String}
  {recovery : RecoveryAdvice} {res : UploadResponse}

/-- A problem is honest if its context is, and the headers that were set before. -/
lemma honest_problem
    (hoff : ∀ k, context.uploadOffset = some k ∨ res.uploadOffset = some k → s.Durable k ∨
      (r.mode.offset = some k ∧ (context.state = .notStarted ∨ context.state = .unknown)))
    (hst : context.state = .committed → ∃ row, s.row = some row ∧ row.state = .committed ∧
      (context.uploadLength <|> res.uploadLength) = some row.uploadLength) :
    (applyUploadProblem context status code detail recovery res).Honest r s where
  offset k hk := by
    have hor : context.uploadOffset = some k ∨ res.uploadOffset = some k := by
      rcases hk with hk | ⟨p, hp, hk⟩
      · simp only [applyUploadProblem, applyUploadRecordHeaders] at hk
        cases hc : context.uploadOffset with
        | none => exact .inr (by simpa [hc] using hk)
        | some j => exact .inl (by simpa [hc] using hk)
      · cases hp
        exact .inl hk
    simpa [applyUploadProblem, applyUploadRecordHeaders] using hoff k hor
  committed h := hst (Option.some.inj h)

/-- A problem that tells no offset. -/
lemma honest_silent (hoff : context.uploadOffset = none) (hres : res.uploadOffset = none)
    (hst : context.state ≠ .committed) :
    (applyUploadProblem context status code detail recovery res).Honest r s :=
  honest_problem (by simp [hoff, hres]) fun h => absurd h hst

/-- A problem that tells a durable offset. -/
lemma honest_durable (hk : s.Durable k) (hoff : context.uploadOffset = some k)
    (hres : res.uploadOffset = none) (hst : context.state ≠ .committed) :
    (applyUploadProblem context status code detail recovery res).Honest r s := by
  refine honest_problem (fun j hj => .inl ?_) fun h => absurd h hst
  simp only [hoff, hres, Option.some.injEq, reduceCtorEq, or_false] at hj
  exact hj ▸ hk

lemma honest_notStarted : (r.notStarted status code detail recovery).Honest r s :=
  honest_problem (fun k hk => .inr ⟨by simpa [empty] using hk, .inl rfl⟩) nofun

lemma honest_uncertain : (r.uncertain status code detail recovery).Honest r s :=
  honest_problem (fun k hk => .inr ⟨by simpa [empty] using hk, .inr rfl⟩) nofun

lemma honest_unknown (h : ∀ k, res.uploadOffset = some k → s.Durable k) :
    (applyUploadUnknown message res).Honest r s :=
  honest_problem (fun k hk => .inl (h k (by simpa using hk))) nofun

/-- The answers of an upload that stopped: the offset it can be resumed from is durable. -/
lemma honest_stopped {resumable : Option ℕ} (h : ∀ k, resumable = some k → s.Durable k) :
    (stoppedUpload r resumable status code detail).Honest r s := by
  refine honest_problem (fun k hk => .inl (h k ?_)) ?_
  · simpa [empty] using hk
  · dsimp only
    split <;> nofun

end Problem

/-! ### Flow assertions -/

namespace Session

/-- Every row the session may have is running. -/
def Running (s : Session) : Prop := ∀ row, s.row = some row → row.state = .running

lemma Running.kept (h : s.Running) (hk : Kept s s') : s'.Running := fun row hrow =>
  h row (hk.row.symm.trans hrow)

lemma Running.unfinished (h : s.Running) : s.Unfinished := fun row hrow => .inl (h row hrow)

lemma Running.givesUp (h : s.Running) : s.GivesUp := fun row hrow hne => absurd (h row hrow) hne

/-- A request stages: its descriptor is at the end of the stage, and a row that names the stage is
at the offset where the request started. A retained stage is not written. -/
structure Staged (r : UploadRequest) (file : StageFile) (s : Session) : Prop
    extends Written r file s where
  state : ∀ row, s.row = some row → row.state = .running ∨
    (row.state = .awaitingConfirmation ∧ r.mode.isResume = true ∧ file.queued = [] ∧
      file.pos = r.initialOffset)
  offset : ∀ row, s.row = some row → row.stageIdentity = some file.identity →
    row.durableOffset = r.initialOffset
  resumed : r.mode.isResume = true → s.Durable r.initialOffset

lemma Staged.unfinished (h : Staged r file s) : s.Unfinished := fun row hrow =>
  (h.state row hrow).imp_right And.left

lemma Staged.running_of_fresh (h : Staged r file s) (hfr : r.mode.isResume = false) :
    s.Running := by
  intro row hrow
  rcases h.state row hrow with hrun | ⟨-, hrsm, -⟩
  · exact hrun
  · simp [hfr] at hrsm

/-- The descriptor has moved on, or only the clock has. -/
lemma Staged.move (h : Staged r file s) (hk : Kept s s') (hwr : Written r file' s')
    (hid : file'.identity = file.identity) (hmv : file' = file ∨ s.Running) :
    Staged r file' s' where
  toWritten := hwr
  state row hrow := by
    rw [hk.row] at hrow
    rcases hmv with rfl | hrun
    · exact h.state row hrow
    · exact .inl (hrun row hrow)
  offset row hrow := by
    rw [hk.row] at hrow
    rw [hid]
    exact h.offset row hrow
  resumed hrsm := (h.resumed hrsm).kept hk

lemma Staged.quiet (h : Staged r file s) (hq : Quiet s s') : Staged r file s' :=
  h.move hq.kept (h.toWritten.quiet hq) rfl (.inl rfl)

end Session

lemma UploadRequest.durable_offset (hk : r.mode.offset = some k)
    (h : r.mode.isResume = true → s.Durable r.initialOffset) : s.Durable k := by
  have hinit : r.initialOffset = k := by simp [initialOffset, hk]
  exact hinit ▸ h (UploadMode.resume_of_offset hk)

/-! ### Failures before the commit -/

lemma rethrow_runs {x : Except Exit α} (h : P (w.session site))
    (hx : ∀ e, x = .error e → ∃ f, e = .error f) :
    Runs site r (rethrow x) (fun _ => P) (Fails P) w := by
  cases x with
  | ok a => exact .pure h
  | error e => exact .throw ⟨hx e rfl, h⟩

/-- An attempt that is looked at later. -/
lemma attempt_runs {p : Io α} (h : Runs site r p (fun _ => P) (Fails P) w) :
    Runs site r p.attempt (fun x s => P s ∧ ∀ e, x = .error e → ∃ f, e = .error f) E w := by
  refine attempt h (fun a s' hP => ⟨hP, fun e he => ?_⟩) fun e s' hfails =>
    ⟨hfails.2, fun e' he => ?_⟩
  · cases he
  · cases he
    exact hfails.1

lemma discardFreshStage_runs (hl : Later s (w.session site)) (hidle : file.queued = [])
    (hopen : s.Open) (hgv : s.GivesUp) :
    Runs site r (discardFreshStage site file) (fun _ => Later s) (Fails (Later s)) w := by
  refine (attempt_runs (discardUnrecordedStage_runs hl hidle hgv)).bind fun x w h => ?_
  refine (resetAndAncestors_runs h.1 hopen hgv).bind fun _ w hl => ?_
  exact rethrow_runs hl.1 h.2

/-- A failed step of a fresh upload that leaves no trace, and whose error is raised again. -/
lemma cleanup_runs {p : Io Unit} [Decidable c]
    {Q : α → Session → Prop} (he : ∃ f, e = .error f)
    (hp : c → Runs site r p (fun _ _ => True) (Fails fun _ => True) w) :
    Serves site r (do .when c p; .throw e) Q w := by
  obtain ⟨f, rfl⟩ := he
  refine bind (Q := fun _ _ => True) (.when (fun hc => ?_) fun _ => trivial)
    fun _ w _ => .throw trivial
  exact serves (hp hc)

section

variable (h : Staged r file (w.session site)) (hrun : (w.session site).Running)

include h hrun

lemma cutBack_runs : Serves site r (cutBack r file) (fun _ => Kept (w.session site)) w := by
  refine (serves (setLen_runs (.refl _) h.toWritten h.sends.1 fun row hrow' hid =>
    ⟨hrun row hrow', (h.offset row hrow' hid).le⟩)).bind fun file' w' hset => ?_
  obtain ⟨hk, hid, n, hn⟩ := hset
  exact (syncFileToStorage_runs hk (hid ▸ hn)).mono (fun _ _ h => h.1) fun _ _ h => h.leaves

lemma truncateToCheckpoint_runs :
    Runs site r (truncateToCheckpoint r file) (fun _ => Kept (w.session site)) E w := by
  refine attempt_bind (setLen_runs (.refl _) h.toWritten h.sends.1 fun row hrow hid =>
    ⟨hrun row hrow, (h.offset row hrow hid).le⟩) (fun file' w' hset => ?_) fun e w' he => ?_
  · obtain ⟨hk, hid, n, hn⟩ := hset
    exact attempt_bind (syncFileToStorage_runs hk (hid ▸ hn)) (fun _ _ h => .pure h.1)
      fun _ _ h => .pure h.2.1
  · exact .pure he.2

lemma finishPrecommitSpaceFailure_runs :
    Replies site r (finishPrecommitSpaceFailure site r file message) w := by
  unfold finishPrecommitSpaceFailure
  split
  case isTrue hrsm =>
    refine (truncateToCheckpoint_runs h hrun).bind fun _ w' hk => .pure ?_
    exact honest_durable ((h.resumed hrsm).kept hk) rfl rfl nofun
  case isFalse =>
    refine .with_inv fun hinv => ?_
    have hopen := hrun.unfinished.isOpen hinv
    refine attempt_bind (resetAndAncestors_runs (.refl _) hopen hrun.givesUp)
      (fun _ w' _ => .pure ?_) fun e w' _ => .pure ?_
    · exact honest_silent rfl rfl nofun
    · exact honest_unknown nofun

end

lemma finishPrecommitIoFailure_runs (hrun : (w.session site).Running)
    (hresumed : r.mode.isResume = true → (w.session site).Durable r.initialOffset) :
    Replies site r (finishPrecommitIoFailure site r message) w := by
  unfold finishPrecommitIoFailure
  split
  case isTrue hrsm => exact .pure (honest_durable (hresumed hrsm) rfl rfl nofun)
  case isFalse =>
    refine .with_inv fun hinv => ?_
    have hopen := hrun.unfinished.isOpen hinv
    refine attempt_bind (resetAndAncestors_runs (.refl _) hopen hrun.givesUp)
      (fun _ w' _ => .pure ?_) fun e w' _ => .pure ?_
    · exact honest_silent rfl rfl nofun
    · exact honest_unknown nofun

/-! ### Running out of time -/

lemma finishTimedOutAt_runs (h : Staged r file (w.session site)) (hidle : file.queued = [])
    (hk : k = file.pos) : Replies site r (finishTimedOutAt site r file k message) w := by
  refine .with_inv fun hinv => ?_
  have hopen := h.unfinished.isOpen hinv
  unfold finishTimedOutAt
  split
  case isTrue =>
    refine attempt_bind (persistCheckpointInner_runs (.refl _) h.toWritten h.unfinished rfl
      (by simp)) (fun _ w' hsvd => .pure (honest_unknown fun j hj => ?_)) fun e w' he => ?_
    · cases hj
      exact ⟨_, hsvd.1.row, Nat.le_refl _⟩
    · refine cleanup_runs he.1 fun hfr => ?_
      have hrun := h.running_of_fresh hfr
      exact (discardFreshStage_runs he.2.later hidle hopen hrun.givesUp).mono
        (fun _ _ _ => trivial) fun _ _ h => h.mono fun _ => trivial
  case isFalse =>
    split
    case isTrue hfr =>
      have hrun := h.running_of_fresh hfr
      refine (serves (discardFreshStage_runs (.refl _) hidle hopen hrun.givesUp)).bind
        fun _ w' _ => .pure (honest_unknown ?_)
      rintro _ ⟨⟩
    case isFalse hrsm =>
      replace hrsm : r.mode.isResume = true := by simpa using hrsm
      refine bind (Q := fun _ w' => Kept (w.session site) (w'.session site))
        (.when (fun hlng => ?_) fun _ => .refl _) fun _ w' hkept => .pure ?_
      · -- a stage that is longer than its checkpoint is not a retained one
        refine cutBack_runs h fun row hrow => ?_
        rcases h.state row hrow with hrun | ⟨-, -, -, hpos⟩
        · exact hrun
        · omega
      · refine honest_unknown fun j hj => ?_
        cases hj
        exact (h.resumed hrsm).kept hkept

lemma finishTimedOutUpload_runs (h : Staged r file (w.session site)) :
    Replies site r (finishTimedOutUpload site r file message) w := by
  refine .with_inv fun hinv => ?_
  have hopen := h.unfinished.isOpen hinv
  refine attempt_bind (flush_runs (.refl _) h.toWritten) (fun file' w₁ hfls => ?_) fun e w₁ he => ?_
  · obtain ⟨rfl, hk, hwr⟩ := hfls
    refine attempt_bind (metadata_runs hk hwr) (fun found w₂ hfnd => ?_) fun e w₂ he => ?_
    · obtain ⟨hk, hwr, -, -, hlen, hsame⟩ := hfnd
      have heq := hsame StageFile.queued_flushed
      rw [heq] at hlen hwr
      refine finishTimedOutAt_runs (h.move hk hwr rfl ?_) StageFile.queued_flushed hlen
      by_cases hidle : file.queued = []
      · exact .inl (StageFile.flushed_of_idle hidle)
      · refine .inr fun row hrow => ?_
        rcases h.state row hrow with hrun | ⟨-, -, hnil, -⟩
        · exact hrun
        · exact absurd hnil hidle
    · refine cleanup_runs he.1 fun hfr => ?_
      have hrun := h.running_of_fresh hfr
      exact (resetAndAncestors_runs he.2.1.later hopen hrun.givesUp).mono
        (fun _ _ _ => trivial) fun _ _ h => h.mono fun _ => trivial
  · refine cleanup_runs he.1 fun hfr => ?_
    have hrun := h.running_of_fresh hfr
    exact (discardFreshStage_runs he.2.later rfl hopen hrun.givesUp).mono
      (fun _ _ _ => trivial) fun _ _ h => h.mono fun _ => trivial

/-! ### The body -/

/-- What follows the queue still follows it when part of the queue has reached the file. -/
lemma UploadRequest.Sends.advance (h : r.Sends file.pos (file.queued ++ rest)) :
    r.Sends (file.advance k).pos ((file.advance k).queued ++ rest) := by
  rw [← take_append_drop k file.queued, append_assoc] at h
  exact h.append.2

/-- Bytes that follow the queue may be queued. -/
lemma Session.Written.enqueue (h : Written r file s) (hrun : s.Running)
    (hsends : r.Sends file.pos (file.queued ++ data)) : Written r (file.enqueue data) s where
  inode := h.inode
  sends := hsends
  running _ row hrow _ := hrun row hrow

lemma Session.Written.abandon (h : Written r (file.advance k) s) :
    Written r (file.abandon k) s where
  inode := h.inode
  sends := ⟨h.sends.1, nil_prefix⟩
  running hne := absurd rfl hne

lemma writeAll_runs (hk : Kept s (w.session site)) (h : Written r file (w.session site))
    (hrun : s.Running) (hsends : r.Sends file.pos (file.queued ++ (data ++ rest))) :
    Runs site r (file.writeAll data)
      (fun x s' => Kept s s' ∧ Written r x.1 s' ∧ x.1.identity = file.identity ∧
        (x.2 = none → r.Sends x.1.pos (x.1.queued ++ rest))) E w := by
  refine ask_bind fun a => ?_
  rw [← append_assoc] at hsends
  obtain ⟨hrch, hkept, hwr⟩ := (h.enqueue (hrun.kept hk) hsends.append.1).land a.amount
  refine .modify_bind hrch ?_
  cases a.error with
  | some kind => exact .pure ⟨hk.trans hkept, hwr.abandon, rfl, nofun⟩
  | none =>
    have hqd : r.Sends (file.enqueue data).pos ((file.enqueue data).queued ++ _) := hsends
    exact .pure ⟨hk.trans hkept, hwr, rfl, fun _ => hqd.advance⟩

lemma recheckSpace_runs [Decidable c] (h : Quiet s (w.session site)) :
    Runs site r (recheckSpace c) (fun _ => Quiet s) E w := by
  unfold recheckSpace
  split
  case isFalse => exact .pure h
  case isTrue =>
    refine attempt_bind (reservedSpaceIsAvailable_runs h) (fun b w h => ?_) fun e w h => ?_
    · cases b <;> exact .pure h
    · obtain ⟨⟨f, rfl⟩, h⟩ := h
      cases f <;> exact .pure h

lemma writeUploadChunk_runs {t : Receiver} (hk : Kept s (w.session site))
    (h : Written r t.file (w.session site)) (hrun : s.Running)
    (hsends : r.Sends t.file.pos (t.file.queued ++ (data ++ rest))) :
    Runs site r (writeUploadChunk data t)
      (fun x s' => Kept s s' ∧ Written r x.1.file s' ∧ x.1.file.identity = t.file.identity ∧
        (x.2 = none → r.Sends x.1.file.pos (x.1.file.queued ++ rest))) E w := by
  unfold writeUploadChunk
  split
  case isTrue => exact .pure ⟨hk, h, rfl, nofun⟩
  case isFalse =>
    refine (recheckSpace_runs (.refl _)).bind fun space w₁ hq => ?_
    have hk₁ := hk.trans hq.kept
    cases space with
    | some e => exact .pure ⟨hk₁, h.quiet hq, rfl, nofun⟩
    | none =>
      refine (writeAll_runs hk₁ (h.quiet hq) hrun hsends).bind fun written w₂ hwr => ?_
      obtain ⟨hk₂, hfile, hid, hrest⟩ := hwr
      cases hfail : written.2 with
      | some kind => exact .pure ⟨hk₂, hfile, hid, nofun⟩
      | none =>
        refine (deadlinePassed_runs (.refl _)).bind fun late w₃ hq => .pure ?_
        exact ⟨hk₂.trans hq.kept, hfile.quiet hq, hid, fun _ => hrest hfail⟩

/-- The receiving loop, by induction on what the stream yields. The bytes to come follow what is
queued; nothing is written unless something remains to be received. -/
lemma receiveUploadBody_runs (events : List BodyEvent) :
    ∀ {t : Receiver} {w : World}, Kept s (w.session site) → Written r t.file (w.session site) →
      (t.remaining ≠ 0 → s.Running) →
      r.Sends t.file.pos (t.file.queued ++ events.flatMap BodyEvent.bytes) →
      Runs site r (receiveUploadBody events t)
        (fun x s' => Kept s s' ∧ Written r x.1 s' ∧ x.1.identity = t.file.identity ∧
          (x.1 = t.file ∨ s.Running)) E w := by
  induction events with
  | nil => exact fun hk h _ _ => .pure ⟨hk, h, rfl, .inl rfl⟩
  | cons event rest ih =>
    intro t w hk h hrun hsends
    cases event with
    | failure | shutdown | idle | total => exact .pure ⟨hk, h, rfl, .inl rfl⟩
    | chunk bytes =>
      rw [flatMap_cons] at hsends
      unfold receiveUploadBody
      split
      case isTrue hnil => exact ih hk h hrun (by simpa [hnil, BodyEvent.bytes] using hsends)
      case isFalse =>
        split
        case isTrue => exact .pure ⟨hk, h, rfl, .inl rfl⟩
        case isFalse hrem =>
          have hrunning := hrun hrem
          have hspl : BodyEvent.bytes (.chunk bytes) ++ rest.flatMap BodyEvent.bytes =
              bytes.take t.remaining ++
                (bytes.drop t.remaining ++ rest.flatMap BodyEvent.bytes) := by
            rw [← append_assoc, take_append_drop]
            rfl
          rw [hspl] at hsends
          refine (writeUploadChunk_runs hk h hrunning hsends).bind fun written w₁ hwr => ?_
          obtain ⟨hk₁, hfile, hid, hrest⟩ := hwr
          cases hfail : written.2 with
          | some e => exact .pure ⟨hk₁, hfile, hid, .inr hrunning⟩
          | none =>
            dsimp only
            split
            case isTrue => exact .pure ⟨hk₁, hfile, hid, .inr hrunning⟩
            case isFalse hfits =>
              -- the chunk was taken as a whole
              have hdrop : bytes.drop t.remaining = [] := drop_eq_nil_of_le (by omega)
              have hnext := hrest hfail
              rw [hdrop, nil_append] at hnext
              exact (ih hk₁ hfile (fun _ => hrunning) hnext).mono
                (fun _ _ h => ⟨h.1, h.2.1, h.2.2.1.trans hid, .inr hrunning⟩) fun _ _ h => h

/-! ### Errors of the transfer -/

lemma partialSize_runs (h : Staged r file (w.session site)) (hrun : (w.session site).Running) :
    Serves site r (partialSize r file) (fun x s' => Staged r x.1 s' ∧ s'.Running) w := by
  refine attempt_bind (metadata_runs (.refl _) h.toWritten) (fun found w₁ hfnd => ?_)
    fun e w₁ he => ?_
  · obtain ⟨hk, hwr, hid, -⟩ := hfnd
    exact .pure ⟨h.move hk hwr hid (.inr hrun), hrun.kept hk⟩
  · obtain ⟨⟨f, rfl⟩, hk, hwr⟩ := he
    dsimp only
    split
    case isTrue => exact (drop_runs (.refl _) hwr).bind fun _ _ _ => .throw trivial
    case isFalse =>
      exact .pure ⟨h.move hk hwr rfl (.inl rfl), hrun.kept hk⟩

/-- A running upload is given up without a trace. -/
lemma giveUp_runs {created : Bool} (hrun : (w.session site).Running) :
    Serves site r (resetAndAncestors site created) (fun _ _ => True) w := by
  refine .with_inv fun hinv => ?_
  exact (resetAndAncestors_runs (.refl _) (hrun.unfinished.isOpen hinv) hrun.givesUp).mono
    (fun _ _ _ => trivial) fun _ _ h => h.leaves

section

variable (h : Staged r file (w.session site)) (hrun : (w.session site).Running)

include h hrun

lemma finishExcessBody_runs : Replies site r (finishExcessBody site r file) w := by
  refine bind (Q := fun _ w' => r.mode.isResume = true →
    Kept (w.session site) (w'.session site)) ?_ fun _ w' hk => .pure (honest_stopped ?_)
  · split
    case isTrue => exact (cutBack_runs h hrun).mono (fun _ _ h _ => h) fun _ _ h => h
    case isFalse hfr =>
      refine (drop_runs (.refl _) h.toWritten).bind fun _ w' hk => ?_
      exact (giveUp_runs (hrun.kept hk)).mono (fun _ _ _ hrsm => absurd hrsm hfr) fun _ _ h => h
  · exact fun k hoff => durable_offset hoff fun hrsm =>
      (h.resumed hrsm).kept (hk hrsm)

lemma finishInsufficientStorage_runs :
    Replies site r (finishInsufficientStorage site r file) w := by
  refine (cutBack_runs h hrun).bind fun _ w' hk => ?_
  refine bind (Q := fun _ w'' => r.mode.isResume = true →
    Kept (w.session site) (w''.session site)) (.when (fun hfr => ?_) fun _ _ => hk)
    fun _ w'' hk => .pure (honest_stopped ?_)
  · exact (giveUp_runs (hrun.kept hk)).mono (fun _ _ _ hrsm => by simp [hfr] at hrsm) fun _ _ h => h
  · exact fun k hoff => durable_offset hoff fun hrsm =>
      (h.resumed hrsm).kept (hk hrsm)

/-- What is kept for a resume is durable up to the size it was found at. -/
lemma keepForResume_runs :
    Serves site r (keepForResume site r file k) (fun kept s' => kept = true → s'.Durable k) w := by
  unfold keepForResume
  split
  case isTrue =>
    refine (serves (persistCheckpointInner_runs (.refl _) h.toWritten hrun.unfinished rfl
      fun _ => rfl)).bind fun _ w' hsvd => .pure fun _ => ?_
    exact ⟨_, hsvd.1.row, Nat.le_refl _⟩
  case isFalse =>
    split
    case isTrue => exact (drop_runs (.refl _) h.toWritten).bind fun _ _ _ => .throw trivial
    case isFalse =>
      refine (drop_runs (.refl _) h.toWritten).bind fun _ w' hk => ?_
      exact (giveUp_runs (hrun.kept hk)).bind fun _ _ _ => .pure nofun

lemma finishTransferError_runs {e : UploadTransferError} :
    Replies site r (finishTransferError site r file e) w := by
  cases e with
  | totalTimeout => exact finishTimedOutUpload_runs h
  | excessBody =>
    exact (partialSize_runs h hrun).bind fun _ _ h => finishExcessBody_runs h.1 h.2
  | insufficientStorage =>
    exact (partialSize_runs h hrun).bind fun _ _ h => finishInsufficientStorage_runs h.1 h.2
  | idleTimeout =>
    refine (partialSize_runs h hrun).bind fun found w₁ h => ?_
    refine (keepForResume_runs h.1 h.2).bind fun kept w₂ hkept =>
      .pure (honest_stopped fun k hk => ?_)
    split at hk
    case isTrue hkeep =>
      cases hk
      exact hkept hkeep
    case isFalse => cases hk
  | io kind =>
    refine (partialSize_runs h hrun).bind fun found w₁ h => ?_
    exact (keepForResume_runs h.1 h.2).bind fun _ _ _ => .throw trivial

end

end DufsRam
