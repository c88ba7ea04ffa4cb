import DufsRam.Client.Sessions

/-!
# What an uploader may publish

An uploader gives up its session only for a response that says that nothing came of it, and it asks
for a target to be replaced only with a revision that was shown to the user and confirmed. If the
server tells the truth, an uploader therefore publishes its file once, and replaces nothing that the
user did not agree to.
-/

namespace DufsRam.Client

open Manager Nat List Function

variable {env : UploadEnvironment} {schedule : ℕ → ℕ × ManagerEvent} {m m' : Manager} {i n t : ℕ}
  {shown confirmed : String → String → Prop} {gone : String → Prop} {id name r : String}
  {event : ManagerEvent} {u : Uploader} {f : Uploader → Uploader} {req : SentRequest}

/-- What the sessions rely on, where `shown` and `confirmed` are the revisions of the targets that
were shown and confirmed and `gone` are the sessions that came to nothing. -/
structure Trusted (shown confirmed : String → String → Prop) (gone : String → Prop) (m : Manager) :
    Prop where
  indexed : ∀ i u, m.uploaders i = some u → i < m.nextIndex
  revision : ∀ i u, m.uploaders i = some u → ∀ r ∈ u.targetRevision, confirmed u.name r
  choice : ∀ i u, m.uploaders i = some u → ∀ r staged, u.awaiting = .choice r staged →
    shown u.name r
  sent : ∀ request ∈ m.sent, ∃ u, m.uploaders request.index = some u ∧
    (request.uploadId = u.uploadId ∨ gone request.uploadId) ∧
    (request.overwrite = true → ∃ r ∈ request.targetRevision, confirmed u.name r)
  jobs : ∀ job ∈ m.jobs, SelectionJob.Allows shown confirmed job

/-- The uploader has this target and this session. -/
def Manager.Belongs (i : ℕ) (name id : String) (m : Manager) : Prop :=
  ∀ u, m.uploaders i = some u → u.name = name ∧ u.uploadId = id

lemma Manager.Belongs.modify (h : m.Belongs i name id) {j : ℕ} (hname : ∀ u, (f u).name = u.name)
    (hid : ∀ u, (f u).uploadId = u.uploadId) : (m.modify j f).Belongs i name id := by
  intro u hu
  by_cases hj : i = j
  · subst hj
    rw [uploaders_modify] at hu
    obtain ⟨v, hv, rfl⟩ := Option.map_eq_some_iff.1 hu
    rw [hname, hid]
    exact h v hv
  · rw [uploaders_modify_of_ne hj] at hu
    exact h u hu

lemma ofSessions_belongs : OfSessions (Manager.Belongs i name id) where
  modify hf h := h.modify hf.name hf.uploadId
  send _ h := h
  congr h hups _ _ _ := by
    unfold Manager.Belongs
    rw [hups]
    exact h

lemma showsConflict_of_offers (hidx : eventIndex event = some i) (hu : m.uploaders i = some u)
    (hoffers : m.OffersOverwrite i event r) : m.ShowsConflict env event u.name r := by
  unfold Manager.ShowsConflict
  split
  · cases hidx
  · exact ⟨i, u, hidx, hu, rfl, hoffers⟩

lemma confirmsConflict_of_confirms (hidx : eventIndex event = some i) (hu : m.uploaders i = some u)
    (hconf : m.ConfirmsOverwrite i event r) : m.ConfirmsConflict event u.name r := by
  unfold Manager.ConfirmsConflict
  split
  · cases hidx
  · exact ⟨i, u, hidx, hu, rfl, hconf⟩

namespace Trusted

/-- An uploader is changed: what has to be known of its session. -/
lemma modify (h : Trusted shown confirmed gone m) (hname : ∀ u, (f u).name = u.name)
    (hrev : ∀ u, m.uploaders i = some u → ∀ r ∈ (f u).targetRevision, confirmed u.name r)
    (hchoice : ∀ u, m.uploaders i = some u → ∀ r staged, (f u).awaiting = .choice r staged →
      shown u.name r)
    (hses : ∀ u, m.uploaders i = some u → (f u).uploadId = u.uploadId ∨ gone u.uploadId) :
    Trusted shown confirmed gone (m.modify i f) := by
  -- an uploader of the new manager is the changed one or one of the others
  have hcs : ∀ {j v}, (m.modify i f).uploaders j = some v →
      (∃ u, j = i ∧ m.uploaders i = some u ∧ v = f u) ∨ (j ≠ i ∧ m.uploaders j = some v) := by
    intro j v hv
    by_cases hj : j = i
    · subst hj
      rw [uploaders_modify] at hv
      obtain ⟨u, hu, rfl⟩ := Option.map_eq_some_iff.1 hv
      exact .inl ⟨u, rfl, hu, rfl⟩
    · rw [uploaders_modify_of_ne hj] at hv
      exact .inr ⟨hj, hv⟩
  constructor
  case indexed =>
    intro j v hv
    rcases hcs hv with ⟨u, rfl, hu, -⟩ | ⟨-, hv⟩
    · exact h.indexed j u hu
    · exact h.indexed j v hv
  case revision =>
    intro j v hv r hr
    rcases hcs hv with ⟨u, rfl, hu, rfl⟩ | ⟨-, hv⟩
    · rw [hname]
      exact hrev u hu r hr
    · exact h.revision j v hv r hr
  case choice =>
    intro j v hv r staged haw
    rcases hcs hv with ⟨u, rfl, hu, rfl⟩ | ⟨-, hv⟩
    · rw [hname]
      exact hchoice u hu r staged haw
    · exact h.choice j v hv r staged haw
  case sent =>
    intro req hreq
    obtain ⟨u, hu, hid, how⟩ := h.sent req hreq
    by_cases hidx : req.index = i
    · rw [hidx] at hu ⊢
      refine ⟨f u, by rw [uploaders_modify, hu]; rfl, ?_, ?_⟩
      · rcases hid with hid | hid
        · rw [hid]
          exact (hses u hu).imp Eq.symm id
        · exact .inr hid
      · rw [hname]
        exact how
    · exact ⟨u, by rw [uploaders_modify_of_ne hidx]; exact hu, hid, how⟩
  case jobs => exact h.jobs

lemma ofSessions : OfSessions (Trusted shown confirmed gone) where
  modify hf h := h.modify hf.name (fun u hu r hr => h.revision _ u hu r (hf.targetRevision u ▸ hr))
    (fun u hu r staged haw => h.choice _ u hu r staged (hf.awaiting u r staged haw))
    fun u _ => .inl (hf.uploadId u)
  send := by
    rintro m j req ⟨u, hu, hof⟩ h
    refine ⟨h.indexed, h.revision, h.choice, fun other hoth => ?_, h.jobs⟩
    rcases mem_append.1 hoth with hoth | hoth
    · exact h.sent other hoth
    · rw [mem_singleton.1 hoth, hof.index]
      refine ⟨u, hu, .inl hof.uploadId, fun how => ?_⟩
      rw [hof.overwrite] at how
      obtain ⟨r, hr⟩ := Option.isSome_iff_exists.1 how
      exact ⟨r, hof.targetRevision.trans hr, h.revision j u hu r hr⟩
  congr := by
    intro m m' h hups hsent hjobs hnext
    refine ⟨?_, ?_, ?_, ?_, ?_⟩
    · rw [hups, hnext]
      exact h.indexed
    · rw [hups]
      exact h.revision
    · rw [hups]
      exact h.choice
    · rw [hups, hsent]
      exact h.sent
    · rw [hjobs]
      exact h.jobs

lemma selects : Selects env shown confirmed (Trusted shown confirmed gone) where
  toOfSessions := ofSessions
  relist hjobs h := ⟨h.indexed, h.revision, h.choice, h.sent, hjobs⟩
  create := by
    intro m batchId entry hent h
    have hcs : ∀ {j v}, (m.createUploader env batchId entry).uploaders j = some v →
        (j = m.nextIndex ∧ v.name = entry.name ∧ v.targetRevision = entry.revision ∧
          v.awaiting = .nothing) ∨ m.uploaders j = some v := by
      intro j v hv
      by_cases hj : j = m.nextIndex
      · subst hj
        simp only [createUploader, update_self] at hv
        cases hv
        exact .inl ⟨rfl, rfl, rfl, rfl⟩
      · simp only [createUploader, update_of_ne hj] at hv
        exact .inr hv
    refine ⟨?_, ?_, ?_, ?_, h.jobs⟩
    · intro j v hv
      rcases hcs hv with ⟨rfl, -⟩ | hv
      · exact lt_succ_self _
      · exact (h.indexed j v hv).trans (lt_succ_self _)
    · intro j v hv r hr
      rcases hcs hv with ⟨-, hname, hrev, -⟩ | hv
      · rw [hname]
        exact hent r (hrev ▸ hr)
      · exact h.revision j v hv r hr
    · intro j v hv r staged haw
      rcases hcs hv with ⟨-, -, -, hnothing⟩ | hv
      · cases hnothing.symm.trans haw
      · exact h.choice j v hv r staged haw
    · intro req hreq
      obtain ⟨u, hu, hsent⟩ := h.sent req hreq
      refine ⟨u, ?_, hsent⟩
      have hne : req.index ≠ m.nextIndex := (h.indexed _ u hu).ne
      simpa only [createUploader, update_of_ne hne] using hu

/-- The handlers of an uploader ask for what was shown and use what was confirmed, and a session
that they restart is gone. -/
lemma handles {restart : Prop} {ask confirm : String → Prop} (hask : ∀ r, ask r → shown name r)
    (hcfm : ∀ r, confirm r → confirmed name r) (hgone : restart → gone id) :
    Handles env i restart ask confirm
      (fun m => Trusted shown confirmed gone m ∧ m.Belongs i name id)
      (Trusted shown confirmed gone) := by
  refine (ofSessions.and ofSessions_belongs).handles ofSessions ?_ ?_ ?_ (fun hm => hm.1) ?_
  · intro m r staged hr hm
    refine ⟨hm.1.modify (fun _ => rfl) (hm.1.revision i) ?_ fun _ _ => .inl rfl,
      hm.2.modify (fun _ => rfl) fun _ => rfl⟩
    rintro u hu _ _ ⟨⟩
    rw [(hm.2 u hu).1]
    exact hask r hr
  · intro m r hr hm
    refine ⟨hm.1.modify (fun _ => rfl) ?_ (hm.1.choice i) fun _ _ => .inl rfl,
      hm.2.modify (fun _ => rfl) fun _ => rfl⟩
    rintro u hu _ ⟨⟩
    rw [(hm.2 u hu).1]
    exact hcfm r hr
  · intro m hm
    refine ⟨hm.1.modify (fun _ => rfl) ?_ (hm.1.choice i) fun _ _ => .inl rfl,
      hm.2.modify (fun _ => rfl) fun _ => rfl⟩
    rintro u hu r ⟨⟩
  · intro m hrst hm
    have hmodified := hm.1.modify (i := i) (f := fun u =>
      { u with
        uploadId := env.randomUUID m.drawn
        uploadOffset := 0
        uploadRequestPhase := .fresh
        missingTargetRetryUsed := false }) (fun _ => rfl) (hm.1.revision i) (hm.1.choice i)
      fun u hu => .inr ((hm.2 u hu).2 ▸ hgone hrst)
    exact ofSessions.congr hmodified rfl rfl rfl rfl

theorem step (h : Trusted shown confirmed gone m) {now : ℕ}
    (hshown : ∀ name r, m.ShowsConflict env event name r → shown name r)
    (hconf : ∀ name r, m.ConfirmsConflict event name r → confirmed name r)
    (hgone : ∀ i u, eventIndex event = some i → m.uploaders i = some u → m.ReportsGone i event →
      gone u.uploadId)
    (hstep : m.step env now event = some m') : Trusted shown confirmed gone m' := by
  refine selects.step h h.jobs hshown hconf (fun i u hidx hu hstep => ?_) hstep
  have hhdls : Handles env i (m.ReportsGone i event) (m.OffersOverwrite i event)
      (m.ConfirmsOverwrite i event)
      (fun m => Trusted shown confirmed gone m ∧ m.Belongs i u.name u.uploadId)
      (Trusted shown confirmed gone) := by
    refine handles (fun r hr => ?_) (fun r hr => ?_) (hgone i u hidx hu)
    · exact hshown u.name r (showsConflict_of_offers hidx hu hr)
    · exact hconf u.name r (confirmsConflict_of_confirms hidx hu hr)
  refine hhdls.uploaderStep ⟨h, fun v hv => ?_⟩ hu hstep
  cases hu.symm.trans hv
  exact ⟨rfl, rfl⟩

end Trusted

/-! ### What a response reports -/

/-- The response is bound to the session and names this state of it. -/
structure Response.Reports (response : Response) (id : String) (state : UploadPublicState) :
    Prop where
  uploadId : (response.headers .uploadId).getD "" = id
  state : uploadProtocolState ((response.headers .operationState).getD "") = some state

lemma parseBoundUploadProtocol_spec {headers : Headers} {len : ℕ} {protocol : BoundUploadProtocol}
    (h : parseBoundUploadProtocol headers id len = some protocol) :
    (headers .uploadId).getD "" = id ∧
      uploadProtocolState ((headers .operationState).getD "") = some protocol.state := by
  unfold parseBoundUploadProtocol at h
  split at h
  · cases h
  · dsimp only at h
    split at h
    · cases h
    · next state hst =>
      split at h
      · cases h
      · next hid =>
        split at h
        · cases h
        · split at h <;> cases h
          exact ⟨not_not.1 hid, hst⟩

lemma reports_of_classify {phase : UploadRequestPhase} {resp : Response} {state : UploadPublicState}
    (h : (u.classify phase resp).kind = .state state) : resp.Reports u.uploadId state := by
  unfold Uploader.classify classifyUploadResponse at h
  split at h
  · cases h
  · split at h
    · cases h
    · split at h
      · cases h
      · split at h
        · cases h
        · next protocol hprotocol =>
          split at h
          · cases h
          · cases h
            obtain ⟨hid, hst⟩ := parseBoundUploadProtocol_spec hprotocol
            exact ⟨hid, hst⟩

/-- The event is a response for the uploader that says that nothing came of this session: it was not
seen or is rejected, or its discard is acknowledged. -/
def ManagerEvent.GivesUp (event : ManagerEvent) (i : ℕ) (id : String) : Prop :=
  ∃ response, (event = .checkpointReply i response ∨ event = .reconcileReply i response ∨
      event = .discardReply i response) ∧
    (Response.Reports response id .notSeen ∨ Response.Reports response id .rejected)

lemma givesUp_of_reportsGone (hidx : eventIndex event = some i) (hu : m.uploaders i = some u)
    (h : m.ReportsGone i event) : event.GivesUp i u.uploadId := by
  obtain ⟨v, hv, hgone⟩ := h
  cases hu.symm.trans hv
  have hrpts : ∀ {phase response}, u.reportsGone phase response →
      Response.Reports response u.uploadId .notSeen ∨
        Response.Reports response u.uploadId .rejected :=
    fun h => h.imp reports_of_classify reports_of_classify
  split at hgone
  · cases hidx
    exact ⟨_, .inl rfl, hrpts hgone⟩
  · cases hidx
    exact ⟨_, .inr (.inl rfl), hrpts hgone⟩
  · cases hidx
    exact ⟨_, .inr (.inr rfl), hrpts hgone⟩
  · exact hgone.elim

/-! ### Runs -/

section Run

variable (env schedule)

/-- The event was one that the manager waited for. -/
def Handled (n : ℕ) : Prop :=
  ∃ m', (uploadManager env).step ((uploadManager env).run schedule n) (schedule n) = some m'

/-- A response has shown this revision of the target. -/
def ShownBefore (n : ℕ) (name revision : String) : Prop :=
  ∃ l < n, Handled env schedule l ∧
    ((uploadManager env).run schedule l).ShowsConflict env (schedule l).2 name revision

/-- The user has confirmed this revision of the target, which had been shown. -/
def ConfirmedBefore (n : ℕ) (name revision : String) : Prop :=
  ∃ l < n, Handled env schedule l ∧
    ((uploadManager env).run schedule l).ConfirmsConflict (schedule l).2 name revision ∧
    ShownBefore env schedule l name revision

/-- A response has said that nothing came of the session that an uploader had then. -/
def GivenUpBefore (n : ℕ) (id : String) : Prop :=
  ∃ l < n, Handled env schedule l ∧ ∃ i u,
    ((uploadManager env).run schedule l).uploaders i = some u ∧ u.uploadId = id ∧
    (schedule l).2.GivesUp i id

end Run

lemma Trusted.mono {shown' confirmed' : String → String → Prop} {gone' : String → Prop}
    (h : Trusted shown confirmed gone m) (hshown : ∀ name r, shown name r → shown' name r)
    (hconf : ∀ name r, confirmed name r → confirmed' name r)
    (hgone : ∀ id, gone id → gone' id) : Trusted shown' confirmed' gone' m where
  indexed := h.indexed
  revision i u hu r hr := hconf _ _ (h.revision i u hu r hr)
  choice i u hu r staged haw := hshown _ _ (h.choice i u hu r staged haw)
  sent request hreq := by
    obtain ⟨u, hu, hid, how⟩ := h.sent request hreq
    refine ⟨u, hu, hid.imp id (hgone _), fun hreplaces => ?_⟩
    obtain ⟨r, hr, hcfm⟩ := how hreplaces
    exact ⟨r, hr, hconf _ _ hcfm⟩
  jobs job hjob := by
    have halw := h.jobs job hjob
    unfold SelectionJob.Allows at halw ⊢
    split
    · trivial
    · trivial
    · next hstg =>
      rw [hstg] at halw
      exact ⟨halw.1, fun conflict hcon r hr => hshown _ _ (halw.2 conflict hcon r hr)⟩
    · next hstg =>
      rw [hstg] at halw
      exact fun entry hent r hr => hconf _ _ (halw entry hent r hr)

/-- What is confirmed in a dialog was shown. -/
lemma Trusted.shown_of_confirms (h : Trusted shown confirmed gone m)
    (hconf : m.ConfirmsConflict event name r) : shown name r := by
  unfold Manager.ConfirmsConflict at hconf
  split at hconf
  · obtain ⟨-, job, rest, accepted, uploadEntries, conflicts, hjobs, hstg, conflict, hcon,
      rfl, hr⟩ := hconf
    have halw := h.jobs job (hjobs ▸ mem_cons_self)
    unfold SelectionJob.Allows at halw
    rw [hstg] at halw
    exact halw.2 conflict hcon r hr
  · obtain ⟨i, u, -, hu, rfl, v, hv, hchoice⟩ := hconf
    cases hu.symm.trans hv
    split at hchoice
    · obtain ⟨-, staged, haw⟩ := hchoice
      exact h.choice i u hu r staged haw
    · exact hchoice.elim

lemma trusted_init : Trusted shown confirmed gone createUploadManager where
  indexed _ u hu := nomatch (hu : (none : Option Uploader) = some u)
  revision _ u hu := nomatch (hu : (none : Option Uploader) = some u)
  choice _ u hu := nomatch (hu : (none : Option Uploader) = some u)
  sent _ hreq := absurd hreq not_mem_nil
  jobs _ hjob := absurd hjob not_mem_nil

theorem trusted_run (env : UploadEnvironment) (schedule : ℕ → ℕ × ManagerEvent) (n : ℕ) :
    Trusted (ShownBefore env schedule n) (ConfirmedBefore env schedule n)
      (GivenUpBefore env schedule n) ((uploadManager env).run schedule n) := by
  induction n with
  | zero => exact trusted_init
  | succ n ih =>
    have hlt : ∀ {l}, l < n → l < n + 1 := fun hl => hl.trans (lt_succ_self n)
    have hlater : Trusted (ShownBefore env schedule (n + 1)) (ConfirmedBefore env schedule (n + 1))
        (GivenUpBefore env schedule (n + 1)) ((uploadManager env).run schedule n) :=
      ih.mono (fun _ _ ⟨l, hl, hshown⟩ => ⟨l, hlt hl, hshown⟩)
        (fun _ _ ⟨l, hl, hconf⟩ => ⟨l, hlt hl, hconf⟩)
        (fun _ ⟨l, hl, hgone⟩ => ⟨l, hlt hl, hgone⟩)
    refine Transition.Machine.exec_cases hlater fun m' hstep => ?_
    have hhandled : Handled env schedule n := ⟨m', hstep⟩
    refine hlater.step (fun name r hshows => ?_) (fun name r hconfirms => ?_)
      (fun i u hidx hu hgone => ?_) hstep
    · exact ⟨n, lt_succ_self n, hhandled, hshows⟩
    · exact ⟨n, lt_succ_self n, hhandled, hconfirms, ih.shown_of_confirms hconfirms⟩
    · exact ⟨n, lt_succ_self n, hhandled, i, u, hu, rfl, givesUp_of_reportsGone hidx hu hgone⟩

/-! ### The history of an uploader -/

/-- A property of the sessions is kept by every event but those of an uploader, which have to be
looked at. -/
lemma run_succ_of_selects {P : Manager → Prop}
    (h : Selects env (fun _ _ => True) (fun _ _ => True) P)
    (hm : P ((uploadManager env).run schedule n))
    (hhdl : ∀ i u m', eventIndex (schedule n).2 = some i →
      ((uploadManager env).run schedule n).uploaders i = some u →
      ((uploadManager env).run schedule n).uploaderStep env (schedule n).1 i u.awaiting
        (schedule n).2 = some m' → P m') :
    P ((uploadManager env).run schedule (n + 1)) := by
  have hjobs := ((trusted_run env schedule n).mono (fun _ _ _ => trivial) (fun _ _ _ => trivial)
    fun _ h => h).jobs
  refine Transition.Machine.exec_cases hm fun m' hstep => ?_
  exact h.step hm hjobs (fun _ _ _ => trivial) (fun _ _ _ => trivial)
    (fun i u hidx hu hstep => hhdl i u m' hidx hu hstep) hstep

/-- A request that was sent is not forgotten. -/
lemma ofSessions_sent (req : SentRequest) : OfSessions fun m => req ∈ m.sent where
  modify _ h := h
  send _ h := mem_append_left _ h
  congr h _ hsent _ _ := hsent ▸ h

lemma mem_sent_succ (h : req ∈ ((uploadManager env).run schedule n).sent) :
    req ∈ ((uploadManager env).run schedule (n + 1)).sent := by
  refine run_succ_of_selects (P := fun m => req ∈ m.sent)
    { ofSessions_sent req with relist := fun _ h => h, create := fun _ h => h } h ?_
  intro i u m' _ hu hstep
  refine Handles.uploaderStep (OfSessions.handles (ofSessions_sent req)
    (ofSessions_sent req) ?_ ?_ ?_ ?_ ?_) h hu hstep
  all_goals intros; assumption

lemma mem_sent_of_le {k : ℕ} (hle : n ≤ k) (h : req ∈ ((uploadManager env).run schedule n).sent) :
    req ∈ ((uploadManager env).run schedule k).sent := by
  induction k, hle using le_induction with
  | base => exact h
  | succ k _ ih => exact mem_sent_succ ih

/-- An uploader that exists is not created again. -/
lemma selects_belongs :
    Selects env shown confirmed fun m => m.Belongs i name id ∧ i < m.nextIndex where
  toOfSessions := ofSessions_belongs.and
    ⟨fun _ h => h, fun _ h => h, fun h _ _ _ hnext => hnext ▸ h⟩
  relist _ h := h
  create := by
    intro m batchId entry _ h
    refine ⟨fun u hu => h.1 u ?_, h.2.trans (lt_succ_self _)⟩
    simpa only [createUploader, update_of_ne h.2.ne] using hu

/-- An uploader keeps its session unless a response has given it up. -/
lemma uploadId_of_not_givesUp {u' : Uploader}
    (hu : ((uploadManager env).run schedule n).uploaders i = some u)
    (hu' : ((uploadManager env).run schedule (n + 1)).uploaders i = some u')
    (hnot : ¬ (schedule n).2.GivesUp i u.uploadId) : u'.uploadId = u.uploadId := by
  have hbelongs : ((uploadManager env).run schedule n).Belongs i u.name u.uploadId := by
    intro v hv
    cases hu.symm.trans hv
    exact ⟨rfl, rfl⟩
  have hst := And.intro hbelongs ((trusted_run env schedule n).indexed i u hu)
  have hsel : Selects env (fun _ _ => True) (fun _ _ => True) fun m =>
      m.Belongs i u.name u.uploadId ∧ i < m.nextIndex := selects_belongs
  have hend := run_succ_of_selects hsel hst ?_
  · exact (hend.1 u' hu').2
  · intro j v m' hidx hv hstep
    refine Handles.uploaderStep (OfSessions.handles hsel.toOfSessions hsel.toOfSessions
      ?_ ?_ ?_ (fun h => h) ?_) hst hv hstep
    · exact fun _ h => ⟨h.1.modify (fun _ => rfl) fun _ => rfl, h.2⟩
    · exact fun _ h => ⟨h.1.modify (fun _ => rfl) fun _ => rfl, h.2⟩
    · exact fun h => ⟨h.1.modify (fun _ => rfl) fun _ => rfl, h.2⟩
    · intro m hgone h
      have hne : i ≠ j := by
        rintro rfl
        cases hu.symm.trans hv
        exact hnot (givesUp_of_reportsGone hidx hu hgone)
      refine ⟨fun w hw => h.1 w ?_, h.2⟩
      unfold restartSession at hw
      rwa [uploaders_modify_of_ne hne] at hw

/-! ### Publications -/

/-- A file that the server has published: the session, and the version that was replaced. -/
structure Publication where
  uploadId : String
  replaced : Option String
  deriving DecidableEq

/-- The server publishes what a request has asked for, and replaces only the version that the
request names; it publishes a session once, and none of which it says that nothing came of it. -/
structure HonestServer (env : UploadEnvironment) (schedule : ℕ → ℕ × ManagerEvent)
    (published : ℕ → Option Publication) : Prop where
  requested : ∀ t p, published t = some p →
    ∃ request ∈ ((uploadManager env).run schedule t).sent, request.uploadId = p.uploadId ∧
      ∀ version ∈ p.replaced, request.overwrite = true ∧ request.targetRevision = some version
  once : ∀ t t' p p', published t = some p → published t' = some p' → p.uploadId = p'.uploadId →
    t = t'
  truthful : ∀ n t p, published t = some p → ¬ GivenUpBefore env schedule n p.uploadId

/-- The publication is one of this uploader. -/
def PublishedBy (env : UploadEnvironment) (schedule : ℕ → ℕ × ManagerEvent)
    (published : ℕ → Option Publication) (i t : ℕ) : Prop :=
  ∃ p, published t = some p ∧ ∃ request ∈ ((uploadManager env).run schedule t).sent,
    request.index = i ∧ request.uploadId = p.uploadId

lemma publishedBy_le {published : ℕ → Option Publication} (h : HonestServer env schedule published)
    {t' : ℕ} (hle : t ≤ t') (ht : PublishedBy env schedule published i t)
    (ht' : PublishedBy env schedule published i t') : t = t' := by
  obtain ⟨p, hp, request, hreq, hidx, hid⟩ := ht
  obtain ⟨p', hp', request', hreq', hidx', hid'⟩ := ht'
  -- both requests are for the session that the uploader has at the later time
  have htrst := trusted_run env schedule t'
  obtain ⟨u, hu, hses, -⟩ := htrst.sent request (mem_sent_of_le hle hreq)
  obtain ⟨u', hu', hses', -⟩ := htrst.sent request' hreq'
  rw [hidx] at hu
  rw [hidx'] at hu'
  cases hu.symm.trans hu'
  have hcurr := hses.resolve_right (hid ▸ h.truthful t' t p hp)
  have hcurr' := hses'.resolve_right (hid' ▸ h.truthful t' t' p' hp')
  exact h.once t t' p p' hp hp' (hid.symm.trans (hcurr.trans (hcurr'.symm.trans hid')))

/-- An uploader gives up its session only when nothing came of it, asks to replace only what the
user has confirmed, and so, with an honest server, publishes once and replaces nothing else. -/
theorem upload_sessions_safe (env : UploadEnvironment) (schedule : ℕ → ℕ × ManagerEvent) :
    (∀ n i u u', ((uploadManager env).run schedule n).uploaders i = some u →
      ((uploadManager env).run schedule (n + 1)).uploaders i = some u' →
      u'.uploadId ≠ u.uploadId → (schedule n).2.GivesUp i u.uploadId) ∧
    (∀ n, ∀ request ∈ ((uploadManager env).run schedule n).sent, request.overwrite = true →
      ∃ u revision, ((uploadManager env).run schedule n).uploaders request.index = some u ∧
        request.targetRevision = some revision ∧
        ConfirmedBefore env schedule n u.name revision) ∧
    ∀ published, HonestServer env schedule published →
      (∀ i t t', PublishedBy env schedule published i t → PublishedBy env schedule published i t' →
        t = t') ∧ ∀ t p version, published t = some p → p.replaced = some version →
        ∃ request ∈ ((uploadManager env).run schedule t).sent, request.uploadId = p.uploadId ∧
        ∃ u, ((uploadManager env).run schedule t).uploaders request.index = some u ∧
          ConfirmedBefore env schedule t u.name version := by
  refine ⟨?_, ?_, fun published hhonest => ⟨?_, ?_⟩⟩
  · intro n i u u' hu hu' hne
    by_contra hnot
    exact hne (uploadId_of_not_givesUp hu hu' hnot)
  · intro n request hrequest hoverwrite
    obtain ⟨u, hu, -, hconfirmed⟩ := (trusted_run env schedule n).sent request hrequest
    obtain ⟨revision, hrevision, hconfirmed⟩ := hconfirmed hoverwrite
    exact ⟨u, revision, hu, hrevision, hconfirmed⟩
  · intro i t t' ht ht'
    rcases le_total t t' with hle | hle
    · exact publishedBy_le hhonest hle ht ht'
    · exact (publishedBy_le hhonest hle ht' ht).symm
  · intro t p version hp hreplaced
    obtain ⟨request, hrequest, hid, hversion⟩ := hhonest.requested t p hp
    obtain ⟨hoverwrite, htarget⟩ := hversion version hreplaced
    obtain ⟨u, hu, -, hconfirmed⟩ := (trusted_run env schedule t).sent request hrequest
    obtain ⟨revision, hrevision, hconfirmed⟩ := hconfirmed hoverwrite
    cases htarget.symm.trans hrevision
    exact ⟨request, hrequest, hid, u, hu, hconfirmed⟩

section Replacement

/-- A page that uploads one file at a time. -/
def plainPage : UploadEnvironment where
  maxConcurrentUploads := 1
  maxTerminalRows := 8
  randomUUID n := if n = 0 then "first" else "later"
  logicalChildPath name := name
  dispatches _ := true

def someRevision : String := "0000000000000000000000000000000000000000000000000000000000000000"

/-- The user selects a file that exists and confirms that it is replaced. -/
def confirmedReplacement : ℕ → ℕ × ManagerEvent
  | 0 => (0, .addFiles [⟨"notes", 1⟩])
  | 1 => (0, .beginSelection)
  | 2 => (0, .preflightReply [⟨"notes", true, some someRevision, true⟩])
  | 3 => (0, .chooseBatch .confirm)
  | _ => (0, .continueBatch)

/-- The file is published when the request has arrived. -/
def replacedOnce (t : ℕ) : Option Publication :=
  if t = 4 then some ⟨"first", some someRevision⟩ else none

lemma replacedOnce_cases {p : Publication} (h : replacedOnce t = some p) :
    t = 4 ∧ p = ⟨"first", some someRevision⟩ := by
  unfold replacedOnce at h
  split at h
  case isTrue ht => exact ⟨ht, (Option.some.inj h).symm⟩
  case isFalse => cases h

lemma not_givesUp_confirmedReplacement (l i : ℕ) (id : String) :
    ¬ (confirmedReplacement l).2.GivesUp i id := by
  rintro ⟨response, hev, -⟩
  unfold confirmedReplacement at hev
  split at hev <;> simp at hev

lemma honest_replacedOnce : HonestServer plainPage confirmedReplacement replacedOnce where
  requested := by
    intro t p hp
    obtain ⟨rfl, rfl⟩ := replacedOnce_cases hp
    refine ⟨_, mem_singleton_self _, rfl, ?_⟩
    rintro version ⟨⟩
    exact ⟨rfl, rfl⟩
  once := by
    intro t t' p p' hp hp' _
    rw [(replacedOnce_cases hp).1, (replacedOnce_cases hp').1]
  truthful := by
    rintro n t p - ⟨l, -, -, i, u, -, -, hgv⟩
    exact not_givesUp_confirmedReplacement l i p.uploadId hgv

end Replacement

/-- A confirmed replacement is published, and its version is the confirmed one. -/
theorem upload_sessions_safe_replacement :
    HonestServer plainPage confirmedReplacement replacedOnce ∧
    ∃ request ∈ ((uploadManager plainPage).run confirmedReplacement 4).sent,
      request.uploadId = "first" ∧
      ∃ u, ((uploadManager plainPage).run confirmedReplacement 4).uploaders request.index = some u ∧
        ConfirmedBefore plainPage confirmedReplacement 4 u.name someRevision :=
  ⟨honest_replacedOnce, ((upload_sessions_safe plainPage confirmedReplacement).2.2 replacedOnce
      honest_replacedOnce).2 4 ⟨"first", some someRevision⟩ someRevision rfl rfl⟩

end DufsRam.Client
