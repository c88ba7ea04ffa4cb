import DufsRam.Upload.System
import Mathlib.Data.List.Infix

/-!
# Offsets and contents

What the row and the responses say of the progress of an upload is on the disk, and what is
published is what the client meant to upload, however the upload was interrupted.
-/

namespace DufsRam

open Crash Session UploadSystem UploadRun DurableFile

variable {site : Site} {r : UploadRequest} {s s' : Session} {data : List UInt8}

/-! ### Offsets -/

/-- The first bytes of the inode that the row names were written and synced. -/
def StoredUploadSession.OnDisk (row : StoredUploadSession)
    (inodes : StoredFileIdentity → Option Inode) (k : ℕ) : Prop :=
  k = 0 ∨ ∃ id n, row.stageIdentity = some id ∧ inodes id = some n ∧ k ≤ n.data.synced

lemma Session.RowOk.onDisk {row : StoredUploadSession} {k : ℕ} (h : RowOk site s.inodes row)
    (hk : k ≤ row.durableOffset) : row.OnDisk s.inodes k := by
  cases hid : row.stageIdentity with
  | none =>
    have hzero := h.unrecorded hid
    exact .inl (by omega)
  | some id =>
    obtain ⟨n, hn, hrel⟩ := h.recorded id hid
    exact .inr ⟨id, n, hid, hn, hk.trans hrel.durable⟩

/-! ### Contents -/

/-- What was staged without a gap is a first part of the data, and what was published is all of
it. -/
structure Session.Slices (data : List UInt8) (s : Session) : Prop where
  intact : ∀ id n, s.inodes id = some n → n.data.intactPart <+: data
  length : ∀ row, s.row = some row → row.uploadLength = data.length
  published : ∀ q ∈ s.published, q.inode.data.content = data

lemma Session.Slices.setInode {id : StoredFileIdentity} {n : Inode} (h : s.Slices data)
    (hn : n.data.intactPart <+: data) : (s.setInode id n).Slices data where
  intact i m hm := by
    by_cases hi : i = id
    · subst hi
      have heq : n = m := by simpa [Session.setInode] using hm
      exact heq ▸ hn
    · exact h.intact i m (by simpa [Session.setInode, hi] using hm)
  length := h.length
  published := h.published

/-- The body of the request is a slice of the data, from the offset it declares. -/
def UploadRequest.SliceOf (r : UploadRequest) (data : List UInt8) : Prop :=
  r.uploadLength = data.length ∧ r.bytes <+: data.drop r.initialOffset

/-- What such a request writes at a position is what the data has there. -/
lemma UploadRequest.SliceOf.sends {pos : ℕ} {bytes : List UInt8} (h : r.SliceOf data)
    (hsends : r.Sends pos bytes) : bytes <+: data.drop pos := by
  obtain ⟨hle, hbyt⟩ := hsends
  have hdrop := List.IsPrefix.drop h.2 (pos - r.initialOffset)
  rw [List.drop_drop, Nat.add_sub_cancel' hle] at hdrop
  exact hbyt.trans hdrop

lemma Session.Slices.step (hr : r.SliceOf data) (h : s.Slices data) (hstep : Step site r s s') :
    s'.Slices data := by
  cases hstep with
  | create id hstg hid =>
    have hnew : (s.setInode id (.create site.stageAttributes)).Slices data :=
      h.setInode List.nil_prefix
    exact ⟨hnew.intact, hnew.length, hnew.published⟩
  | write id n bytes hn hwhole hsends =>
    exact h.setInode <|
      intactPart_writeAt_end_prefix hwhole rfl (h.intact id n hn) (hr.sends hsends)
  | cut id n k hn =>
    exact h.setInode <| intactPart_resize_prefix.trans (h.intact id n hn)
  | sync id n hn | replay id n a hn => exact h.setInode (h.intact id n hn)
  | save p hnms =>
    refine ⟨h.intact, fun row hrow => ?_, h.published⟩
    cases hrow
    exact hnms.uploadLength.trans hr.1
  | remove => exact ⟨h.intact, nofun, h.published⟩
  | unlink | setback => exact ⟨h.intact, h.length, h.published⟩
  | publish row id n hrow _ _ _ hn hfull =>
    refine ⟨h.intact, h.length, fun q hq => ?_⟩
    rcases List.mem_append.1 hq with hq | hq
    · exact h.published q hq
    · -- the inode is intact as a whole and as long as the data
      cases List.mem_singleton.1 hq
      have hpre := h.intact id n hn
      rw [hfull.whole.intactPart_eq] at hpre
      exact hpre.eq_of_length (hfull.length_eq.trans (h.length row hrow))

lemma Session.Slices.restarted (h : s.Slices data) (tails : StoredFileIdentity → List UInt8) :
    (s.restarted tails).Slices data where
  intact id n hn := by
    obtain ⟨m, hm, rfl⟩ := Option.map_eq_some_iff.1 hn
    exact intactPart_crash_prefix.trans (h.intact id m hm)
  length row hrow := by
    obtain ⟨row', hrow', rfl⟩ := Option.map_eq_some_iff.1 hrow
    rw [recover_eq]
    exact h.length row' hrow'
  published := h.published

namespace UploadRun

variable {ρ : UploadRun site}

/-- Every request of the run sends a slice of the data. -/
def Sends (ρ : UploadRun site) (data : List UInt8) : Prop :=
  ∀ n r script, ρ.schedule n = .request r script → r.SliceOf data

lemma slices (h : ρ.Sends data) (n : ℕ) : (ρ.session n).Slices data := by
  refine (invariant (P := Slices data) ⟨nofun, fun row hrow => ?_, nofun⟩
    (fun n hinv hs hmv => ?_) n).2
  · cases session_zero.symm.trans hrow
  · exact (hmv.induct hinv hs ⟨hs.intact, hs.length, hs.published⟩
      (fun r script he _ _ _ hs hstep => hs.step (h n r script he) hstep) hs.restarted
      fun _ => ⟨hs.intact, nofun, hs.published⟩).2

end UploadRun

/-- In every run, what the row records of its stage is on the disk, and so is every offset that a
response tells, unless the response leaves the outcome open and repeats the offset of its request.
If all requests send slices of one string, only this string is published. -/
theorem offsets_durable_and_contents_exact (ρ : UploadRun site) :
    (∀ n row, (ρ.state n).world.row site = some row →
      row.OnDisk (ρ.state n).world.inodes row.durableOffset) ∧
    (∀ n, ∀ a ∈ (ρ.state n).log, ∀ k, a.response.Advertises k →
      (∃ row, a.world.row site = some row ∧ row.OnDisk a.world.inodes k) ∨
      (∃ r, a.request = some r ∧ r.mode.offset = some k) ∧
        (a.response.state = some .notStarted ∨ a.response.state = some .unknown)) ∧
    (∀ data, ρ.Sends data →
      ∀ n, ∀ q ∈ (ρ.state n).world.published, q.inode.data.content = data) := by
  refine ⟨fun n row hrow => ?_, fun n a ha k hk => ?_, fun data hdata n q hq => ?_⟩
  · exact ((inv n).row row hrow).onDisk (Nat.le_refl _)
  · obtain ⟨hhonest, m, hm⟩ := answered ha
    have hinv : (a.world.session site).Inv site := hm ▸ inv m
    have honDisk (h : (a.world.session site).Durable k) :
        ∃ row, a.world.row site = some row ∧ row.OnDisk a.world.inodes k := by
      obtain ⟨row, hrow, hle⟩ := h
      exact ⟨row, hrow, (hinv.row row hrow).onDisk hle⟩
    cases hrequest : a.request with
    | none =>
      -- an answer that is honest for every request repeats none of them
      rcases (hhonest smallPut (.inr hrequest)).offset k hk with h | ⟨h, -⟩
      · exact .inl (honDisk h)
      · cases h
    | some r =>
      rcases (hhonest r (.inl hrequest)).offset k hk with h | ⟨h, hstate⟩
      · exact .inl (honDisk h)
      · exact .inr ⟨⟨r, rfl, h⟩, hstate⟩
  · exact (slices hdata n).published q hq

/-- A fresh upload of one byte publishes that byte. -/
theorem offsets_durable_and_contents_exact_smooth :
    let ρ := smallRun none [.request smallPut (smoothly 60)]
    (ρ.state 1).world.published.length = 1 ∧
      ∀ q ∈ (ρ.state 1).world.published, q.inode.data.content = [7] := by
  refine ⟨by decide +kernel, (offsets_durable_and_contents_exact _).2.2 [7] ?_ 1⟩
  intro n r script he
  cases n with
  | zero => cases he; exact ⟨rfl, List.prefix_rfl⟩
  | succ n => cases he

/-- A request that resumes a session the server does not have, and is stopped by its deadline, is
answered with the offset it declared. -/
theorem offset_echoed_without_session :
    ∃ a ∈ ((smallRun none [.request ⟨.resume 4, 9, .noReplace, none, []⟩
        [{ no := true }, {}]]).state 1).log,
      a.response.Advertises 4 ∧ (a.world.row smallSite).isNone := by
  decide +kernel

end DufsRam
