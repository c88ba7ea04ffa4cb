import DufsRam.StateStore.UploadStep
import DufsRam.StateStore.PurgeStep

/-!
# The tables stay within their capacity

No edit of a command takes a table over its capacity, nor an owner over its share.
-/

namespace DufsRam

open Relational Result Table

/-! ### Edits of a table -/

section Edits

variable {ρ υ : Type} [DecidableEq υ] {S : Schema ρ StoreKey υ}

/-- The table has no more rows than its capacity, nor an owner more than its share. -/
def Bounded (capacity perOwner : ℕ) (T : Table S) : Prop :=
  T.count (fun _ => true) ≤ capacity ∧ ∀ owner, T.count (ofOwner S owner) ≤ perOwner

variable {capacity perOwner : ℕ} {T T' : Table S}

omit [DecidableEq υ] in
lemma bounded_empty : Bounded capacity perOwner (empty : Table S) :=
  ⟨Nat.zero_le _, fun _ => Nat.zero_le _⟩

lemma Edits.bounded (h : Edits capacity perOwner T T') (hT : Bounded capacity perOwner T) :
    Bounded capacity perOwner T' := by
  induction h with
  | refl => exact hT
  | delete p h ih =>
    exact ⟨(count_delete_le _ _ _).trans ih.1,
      fun owner => (count_delete_le _ _ _).trans (ih.2 owner)⟩
  | update h hupd hkey ih =>
    refine ⟨(count_update hupd fun _ => rfl).trans_le ih.1, fun owner => ?_⟩
    exact (count_update hupd fun r => by simp only [ofOwner, hkey]).trans_le (ih.2 owner)
  | @insert T' T'' r h hins hroom ih =>
    push Not at hroom
    refine ⟨?_, fun owner => ?_⟩
    · rw [count_insert hins, if_pos rfl]
      exact hroom.1
    · rw [count_insert hins]
      by_cases hown : (S.key r).owner = owner
      · subst hown
        rw [if_pos (by simp [ofOwner])]
        exact hroom.2
      · simpa [ofOwner, hown] using ih.2 owner

end Edits

lemma recoverOperations_edits {lim : Limits} {now exp : TimeMs} {T T' : Table operationSchema}
    (h : recoverOperations now exp T = .ok T') : Edits lim.capacity lim.perOwner T T' := by
  obtain ⟨T₁, hfin, hclamp⟩ := bind_eq_ok_iff.1 h
  exact .update (.update (.delete _ (.delete _ (.refl _))) (constrained_eq_ok_iff.1 hfin)
    fun _ => rfl) (constrained_eq_ok_iff.1 hclamp) fun _ => rfl

/-! ### Events -/

/-- Every table is within its capacity. -/
structure Database.Bounded (limits : Limits) (db : Database) : Prop where
  operations : DufsRam.Bounded limits.capacity limits.perOwner db.operations
  uploadSessions : DufsRam.Bounded limits.uploadCapacity limits.uploadPerOwner db.uploadSessions
  purgeJobs : DufsRam.Bounded limits.purgeCapacity limits.purgePerOwner db.purgeJobs

lemma Database.Bounded.recover {limits : Limits} {operationTtlMs uploadTtlMs now : TimeMs}
    {db db' : Database} (h : db.Bounded limits)
    (hrcvr : recoverDatabase operationTtlMs uploadTtlMs now db = .ok db') : db'.Bounded limits := by
  obtain ⟨_, _, -, -, hops, hupl, hprg⟩ := recoverDatabase_eq_ok_iff.1 hrcvr
  obtain ⟨T, hunk, hclamp⟩ := bind_eq_ok_iff.1 hupl
  obtain ⟨T', hrdy, hdue⟩ := bind_eq_ok_iff.1 hprg
  exact {
    operations := (recoverOperations_edits hops).bounded h.operations
    uploadSessions :=
      Edits.bounded (.update (.update (.refl _) (constrained_eq_ok_iff.1 hunk) fun _ => rfl)
        (constrained_eq_ok_iff.1 hclamp) fun _ => rfl) h.uploadSessions
    purgeJobs :=
      Edits.bounded (.update (.update (.refl _) (constrained_eq_ok_iff.1 hrdy) fun _ => rfl)
        (constrained_eq_ok_iff.1 hdue) fun _ => rfl) h.purgeJobs }

lemma StoreEvent.exec_bounded {limits : Limits} {db : Database} (e : StoreEvent)
    (h : db.Bounded limits) : (e.exec limits db).2.Bounded limits := by
  have hdoes := e.exec_does limits db
  generalize e.exec limits db = result at hdoes ⊢
  cases hdoes with
  | failed => exact h
  | restarted _ hrcvr => exact h.recover hrcvr
  | operation _ hne =>
    obtain ⟨T, hdb, hedits⟩ := OperationEvent.exec_writes (e := ⟨e.now, _⟩) hne
    rw [hdb]
    exact ⟨hedits.bounded h.operations, h.uploadSessions, h.purgeJobs⟩
  | upload _ hres =>
    obtain ⟨T, hdb, hedits⟩ := UploadCommand.exec_writes _ hres
    rw [hdb]
    exact ⟨h.operations, hedits.bounded h.uploadSessions, h.purgeJobs⟩
  | purge _ hres =>
    obtain ⟨T, hdb, hedits⟩ := PurgeCommand.exec_writes _ hres
    rw [hdb]
    exact ⟨h.operations, h.uploadSessions, hedits.bounded h.purgeJobs⟩

lemma StoreRun.bounded (R : StoreRun) (n : ℕ) : (R.db n).Bounded R.limits :=
  R.db_invariant ⟨bounded_empty, bounded_empty, bounded_empty⟩
    (fun n h => (R.events n).exec_bounded h) n

end DufsRam
