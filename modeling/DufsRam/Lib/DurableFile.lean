import Mathlib.Data.List.Basic
import Mathlib.Data.Nat.Basic
import Mathlib.Order.MinMax

/-!
# Files with a durable part

A file is a list of elements of which a first part is intact, that is, was written in order from
the start, and of which a first part of that is synced. A crash keeps the synced part and may leave
anything behind it, unless nothing has changed since the file was synced.
-/

/-- A file: its elements, how many of them are intact, how many of those are synced, and whether
it is unchanged since the last sync. -/
structure DurableFile (β : Type*) where
  content : List β
  intact : ℕ
  synced : ℕ
  clean : Bool
  synced_le : synced ≤ intact
  intact_le : intact ≤ content.length
  deriving DecidableEq

namespace DurableFile

open List

variable {β : Type*} {f : DurableFile β} {zero : β} {pos k : ℕ} {bytes tail data : List β}

/-- The part of the file that was written in order. -/
def intactPart (f : DurableFile β) : List β := f.content.take f.intact

/-- Every element is intact. -/
def Whole (f : DurableFile β) : Prop := f.intact = f.content.length

instance (f : DurableFile β) : Decidable f.Whole := inferInstanceAs (Decidable (_ = _))

def empty : DurableFile β := ⟨[], 0, 0, false, Nat.le_refl _, Nat.le_refl _⟩

/-- Cut a list to a length or fill it up to that length. -/
def padTo (zero : β) (k : ℕ) (l : List β) : List β := l.take k ++ List.replicate (k - l.length) zero

@[simp] lemma length_padTo (l : List β) : (padTo zero k l).length = k := by
  simp only [padTo, length_append, length_take, length_replicate]
  omega

/-- Change the length, filling up with zeros. -/
def resize (zero : β) (k : ℕ) (f : DurableFile β) : DurableFile β where
  content := padTo zero k f.content
  intact := min f.intact k
  synced := min f.synced k
  clean := false
  synced_le := min_le_min_right k f.synced_le
  intact_le := by simp

/-- Write some elements at a position; elements that are overwritten are no longer synced. -/
def overwrite (zero : β) (pos : ℕ) (bytes : List β) (f : DurableFile β) : DurableFile β where
  content := padTo zero pos f.content ++ (bytes ++ f.content.drop (pos + bytes.length))
  intact := if pos ≤ f.intact then pos + bytes.length else f.intact
  synced := min f.synced pos
  clean := false
  synced_le := by
    have := f.synced_le
    split <;> omega
  intact_le := by
    have := f.intact_le
    simp only [List.length_append, length_padTo, List.length_drop]
    split <;> omega

/-- Write at a position. Writing nothing does nothing, wherever the position is. -/
def writeAt (zero : β) (pos : ℕ) (bytes : List β) (f : DurableFile β) : DurableFile β :=
  if bytes.isEmpty then f else f.overwrite zero pos bytes

/-- Everything intact reaches the disk. -/
def sync (f : DurableFile β) : DurableFile β :=
  { f with synced := f.intact, clean := true, synced_le := Nat.le_refl _ }

/-- What is left of a file whose last changes may be lost: the synced part and an arbitrary rest. -/
def tear (tail : List β) (f : DurableFile β) : DurableFile β where
  content := f.content.take f.synced ++ tail
  intact := f.synced
  synced := f.synced
  clean := true
  synced_le := Nat.le_refl _
  intact_le := by
    have := f.synced_le
    have := f.intact_le
    simp only [List.length_append, List.length_take]
    omega

/-- What a crash leaves. -/
def crash (tail : List β) (f : DurableFile β) : DurableFile β := if f.clean then f else f.tear tail

@[simp] lemma synced_crash : (f.crash tail).synced = f.synced := by
  unfold crash
  split <;> rfl

lemma crash_of_clean (h : f.clean = true) : f.crash tail = f := if_pos h

lemma Whole.intactPart_eq (h : f.Whole) : f.intactPart = f.content := by
  rw [intactPart, h, take_length]

/-! ### Cutting within the intact part -/

lemma whole_resize (hk : k ≤ f.intact) : (f.resize zero k).Whole := by
  simp [Whole, resize, hk]

lemma intactPart_resize_prefix : (f.resize zero k).intactPart <+: f.intactPart := by
  have hle : min f.intact k ≤ f.content.length := (min_le_left _ _).trans f.intact_le
  simp only [intactPart, resize, padTo]
  rw [take_append_of_le_length (by simp only [length_take]; omega), take_take,
    min_eq_left (min_le_right _ _)]
  exact take_prefix_take_left (min_le_left _ _)

/-! ### Writing at the end of a whole file -/

lemma content_writeAt_end (hpos : f.content.length = pos) :
    (f.writeAt zero pos bytes).content = f.content ++ bytes := by
  subst hpos
  cases bytes <;> simp [writeAt, overwrite, padTo]

lemma whole_writeAt_end (h : f.Whole) (hpos : f.content.length = pos) :
    (f.writeAt zero pos bytes).Whole := by
  rw [Whole, content_writeAt_end hpos, length_append]
  have hint : f.intact = f.content.length := h
  cases bytes <;> simp [writeAt, overwrite, ← hpos, hint]

lemma synced_writeAt_end (hpos : f.content.length = pos) :
    (f.writeAt zero pos bytes).synced = f.synced := by
  have := f.synced_le
  have := f.intact_le
  cases bytes with
  | nil => simp [writeAt]
  | cons b bs =>
    simp only [writeAt, overwrite, isEmpty_cons]
    simp only [Bool.false_eq_true, ↓reduceIte]
    omega

/-! ### The intact part as a prefix of the intended contents -/

lemma intactPart_tear_prefix : (f.tear tail).intactPart <+: f.intactPart := by
  have hle := f.synced_le.trans f.intact_le
  simp only [intactPart, tear]
  rw [take_append_of_le_length (by simp [hle]), take_take, min_self]
  exact take_prefix_take_left f.synced_le

lemma intactPart_crash_prefix : (f.crash tail).intactPart <+: f.intactPart := by
  unfold crash
  split
  · exact prefix_rfl
  · exact intactPart_tear_prefix

/-- A whole file stays a prefix of the data when the data that belongs next is appended. -/
lemma intactPart_writeAt_end_prefix (hwhole : f.Whole) (hpos : f.content.length = pos)
    (h : f.intactPart <+: data) (hbyt : bytes <+: data.drop pos) :
    (f.writeAt zero pos bytes).intactPart <+: data := by
  rw [(whole_writeAt_end hwhole hpos).intactPart_eq, content_writeAt_end hpos]
  rw [hwhole.intactPart_eq] at h
  obtain ⟨rest, rfl⟩ := h
  rw [← hpos, drop_left] at hbyt
  exact (prefix_append_right_inj _).2 hbyt

end DurableFile
