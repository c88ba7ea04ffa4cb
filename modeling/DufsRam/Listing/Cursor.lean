import DufsRam.Lib.Encoding

/-!
# List cursors

A cursor names a snapshot and an offset into it, with a tag that only the holder of the snapshot's
secret can compute.
-/

namespace DufsRam.Listing

open List BigEndian

/-- The bytes of an ASCII literal. -/
def ascii (s : String) : List UInt8 := s.toList.map fun c => UInt8.ofNat c.toNat

/-- The hash function, and the sizes in memory that the weight of a snapshot counts. -/
structure Platform where
  sha256 : List UInt8 → ByteBlock 32
  recordBytes : ℕ
  itemBytes : ℕ
  itemBytes_pos : 0 < itemBytes

/-- `OwnerId::listing_snapshot`. -/
def listSnapshotOwner (P : Platform) (account : List UInt8) : ByteBlock 32 :=
  P.sha256 (ascii "dufs-list-snapshot-owner-v1\x00" ++ account)

def hmacSha256 (P : Platform) (key : List UInt8) (parts : List (List UInt8)) : ByteBlock 32 :=
  let short := if 64 < key.length then (P.sha256 key).1 else key
  let keyBlock := short ++ List.replicate (64 - short.length) 0
  let innerPad := keyBlock.map fun b => 0x36 ^^^ b
  let outerPad := keyBlock.map fun b => 0x5c ^^^ b
  P.sha256 (outerPad ++ (P.sha256 (innerPad ++ parts.flatten)).1)

def listCursorTag (P : Platform) (secret id : ByteBlock 32) (offset : ℕ) : ByteBlock 16 :=
  let digest := hmacSha256 P secret.1
    [ascii "dufs-list-cursor-v3\x00", id.1, BigEndian.bytes 8 offset]
  ⟨digest.1.take 16, by rw [List.length_take, digest.2]; rfl⟩

/-- The 57 bytes of a cursor. -/
def cursorBytes (id : ByteBlock 32) (offset : ℕ) (tag : ByteBlock 16) : List UInt8 :=
  3 :: (id.1 ++ (BigEndian.bytes 8 offset ++ tag.1))

def encodeListCursor (P : Platform) (id secret : ByteBlock 32) (offset : ℕ) : List UInt8 :=
  Base64.encode (cursorBytes id offset (listCursorTag P secret id offset))

structure DecodedListCursor where
  id : ByteBlock 32
  offset : ℕ
  tag : ByteBlock 16
  deriving DecidableEq

def decodeListCursor (value : List UInt8) : Except String DecodedListCursor :=
  if value.length ≠ 76 then .error "invalid list cursor length"
  else match Base64.decode value with
    | none => .error "invalid list cursor encoding"
    | some bytes =>
      if h : bytes.length = 57 ∧ bytes.head? = some 3 then
        if Base64.encode bytes ≠ value then .error "non-canonical list cursor encoding"
        else .ok {
          id := ⟨(bytes.drop 1).take 32, by rw [List.length_take, List.length_drop, h.1]; rfl⟩
          offset := BigEndian.number ((bytes.drop 33).take 8)
          tag := ⟨bytes.drop 41, by rw [List.length_drop, h.1]⟩ }
      else .error "unsupported list cursor version"

lemma length_cursorBytes (id : ByteBlock 32) (off : ℕ) (tag : ByteBlock 16) :
    (cursorBytes id off tag).length = 57 := by
  simp only [cursorBytes, length_cons, length_append, length_bytes, id.2, tag.2]

/-- A cursor that the server has issued is read back as it was written. -/
theorem decodeListCursor_encodeListCursor (P : Platform) (id secret : ByteBlock 32) {offset : ℕ}
    (hoff : offset < 2 ^ 64) : decodeListCursor (encodeListCursor P id secret offset) =
      .ok ⟨id, offset, listCursorTag P secret id offset⟩ := by
  set tag := listCursorTag P secret id offset with htag
  have hlen : (encodeListCursor P id secret offset).length = 76 := by
    rw [encodeListCursor, Base64.length_encode, length_cursorBytes]
  have hid : ((cursorBytes id offset tag).drop 1).take 32 = id.1 := by
    rw [cursorBytes, drop_one, tail_cons, take_left' id.2]
  have hbyt : ((cursorBytes id offset tag).drop 33).take 8 = bytes 8 offset := by
    rw [cursorBytes, drop_succ_cons, drop_left' id.2, take_left' (length_bytes 8 offset)]
  have hrest : (cursorBytes id offset tag).drop 41 = tag.1 := by
    rw [cursorBytes, ← append_assoc, drop_succ_cons]
    refine drop_left' ?_
    rw [length_append, id.2, length_bytes]
  have hnum : number (bytes 8 offset) = offset := by
    rw [number_bytes]
    exact Nat.mod_eq_of_lt hoff
  have hwell : (cursorBytes id offset tag).length = 57 ∧
      (cursorBytes id offset tag).head? = some 3 := ⟨length_cursorBytes id offset tag, rfl⟩
  unfold decodeListCursor
  rw [if_neg (not_not.mpr hlen), encodeListCursor, ← htag, Base64.decode_encode]
  dsimp only
  rw [dif_pos hwell, if_neg (not_not.mpr rfl)]
  simp only [hid, hbyt, hrest, hnum]

/-- A text that is accepted is the one text of what it is read as. -/
lemma eq_encode_of_decodeListCursor {value : List UInt8} {cur : DecodedListCursor}
    (h : decodeListCursor value = .ok cur) :
    value = Base64.encode (cursorBytes cur.id cur.offset cur.tag) := by
  unfold decodeListCursor at h
  split_ifs at h
  split at h
  · cases h
  · next bytes hbyt =>
    split_ifs at h with hwell hcan
    cases h
    obtain ⟨hlen, hver⟩ := hwell
    rw [← not_not.mp hcan, cursorBytes]
    cases bytes with
    | nil => cases hlen
    | cons version rest =>
      cases hver
      have hoff := bytes_number ((rest.drop 32).take 8)
      rw [length_take, length_drop, Nat.succ.inj hlen] at hoff
      have hrest : rest.drop 40 = (rest.drop 32).drop 8 := by rw [drop_drop]
      simp only [drop_succ_cons, drop_zero]
      rw [show bytes 8 _ = _ from hoff, hrest, take_append_drop, take_append_drop]

end DufsRam.Listing
