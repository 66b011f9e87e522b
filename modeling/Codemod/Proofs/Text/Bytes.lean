/-
Places in a text as offsets in its bytes: the offset of a place is a boundary between two characters
(`isValid_offset`), and the bytes between two offsets are those of the characters between the places
(`extract_offset`).
-/
import Codemod.Proofs.Text.Cursor

namespace Codemod.Text

theorem toNat_le (c : Char) : c.toNat ≤ 0x10FFFF := by
  rcases c.valid with h | ⟨-, h⟩
  · exact Nat.le_trans (Nat.le_of_lt h) (by decide)
  · exact Nat.le_of_lt_succ h

@[simp] theorem size_utf8Encode (cs : List Char) : cs.utf8Encode.size = byteCount cs := by
  induction cs with
  | nil => simp
  | cons c cs ih =>
    rw [List.utf8Encode_cons, ByteArray.size_append, ih, List.utf8Encode_singleton, byteCount_cons,
      List.size_toByteArray, String.length_utf8EncodeChar]

theorem toUTF8_eq (s : String) : s.toUTF8 = s.toList.utf8Encode := by
  rw [String.toUTF8_eq_toByteArray, String.utf8Encode_toList]

theorem toUTF8_ofList (cs : List Char) : (String.ofList cs).toUTF8 = cs.utf8Encode := by
  rw [String.toUTF8_eq_toByteArray, String.toByteArray_ofList]

theorem utf8ByteSize_eq (s : String) : s.utf8ByteSize = byteCount s.toList := by
  rw [← size_utf8Encode, ← toUTF8_eq]
  rfl

namespace Cursor

variable {text : String} {c d : Cursor}

@[simp] theorem offset_start (cs : List Char) : (start cs).offset = 0 := rfl

@[simp] theorem ahead_start (cs : List Char) : (start cs).ahead = cs := rfl

/-- A text is what stands before a place and what stands behind it. -/
theorem toUTF8_split (h : start text.toList ≤ c) :
    text.toUTF8 = ((start text.toList).upTo c).utf8Encode ++ c.ahead.utf8Encode := by
  rw [toUTF8_eq, ← List.utf8Encode_append, upTo_append_ahead h, ahead_start]

theorem offset_eq (h : start text.toList ≤ c) :
    c.offset = ((start text.toList).upTo c).utf8Encode.size := by
  rw [offset_eq_of_le h, offset_start, size_utf8Encode, Nat.zero_add]

theorem isValid_offset (h : start text.toList ≤ c) :
    (⟨c.offset⟩ : String.Pos.Raw).IsValid text := by
  refine String.Pos.Raw.isValid_iff_exists_append.2
    ⟨String.ofList ((start text.toList).upTo c), String.ofList c.ahead, ?_, ?_⟩
  · rw [← String.ofList_append, upTo_append_ahead h, ahead_start, String.ofList_toList]
  · rw [offset_eq h, ← toUTF8_ofList]
    rfl

theorem extract_ahead (h : start text.toList ≤ c) :
    text.toUTF8.extract c.offset text.toUTF8.size = c.ahead.utf8Encode := by
  rw [toUTF8_split h]
  exact ByteArray.extract_append_eq_right (offset_eq h) ByteArray.size_append

theorem extract_offset (hc : start text.toList ≤ c) (hd : c ≤ d) :
    text.toUTF8.extract c.offset d.offset = (c.upTo d).utf8Encode := by
  have hsplit : c.ahead.utf8Encode = (c.upTo d).utf8Encode ++ d.ahead.utf8Encode := by
    rw [← List.utf8Encode_append, upTo_append_ahead hd]
  have hsize : d.offset = c.offset + (c.upTo d).utf8Encode.size := by
    rw [size_utf8Encode, offset_eq_of_le hd]
  rw [toUTF8_split hc, hsize, offset_eq hc, hsplit]
  have := ByteArray.extract_append_size_add (a := ((start text.toList).upTo c).utf8Encode)
    (b := (c.upTo d).utf8Encode ++ d.ahead.utf8Encode) (i := 0) (j := (c.upTo d).utf8Encode.size)
  rw [Nat.add_zero] at this
  rw [this]
  exact ByteArray.extract_append_eq_left rfl

end Cursor

end Codemod.Text
