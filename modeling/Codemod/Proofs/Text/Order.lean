/-
The order of texts. Texts are compared character by character, which is to compare their bytes one by one
(`bytes_lt`): where two characters differ, so do their bytes, and the first bytes in which they do are
ordered as the characters are (`encodeChar_lt`).
-/
import Mathlib.Data.List.Lex
import Codemod.Proofs.Text.Bytes

namespace Codemod.Text

theorem ofNat_cons_lt_iff {m n : Nat} (hm : m < 256) (hn : n < 256) (r s : List UInt8) :
    UInt8.ofNat m :: r < UInt8.ofNat n :: s ↔ m < n ∨ m = n ∧ r < s := by
  rw [List.cons_lt_cons_iff, UInt8.lt_iff_toNat_lt, ← UInt8.toNat_inj, UInt8.toNat_ofNat',
    UInt8.toNat_ofNat', Nat.mod_eq_of_lt hm, Nat.mod_eq_of_lt hn]

/-- Neither character's bytes begin those of the other, and they are ordered as the characters are. -/
theorem encodeChar_lt {c d : Char} (h : c < d) (r s : List UInt8) :
    String.utf8EncodeChar c ++ r < String.utf8EncodeChar d ++ s := by
  have hlt : c.val.toNat < d.val.toNat := h
  have hc : c.val.toNat ≤ 0x10FFFF := toNat_le c
  have hd : d.val.toNat ≤ 0x10FFFF := toNat_le d
  -- The digits are those of one number, taken off one by one.
  have h2 (n : Nat) : n / 4096 = n / 64 / 64 := by omega
  have h3 (n : Nat) : n / 262144 = n / 64 / 64 / 64 := by omega
  simp only [String.utf8EncodeChar, h2, h3]
  generalize c.val.toNat = m at hlt hc ⊢
  generalize d.val.toNat = n at hlt hd ⊢
  split_ifs <;>
    simp (disch := omega) only [List.cons_append, List.nil_append, ofNat_cons_lt_iff] <;> omega

/-- The bytes of a text. -/
def bytes (s : String) : List UInt8 := s.toUTF8.data.toList

theorem bytes_eq (s : String) : bytes s = s.toList.flatMap String.utf8EncodeChar := by
  rw [bytes, toUTF8_eq, List.utf8Encode, List.data_toByteArray]

/-- **Texts are ordered as their bytes are.** -/
theorem bytes_lt {s t : String} (h : s < t) : bytes s < bytes t := by
  have hlex : List.Lex (· < ·) s.toList t.toList := h
  rw [bytes_eq, bytes_eq]
  generalize s.toList = cs at hlex ⊢
  generalize t.toList = ds at hlex ⊢
  induction hlex with
  | @nil d ds =>
    obtain ⟨b, bs, hb⟩ := List.exists_cons_of_ne_nil (l := String.utf8EncodeChar d)
      String.utf8EncodeChar_ne_nil
    rw [List.flatMap_cons, hb]
    exact .nil
  | rel h => exact encodeChar_lt h _ _
  | cons _ ih => exact List.append_left_lt ih

end Codemod.Text
