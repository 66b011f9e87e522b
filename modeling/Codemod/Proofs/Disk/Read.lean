/-
What an operation on a disk has come by when it gives a result, and reading text from a file.
-/
import Codemod.Disk.Basic
import Codemod.Text.Utf8

namespace Codemod

open Disk Text

/-- An operation in two steps that gives a result has got one from the first of them. -/
theorem exists_of_bind {ε α β : Type} {r : Except ε α} {f : α → Except ε β} {v : β} (h : (r >>= f) = .ok v) :
    ∃ a, r = .ok a ∧ f a = .ok v := by
  cases r with
  | error err => cases h
  | ok a => exact ⟨a, rfl, h⟩

/-- What can be read is there. -/
theorem exists?_of_read {d : Disk} {p : Path} {bytes : ByteArray} (h : d.read p = .ok bytes) : d.exists? p = true := by
  obtain ⟨n, hn, -⟩ := exists_of_bind h
  rw [exists?, hn]
  rfl

theorem decode_toUTF8 (s : String) : Utf8.decode s.toUTF8 = .ok s := by
  have hread : String.fromUTF8? s.toUTF8 = some s := by
    simp only [String.fromUTF8?, String.toUTF8_eq_toByteArray, dif_pos s.isValidUTF8]
    rfl
  rw [Utf8.decode, hread]

end Codemod
