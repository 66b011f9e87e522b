/-
A place in a text: the character before it, the characters ahead, and the bytes passed so far.
Moving forward only drops characters from the list ahead, so that two places on one text bound the
piece between them.
-/
namespace Codemod.Text

structure Cursor where
  before : Option Char
  ahead : List Char
  /-- Bytes passed, counted in UTF-8. -/
  offset : Nat
  /-- Number of characters ahead. -/
  left : Nat
  left_eq : left = ahead.length

namespace Cursor

def start (text : List Char) : Cursor := ⟨none, text, 0, text.length, rfl⟩

def atEnd (c : Cursor) : Bool := c.ahead.isEmpty

/-- The next character and the place behind it. -/
def next? (c : Cursor) : Option (Char × Cursor) :=
  match h : c.ahead with
  | [] => none
  | a :: rest =>
    some (a, ⟨some a, rest, c.offset + a.utf8Size, c.left - 1, by simp [c.left_eq, h]⟩)

theorem left_lt_of_next? {c d : Cursor} {a : Char} (h : c.next? = some (a, d)) :
    d.left < c.left := by
  unfold next? at h
  split at h
  · simp at h
  · rename_i a' rest hc
    simp only [Option.some.injEq, Prod.mk.injEq] at h
    obtain ⟨rfl, rfl⟩ := h
    simp [c.left_eq, hc]

theorem ahead_of_next? {c d : Cursor} {a : Char} (h : c.next? = some (a, d)) :
    c.ahead = a :: d.ahead := by
  unfold next? at h
  split at h
  · simp at h
  · rename_i a' rest hc
    simp only [Option.some.injEq, Prod.mk.injEq] at h
    obtain ⟨rfl, rfl⟩ := h
    exact hc

/-- The characters from one place up to a later one on the same text. -/
def upTo (c d : Cursor) : List Char := c.ahead.take (c.left - d.left)

/-- Skips the characters that satisfy `p`. -/
def skipWhile (p : Char → Bool) (c : Cursor) : Cursor :=
  match _h : c.next? with
  | some (a, d) => if p a then d.skipWhile p else c
  | none => c
termination_by c.left
decreasing_by exact left_lt_of_next? _h

/-- Skips as many characters as given, or to the end. -/
def advance : Nat → Cursor → Cursor
  | 0, c => c
  | n + 1, c => match c.next? with
    | some (_, d) => advance n d
    | none => c

theorem left_advance_le (c : Cursor) (n : Nat) : (c.advance n).left ≤ c.left := by
  fun_induction advance n c with
  | case1 c => exact Nat.le_refl _
  | case2 n c a d h ih => exact Nat.le_trans ih (Nat.le_of_lt (left_lt_of_next? h))
  | case3 n c h => exact Nat.le_refl _

end Cursor

end Codemod.Text
