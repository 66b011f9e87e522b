/-
Reading a template that is put together of parts: a dollar sign that is doubled, a reference in braces, and
characters that stand for themselves. Each of them is read whatever comes behind it.
-/
import Codemod.Rule.Template

namespace Codemod.Template

section

variable {cs rest : List Char}

/-- The characters of a reference are passed over. -/
theorem parts_skip (cs rest : List Char) : parts cs.length (cs ++ rest) = parts 0 rest := by
  induction cs with
  | nil => rfl
  | cons c cs ih => exact ih

theorem parts_char {c : Char} (hc : c ≠ '$') : parts 0 (c :: rest) = .char c :: parts 0 rest :=
  if_pos (by simpa using hc)

theorem parts_chars (hcs : '$' ∉ cs) : parts 0 (cs ++ rest) = cs.map .char ++ parts 0 rest := by
  induction cs with
  | nil => rfl
  | cons c cs ih =>
    rw [List.mem_cons, not_or] at hcs
    rw [List.cons_append, parts_char (Ne.symm hcs.1), ih hcs.2]
    rfl

/-- A text with its dollar signs doubled stands for itself. -/
theorem parts_doubled (cs rest : List Char) :
    parts 0 ((cs.flatMap fun c => if c == '$' then ['$', '$'] else [c]) ++ rest) = cs.map .char ++ parts 0 rest := by
  induction cs with
  | nil => rfl
  | cons c cs ih =>
    rw [List.flatMap_cons, List.append_assoc, List.map_cons, List.cons_append, ← ih]
    by_cases hc : c = '$'
    · subst hc
      rfl
    · rw [if_neg (by simpa using hc), List.singleton_append, parts_char hc]

theorem parts_reference (name : List Char) (hname : '}' ∉ name) :
    parts 0 ('$' :: '{' :: (name ++ '}' :: rest)) = reference name :: parts 0 rest := by
  have hall : ∀ c ∈ name, (c != '}') = true := by
    intro c hc
    rw [bne_iff_ne]
    rintro rfl
    exact hname hc
  have htake : (name ++ '}' :: rest).takeWhile (· != '}') = name := by
    rw [List.takeWhile_append_of_pos hall]
    simp
  have hread : readReference ('{' :: (name ++ '}' :: rest)) = some (reference name, name.length + 2) := by
    unfold readReference
    simp only [htake]
    rw [if_pos (by simp)]
  have hskip := parts_skip ('{' :: (name ++ ['}'])) rest
  rw [show ('{' :: (name ++ ['}'])).length = name.length + 2 by simp] at hskip
  rw [parts]
  · simp only [bne_self_eq_false, Bool.false_eq_true, if_false, hread]
    rw [← hskip]
    simp
  · nofun

end

end Codemod.Template
