/-
Places on one text, in their order: `c ≤ d` when going forward from `c` leads to `d`. Two places
between which there is no way are on different texts, so a statement `c ≤ d` also says that the text
between them is the text of both. A place counts its bytes: `offset_advance`.
-/
import Mathlib.Algebra.GroupWithZero.Nat
import Mathlib.Order.Basic
import Codemod.Text.Cursor

namespace Codemod.Text

/-- The bytes of a text in UTF-8. -/
def byteCount (cs : List Char) : Nat := (cs.map Char.utf8Size).sum

@[simp] theorem byteCount_nil : byteCount [] = 0 := rfl

@[simp] theorem byteCount_cons (c : Char) (cs : List Char) :
    byteCount (c :: cs) = c.utf8Size + byteCount cs := by simp [byteCount]

@[simp] theorem byteCount_append (cs ds : List Char) :
    byteCount (cs ++ ds) = byteCount cs + byteCount ds := by simp [byteCount]

theorem length_le_byteCount (cs : List Char) : cs.length ≤ byteCount cs := by
  induction cs with
  | nil => simp
  | cons c cs ih =>
    have := c.utf8Size_pos
    simp only [List.length_cons, byteCount_cons]
    omega

theorem byteCount_pos {cs : List Char} (h : cs ≠ []) : 0 < byteCount cs := by
  cases cs with
  | nil => exact absurd rfl h
  | cons c cs =>
    have := c.utf8Size_pos
    simp only [byteCount_cons]
    omega

namespace Cursor

theorem next?_eq_none {c : Cursor} : c.next? = none ↔ c.ahead = [] := by
  unfold next?
  split
  · rename_i h; simp [h]
  · rename_i h; simp [h]

theorem offset_of_next? {c d : Cursor} {a : Char} (h : c.next? = some (a, d)) :
    d.offset = c.offset + a.utf8Size := by
  unfold next? at h
  split at h
  · simp at h
  · simp only [Option.some.injEq, Prod.mk.injEq] at h
    obtain ⟨rfl, rfl⟩ := h
    rfl

theorem left_of_next? {c d : Cursor} {a : Char} (h : c.next? = some (a, d)) : c.left = d.left + 1 := by
  rw [c.left_eq, d.left_eq, ahead_of_next? h, List.length_cons]

theorem before_of_next? {c d : Cursor} {a : Char} (h : c.next? = some (a, d)) :
    d.before = some a := by
  unfold next? at h
  split at h
  · simp at h
  · simp only [Option.some.injEq, Prod.mk.injEq] at h
    obtain ⟨rfl, rfl⟩ := h
    rfl

theorem exists_next? {c : Cursor} {a : Char} {rest : List Char} (h : c.ahead = a :: rest) :
    ∃ d, c.next? = some (a, d) ∧ d.ahead = rest := by
  cases hc : c.next? with
  | none => rw [next?_eq_none.1 hc] at h; cases h
  | some p =>
    obtain ⟨b, d⟩ := p
    have hcons := ahead_of_next? hc
    rw [h] at hcons
    obtain ⟨rfl, rfl⟩ := List.cons.inj hcons
    exact ⟨d, rfl, rfl⟩

/-! ## Going forward -/

@[simp] theorem advance_zero (c : Cursor) : c.advance 0 = c := rfl

theorem advance_succ {c d : Cursor} {a : Char} (h : c.next? = some (a, d)) (n : Nat) :
    c.advance (n + 1) = d.advance n := by simp [advance, h]

theorem advance_of_next?_none {c : Cursor} (h : c.next? = none) (n : Nat) : c.advance n = c := by
  cases n with
  | zero => rfl
  | succ n => simp [advance, h]

theorem advance_add (c : Cursor) (m n : Nat) : c.advance (m + n) = (c.advance m).advance n := by
  induction m generalizing c with
  | zero => simp
  | succ m ih =>
    cases hc : c.next? with
    | none => simp [advance_of_next?_none hc]
    | some p =>
      obtain ⟨a, d⟩ := p
      rw [show m + 1 + n = (m + n) + 1 by omega, advance_succ hc, advance_succ hc, ih]

theorem ahead_advance (c : Cursor) (n : Nat) : (c.advance n).ahead = c.ahead.drop n := by
  induction n generalizing c with
  | zero => simp
  | succ n ih =>
    cases hc : c.next? with
    | none => simp [advance_of_next?_none hc, next?_eq_none.1 hc]
    | some p =>
      obtain ⟨a, d⟩ := p
      rw [advance_succ hc, ih, ahead_of_next? hc, List.drop_succ_cons]

@[simp] theorem left_advance (c : Cursor) (n : Nat) : (c.advance n).left = c.left - n := by
  rw [left_eq, left_eq, ahead_advance, List.length_drop]

theorem offset_advance (c : Cursor) (n : Nat) :
    (c.advance n).offset = c.offset + byteCount (c.ahead.take n) := by
  induction n generalizing c with
  | zero => simp
  | succ n ih =>
    cases hc : c.next? with
    | none => simp [advance_of_next?_none hc, next?_eq_none.1 hc]
    | some p =>
      obtain ⟨a, d⟩ := p
      rw [advance_succ hc, ih, ahead_of_next? hc, offset_of_next? hc, List.take_succ_cons,
        byteCount_cons]
      omega

theorem advance_eq_self {c : Cursor} {n : Nat} (h : (c.advance n).left = c.left) :
    c.advance n = c := by
  rw [left_advance] at h
  cases n with
  | zero => rfl
  | succ n =>
    refine advance_of_next?_none (next?_eq_none.2 (List.eq_nil_of_length_eq_zero ?_)) _
    rw [← c.left_eq]
    omega

/-! ## The order of places -/

/-- A place comes before those that going forward leads to. -/
instance : PartialOrder Cursor where
  le c d := ∃ n, c.advance n = d
  le_refl c := ⟨0, rfl⟩
  le_trans c d e := by
    rintro ⟨m, rfl⟩ ⟨n, rfl⟩
    exact ⟨m + n, advance_add c m n⟩
  le_antisymm c d := by
    rintro ⟨m, rfl⟩ ⟨n, h⟩
    have hleft := congrArg left h
    simp only [left_advance] at hleft
    exact (advance_eq_self (by rw [left_advance]; omega)).symm

theorem le_advance (c : Cursor) (n : Nat) : c ≤ c.advance n := ⟨n, rfl⟩

theorem le_of_next? {c d : Cursor} {a : Char} (h : c.next? = some (a, d)) : c ≤ d :=
  ⟨1, advance_succ h 0⟩

theorem left_le_of_le {c d : Cursor} (h : c ≤ d) : d.left ≤ c.left := by
  obtain ⟨n, rfl⟩ := h
  simp

theorem advance_sub_of_le {c d : Cursor} (h : c ≤ d) : c.advance (c.left - d.left) = d := by
  obtain ⟨n, rfl⟩ := h
  rcases Nat.le_total n c.left with hn | hn
  · rw [left_advance, show c.left - (c.left - n) = n by omega]
  · have hend : (c.advance c.left).advance (n - c.left) = c.advance c.left :=
      advance_eq_self (by simp)
    rw [left_advance, show c.left - (c.left - n) = c.left by omega, ← hend, ← advance_add,
      show c.left + (n - c.left) = n by omega]

/-- Behind one place, the number of characters ahead tells the others apart. -/
theorem eq_of_left_eq {c d e : Cursor} (hd : c ≤ d) (he : c ≤ e) (h : d.left = e.left) : d = e := by
  rw [← advance_sub_of_le hd, ← advance_sub_of_le he, h]

/-- Behind one place, one of two others comes first. -/
theorem le_or_lt_of_le {c d e : Cursor} (hd : c ≤ d) (he : c ≤ e) : d ≤ e ∨ e < d := by
  have le_of {d e : Cursor} (hd : c ≤ d) (he : c ≤ e) (hleft : e.left ≤ d.left) : d ≤ e := by
    have hsum : c.left - e.left = c.left - d.left + (d.left - e.left) := by
      have := left_le_of_le hd
      omega
    have hstep := advance_sub_of_le he
    rw [hsum, advance_add, advance_sub_of_le hd] at hstep
    exact ⟨_, hstep⟩
  rcases Nat.lt_or_ge d.left e.left with hleft | hleft
  · exact .inr (lt_of_le_of_ne (le_of he hd (Nat.le_of_lt hleft)) fun heq => by rw [heq] at hleft; omega)
  · exact .inl (le_of hd he hleft)

theorem lt_iff {c d : Cursor} : c < d ↔ c ≤ d ∧ d.left < c.left := by
  constructor
  · intro h
    refine ⟨h.le, Nat.lt_of_le_of_ne (left_le_of_le h.le) fun heq => h.ne ?_⟩
    exact eq_of_left_eq (le_refl c) h.le heq.symm
  · rintro ⟨hle, hlt⟩
    exact lt_of_le_of_ne hle fun heq => by rw [heq] at hlt; omega

/-! ## The text between two places -/

theorem upTo_append_ahead {c d : Cursor} (h : c ≤ d) : c.upTo d ++ d.ahead = c.ahead := by
  rw [upTo, ← advance_sub_of_le h, ahead_advance, left_advance]
  have := left_le_of_le h
  rw [show c.left - (c.left - (c.left - d.left)) = c.left - d.left by omega, List.take_append_drop]

theorem offset_eq_of_le {c d : Cursor} (h : c ≤ d) :
    d.offset = c.offset + byteCount (c.upTo d) := by
  calc d.offset = (c.advance (c.left - d.left)).offset := by rw [advance_sub_of_le h]
    _ = c.offset + byteCount (c.upTo d) := offset_advance c _

theorem offset_le_of_le {c d : Cursor} (h : c ≤ d) : c.offset ≤ d.offset := by
  rw [offset_eq_of_le h]
  omega

theorem offset_lt_of_lt {c d : Cursor} (h : c < d) : c.offset < d.offset := by
  obtain ⟨hle, hleft⟩ := lt_iff.1 h
  have hne : c.upTo d ≠ [] := by
    intro hnil
    have hahead := upTo_append_ahead hle
    rw [hnil, List.nil_append] at hahead
    rw [c.left_eq, d.left_eq, hahead] at hleft
    omega
  have := byteCount_pos hne
  rw [offset_eq_of_le hle]
  omega

/-! ## Places on a text -/

/-- A place on a text is between the characters that its own number of characters ahead says. -/
theorem on_text {text : List Char} {c : Cursor} (h : .start text ≤ c) :
    c.left ≤ text.length ∧ c.ahead = text.drop (text.length - c.left) ∧
      c.before = text.reverse[c.left]? := by
  obtain ⟨n, rfl⟩ := h
  induction n with
  | zero => simp [start]
  | succ n ih =>
    obtain ⟨hle, hahead, hbefore⟩ := ih
    rw [advance_add]
    generalize (start text).advance n = c at hle hahead hbefore ⊢
    cases hc : c.next? with
    | none => rw [advance_of_next?_none hc]; exact ⟨hle, hahead, hbefore⟩
    | some p =>
      obtain ⟨a, d⟩ := p
      rw [advance_succ hc, advance_zero]
      have hlt := left_lt_of_next? hc
      have hcons := ahead_of_next? hc
      have hleft := left_of_next? hc
      rw [hahead] at hcons
      have hdrop : d.ahead = text.drop (text.length - d.left) := by
        rw [show text.length - d.left = text.length - c.left + 1 by omega, ← List.drop_drop, hcons]
        rfl
      refine ⟨by omega, hdrop, ?_⟩
      have ha : text[text.length - c.left]? = some a := by
        rw [← List.head?_drop, hcons]
        rfl
      rw [before_of_next? hc, List.getElem?_reverse (by omega), ← ha]
      congr 1
      omega

theorem le_skipWhile (p : Char → Bool) (c : Cursor) : c ≤ c.skipWhile p := by
  fun_induction skipWhile p c with
  | case1 c a d h _ ih => exact (le_of_next? h).trans ih
  | case2 c a d h _ => exact le_refl c
  | case3 c h => exact le_refl c

end Cursor

end Codemod.Text
