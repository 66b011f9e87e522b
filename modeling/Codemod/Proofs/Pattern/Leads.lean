/-
What a pattern matches, said without a plan: `Node.Leads x t u` if `x` leads from one trail to another,
whichever choices that takes. A pattern laid over a text finds the same by going back through it: the
places from which `x` leads into a set (`contains_ways`). This holds for patterns in which no loop is
inside another, and rounds of a loop without upper limit move on.
-/
import Codemod.Proofs.Text.Cursor
import Codemod.Proofs.Text.PlaceSets
import Codemod.Pattern.Match

namespace Codemod.Pattern

open Text

/-- So many steps of a relation, one after the other. -/
def Rounds (step : Trail → Trail → Prop) : Nat → Trail → Trail → Prop
  | 0, t, v => v = t
  | n + 1, t, v => ∃ u, step t u ∧ Rounds step n u v

/-- A node leads from one trail to another. -/
def Node.Leads : Node → Trail → Trail → Prop
  | empty, t, u => u = t
  | word cs, t, u =>
    cs.isPrefixOf t.place.ahead = true ∧ u = { t with place := t.place.advance cs.length }
  | chars s, t, u =>
    ∃ c d, t.place.next? = some (c, d) ∧ s.contains c = true ∧ u = { t with place := d }
  | look l, t, u => l.holds t.place.before t.place.ahead.head? = true ∧ u = t
  | group i x, t, u => ∃ v, x.Leads t v ∧ u = { v with groups := (i, t.place, v.place) :: v.groups }
  | seq x y, t, v => ∃ u, x.Leads t u ∧ y.Leads u v
  | alt x y, t, u => x.Leads t u ∨ y.Leads t u
  | loop x low high _, t, u => ∃ n, low ≤ n ∧ (∀ h, high = some h → n ≤ h) ∧ Rounds x.Leads n t u

section

variable {step : Trail → Trail → Prop} {t u v : Trail} {m n : Nat}

theorem Rounds.concat (h : Rounds step n t u) (hstep : step u v) : Rounds step (n + 1) t v := by
  induction n generalizing t with
  | zero =>
    obtain rfl : u = t := h
    exact ⟨v, hstep, rfl⟩
  | succ n ih =>
    obtain ⟨w, hw, hrest⟩ := h
    exact ⟨w, hw, ih hrest⟩

theorem Rounds.append (h : Rounds step m t u) (h' : Rounds step n u v) : Rounds step (m + n) t v := by
  induction m generalizing t with
  | zero =>
    obtain rfl : u = t := h
    rwa [Nat.zero_add]
  | succ m ih =>
    obtain ⟨w, hw, hrest⟩ := h
    rw [Nat.succ_add]
    exact ⟨w, hw, ih hrest⟩

theorem Rounds.split (h : Rounds step (m + n) t v) : ∃ u, Rounds step m t u ∧ Rounds step n u v := by
  induction m generalizing t with
  | zero => exact ⟨t, rfl, by rwa [Nat.zero_add] at h⟩
  | succ m ih =>
    rw [Nat.succ_add] at h
    obtain ⟨w, hw, hrest⟩ := h
    obtain ⟨u, hu, hv⟩ := ih hrest
    exact ⟨u, ⟨w, hw, hu⟩, hv⟩

theorem Rounds.le (hstep : ∀ t u, step t u → t.place ≤ u.place) (h : Rounds step n t u) :
    t.place ≤ u.place := by
  induction n generalizing t with
  | zero =>
    obtain rfl : u = t := h
    exact le_refl _
  | succ n ih =>
    obtain ⟨w, hw, hrest⟩ := h
    exact (hstep t w hw).trans (ih hrest)

end

namespace Node

variable {x y : Node} {t u : Trail}

/-- A node leads forward. -/
theorem Leads.le (h : x.Leads t u) : t.place ≤ u.place := by
  induction x generalizing t u with
  | empty => exact (show u = t from h) ▸ le_refl _
  | word cs =>
    obtain ⟨-, rfl⟩ := h
    exact Cursor.le_advance _ _
  | chars s =>
    obtain ⟨c, d, hnext, -, rfl⟩ := h
    exact Cursor.le_of_next? hnext
  | look l =>
    obtain ⟨-, rfl⟩ := h
    exact le_refl _
  | group i x ih =>
    obtain ⟨v, hv, rfl⟩ := h
    show t.place ≤ v.place
    exact ih hv
  | seq x y ihx ihy =>
    obtain ⟨v, hv, hu⟩ := h
    exact (ihx hv).trans (ihy hu)
  | alt x y ihx ihy =>
    rcases h with h | h
    · exact ihx h
    · exact ihy h
  | loop x low high greedy ih =>
    obtain ⟨n, -, -, h⟩ := h
    exact h.le fun _ _ => ih

/-- A node that cannot match the empty text moves on. -/
theorem Leads.left_lt (hx : x.nullable = false) (h : x.Leads t u) : u.place.left < t.place.left := by
  induction x generalizing t u with
  | empty => simp [nullable] at hx
  | word cs =>
    obtain ⟨hpre, rfl⟩ := h
    have hlen := (List.isPrefixOf_iff_prefix.1 hpre).length_le
    have hne : cs ≠ [] := by simpa [nullable] using hx
    have hpos := List.length_pos_iff.2 hne
    simp only [Cursor.left_advance]
    rw [t.place.left_eq]
    omega
  | chars s =>
    obtain ⟨c, d, hnext, -, rfl⟩ := h
    exact Cursor.left_lt_of_next? hnext
  | look l => simp [nullable] at hx
  | group i x ih =>
    obtain ⟨v, hv, rfl⟩ := h
    show v.place.left < t.place.left
    exact ih (by simpa [nullable] using hx) hv
  | seq x y ihx ihy =>
    obtain ⟨v, hv, hu⟩ := h
    have h1 := Cursor.left_le_of_le hv.le
    have h2 := Cursor.left_le_of_le hu.le
    simp only [nullable, Bool.and_eq_false_iff] at hx
    rcases hx with hx | hx
    · have := ihx hx hv
      omega
    · have := ihy hx hu
      omega
  | alt x y ihx ihy =>
    simp only [nullable, Bool.or_eq_false_iff] at hx
    rcases h with h | h
    · exact ihx hx.1 h
    · exact ihy hx.2 h
  | loop x low high greedy ih =>
    obtain ⟨n, hlow, -, h⟩ := h
    simp only [nullable, Bool.or_eq_false_iff, beq_eq_false_iff_ne] at hx
    cases n with
    | zero => omega
    | succ n =>
      obtain ⟨w, hw, hrest⟩ := h
      have h1 := ih hx.2 hw
      have h2 := Cursor.left_le_of_le (hrest.le fun _ _ => Leads.le)
      omega

/-- No loops. -/
def flat : Node → Bool
  | group _ x => x.flat
  | seq x y => x.flat && y.flat
  | alt x y => x.flat && y.flat
  | loop .. => false
  | _ => true

/-- Loops without upper limit have rounds that move on and hold no loop, and the others a fixed number of
rounds. -/
def simple : Node → Bool
  | group _ x => x.simple
  | seq x y => x.simple && y.simple
  | alt x y => x.simple && y.simple
  | loop x _ none _ => x.flat && !x.nullable
  | loop x low (some high) _ => x.simple && low == high
  | _ => true

theorem simple_of_flat (h : x.flat = true) : x.simple = true := by
  induction x with
  | empty | word | chars | look => rfl
  | group i x ih => exact ih h
  | seq x y ihx ihy | alt x y ihx ihy =>
    simp only [flat, Bool.and_eq_true] at h
    simp only [simple, ihx h.1, ihy h.2, Bool.and_self]
  | loop x low high greedy => cases h

end Node

end Codemod.Pattern
