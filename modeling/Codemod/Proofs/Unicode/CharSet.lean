/-
What is in a set of characters. Ranges that touch are joined, in their order, which changes nothing about
what they hold (`memRanges_ofRanges`). Sorting them by insertion gives the same (`ofRanges_eq`), which goes by the
list alone and so can be followed where a set is to be computed, as it is for the blanks (`spaces_eq`).
-/
import Mathlib.Data.List.Pairwise
import Mathlib.Data.List.Sort
import Codemod.Unicode.Class

namespace Codemod.Unicode

namespace CharSet

/-- Ranges in the order of their first codes. -/
def Rising (l : List (Nat × Nat)) : Prop := l.Pairwise fun r s => r.1 ≤ s.1

/-- One of the ranges holds a code. -/
def Covers (l : List (Nat × Nat)) (n : Nat) : Prop := ∃ r ∈ l, r.1 ≤ n ∧ n ≤ r.2

theorem covers_cons {a b n : Nat} {l : List (Nat × Nat)} :
    Covers ((a, b) :: l) n ↔ (a ≤ n ∧ n ≤ b) ∨ Covers l n := by simp [Covers]

theorem memRanges_iff {n : Nat} {l : List (Nat × Nat)} (hl : Rising l) :
    memRanges n l = true ↔ Covers l n := by
  induction l with
  | nil => simp [memRanges, Covers]
  | cons r l ih =>
    obtain ⟨a, b⟩ := r
    obtain ⟨hfirst, hl⟩ := List.pairwise_cons.1 hl
    rw [covers_cons, memRanges]
    by_cases hlow : n < a
    · have hnone : ¬ Covers l n := by
        rintro ⟨r, hr, hle, -⟩
        have := hfirst r hr
        omega
      have hout : ¬ (a ≤ n ∧ n ≤ b) := by omega
      simp [hlow, hnone, hout]
    · by_cases hin : n ≤ b
      · have : a ≤ n ∧ n ≤ b := by omega
        simp [hlow, hin, this]
      · simp [hlow, hin, ih hl]

/-- What is found is covered, in any order. -/
theorem covers_of_memRanges {n : Nat} {l : List (Nat × Nat)} (h : memRanges n l = true) : Covers l n := by
  induction l with
  | nil => cases h
  | cons r l ih =>
    obtain ⟨a, b⟩ := r
    rw [covers_cons]
    unfold memRanges at h
    split at h
    · cases h
    · split at h
      · exact .inl ⟨by omega, by omega⟩
      · exact .inr (ih h)

/-- Joining keeps what is covered, and the order. -/
theorem coalesce_spec {l : List (Nat × Nat)} (hl : Rising l) :
    Rising (coalesce l) ∧ (∀ n, Covers (coalesce l) n ↔ Covers l n) ∧
      ∀ a, (∀ r ∈ l, a ≤ r.1) → ∀ r ∈ coalesce l, a ≤ r.1 := by
  fun_induction coalesce l with
  | case1 => exact ⟨.nil, fun _ => Iff.rfl, fun _ h => h⟩
  | case2 r => exact ⟨hl, fun _ => Iff.rfl, fun _ h => h⟩
  | case3 a b c d rest htouch ih =>
    obtain ⟨hfirst, hrest⟩ := List.pairwise_cons.1 hl
    have hac : a ≤ c := hfirst (c, d) (by simp)
    obtain ⟨-, hrest'⟩ := List.pairwise_cons.1 hrest
    have hjoined : Rising ((a, max b d) :: rest) :=
      List.pairwise_cons.2 ⟨fun r hr => hfirst r (by simp [hr]), hrest'⟩
    obtain ⟨h1, h2, h3⟩ := ih hjoined
    refine ⟨h1, fun n => ?_, fun e he => h3 e ?_⟩
    · rw [h2, covers_cons, covers_cons, covers_cons, ← or_assoc]
      refine or_congr_left ?_
      omega
    · intro r hr
      rcases List.mem_cons.1 hr with rfl | hr
      · exact he (a, b) (by simp)
      · exact he r (by simp [hr])
  | case4 a b c d rest hgap ih =>
    obtain ⟨hfirst, hrest⟩ := List.pairwise_cons.1 hl
    obtain ⟨h1, h2, h3⟩ := ih hrest
    refine ⟨List.pairwise_cons.2 ⟨h3 a hfirst, h1⟩, fun n => ?_, fun e he => ?_⟩
    · rw [covers_cons, h2]
      exact covers_cons.symm
    · obtain ⟨he1, he2⟩ := List.forall_mem_cons.1 he
      exact List.forall_mem_cons.2 ⟨he1, h3 e he2⟩

theorem rising_mergeSort (l : List (Nat × Nat)) : Rising (l.mergeSort fun r s => decide (r.1 ≤ s.1)) := by
  have h := @List.pairwise_mergeSort _ (fun r s : Nat × Nat => decide (r.1 ≤ s.1))
    (by intro a b c; simp only [decide_eq_true_eq]; omega)
    (by intro a b; simp only [Bool.or_eq_true, decide_eq_true_eq]; omega) l
  exact h.imp fun h => by simpa using h

/-- Ranges are sorted by putting each into its place among those behind it. -/
theorem mergeSort_eq_insertionSort (l : List (Nat × Nat)) :
    (l.mergeSort fun r s => decide (r.1 ≤ s.1)) = l.insertionSort fun r s => r.1 ≤ s.1 := by
  induction l with
  | nil => rw [List.mergeSort_nil, List.insertionSort_nil]
  | cons r l ih =>
    have htrans (a b c : Nat × Nat) : decide (a.1 ≤ b.1) = true → decide (b.1 ≤ c.1) = true →
        decide (a.1 ≤ c.1) = true := by
      simp only [decide_eq_true_eq]
      exact Nat.le_trans
    have htotal (a b : Nat × Nat) : (decide (a.1 ≤ b.1) || decide (b.1 ≤ a.1)) = true := by
      simpa only [Bool.or_eq_true, decide_eq_true_eq] using Nat.le_total a.1 b.1
    obtain ⟨front, back, hcons, hl, hfront⟩ := List.mergeSort_cons htrans htotal r l
    have hrising := rising_mergeSort (r :: l)
    rw [hcons] at hrising
    have hback : ∀ s ∈ back, r.1 ≤ s.1 := (List.pairwise_cons.1 (List.pairwise_append.1 hrising).2.1).1
    have hbehind : back.takeWhile (fun s => decide ¬ r.1 ≤ s.1) = [] ∧
        back.dropWhile (fun s => decide ¬ r.1 ≤ s.1) = back := by
      cases back with
      | nil => exact ⟨rfl, rfl⟩
      | cons s back =>
        have hs : ¬ decide (¬ r.1 ≤ s.1) = true := by simpa using hback s (List.mem_cons_self ..)
        exact ⟨List.takeWhile_cons_of_neg hs, List.dropWhile_cons_of_neg hs⟩
    have hbefore : ∀ s ∈ front, decide (¬ r.1 ≤ s.1) = true := by simpa using hfront
    rw [hcons, List.insertionSort_cons, ← ih, hl, List.orderedInsert_eq_take_drop,
      List.takeWhile_append_of_pos hbefore, List.dropWhile_append_of_pos hbefore, hbehind.1, hbehind.2, List.append_nil]

theorem ofRanges_eq (l : List (Nat × Nat)) : ofRanges l = ⟨coalesce (l.insertionSort fun r s => r.1 ≤ s.1)⟩ := by
  rw [ofRanges, mergeSort_eq_insertionSort]

theorem covers_ofRanges {n : Nat} {l : List (Nat × Nat)} : Covers (ofRanges l).ranges n ↔ Covers l n := by
  have hperm := List.mergeSort_perm l fun r s => decide (r.1 ≤ s.1)
  obtain ⟨-, hcovers, -⟩ := coalesce_spec (rising_mergeSort l)
  rw [ofRanges, hcovers]
  simp only [Covers, hperm.mem_iff]

theorem memRanges_ofRanges (n : Nat) (l : List (Nat × Nat)) :
    memRanges n (ofRanges l).ranges = true ↔ Covers l n := by
  have hrising : Rising (ofRanges l).ranges := (coalesce_spec (rising_mergeSort l)).1
  rw [memRanges_iff hrising, covers_ofRanges]

theorem memRanges_ofChars (n : Nat) (cs : List Char) :
    memRanges n (ofChars cs).ranges = true ↔ ∃ c ∈ cs, c.toNat = n := by
  rw [ofChars, memRanges_ofRanges]
  simp only [Covers, List.mem_map]
  constructor
  · rintro ⟨r, ⟨c, hc, rfl⟩, h1, h2⟩
    exact ⟨c, hc, Nat.le_antisymm h1 h2⟩
  · rintro ⟨c, hc, rfl⟩
    exact ⟨_, ⟨c, hc, rfl⟩, Nat.le_refl _, Nat.le_refl _⟩

theorem contains_ofChars (c : Char) (cs : List Char) : (ofChars cs).contains c = true ↔ c ∈ cs := by
  rw [contains, memRanges_ofChars]
  constructor
  · rintro ⟨d, hd, heq⟩
    rwa [← Char.toNat_inj.1 heq]
  · intro hc
    exact ⟨c, hc, rfl⟩

/-- What one of the sets holds, their union holds. -/
theorem contains_unions {c : Char} {s : CharSet} {l : List CharSet} (hs : s ∈ l) (h : s.contains c = true) :
    (unions l).contains c = true := by
  rw [contains, unions, memRanges_ofRanges]
  obtain ⟨r, hr, hin⟩ := covers_of_memRanges h
  exact ⟨r, List.mem_flatMap.2 ⟨s, hs, hr⟩, hin⟩

/-- Two characters make the same set in either order. -/
theorem unions_swap (c d : Char) : unions [.single c, .single d] = unions [.single d, .single c] := by
  have hsorted : ([(c.toNat, c.toNat), (d.toNat, d.toNat)].insertionSort fun r s => r.1 ≤ s.1)
      = [(d.toNat, d.toNat), (c.toNat, c.toNat)].insertionSort fun r s => r.1 ≤ s.1 := by
    simp only [List.insertionSort_cons, List.insertionSort_nil, List.orderedInsert]
    split <;> split
    · have : c.toNat = d.toNat := by omega
      rw [this]
    · rfl
    · rfl
    · omega
  rw [unions, unions, ofRanges_eq, ofRanges_eq]
  exact congrArg (fun l => (⟨coalesce l⟩ : CharSet)) hsorted

theorem contains_single (c a : Char) : (single c).contains a = (a == c) := by
  unfold contains single
  simp only [memRanges]
  by_cases h : a = c
  · subst h
    simp
  · have hne : a.toNat ≠ c.toNat := fun heq => h (Char.toNat_inj.1 heq)
    by_cases hlt : a.toNat < c.toNat
    · simp [hlt, h]
    · have hgt : ¬ a.toNat ≤ c.toNat := by omega
      simp [hlt, hgt, h]

end CharSet

/-- The blanks, in the order of their codes. -/
theorem spaces_eq : spaces = ⟨[(9, 13), (32, 32), (0x85, 0x85), (0xA0, 0xA0), (0x1680, 0x1680), (0x2000, 0x200A),
    (0x2028, 0x2029), (0x202F, 0x202F), (0x205F, 0x205F), (0x3000, 0x3000)]⟩ := by
  obtain ⟨p, hp, hcategories, hexceptions⟩ : ∃ p : Property, property? "whitespace" = some p.toSet
      ∧ p.categories = [] ∧ p.exceptions = "9-D 20 85 A0 1680 2000-200A 2028-2029 202F 205F 3000" :=
    ⟨_, rfl, rfl, rfl⟩
  rw [spaces, hp, Option.getD_some, Property.toSet, hcategories, hexceptions]
  simp only [joinCategories, CharSet.symmDiff, CharSet.diff, CharSet.inter, CharSet.union, CharSet.unions,
    CharSet.ofTable, CharSet.ofRanges_eq]
  decide +kernel

end Codemod.Unicode
