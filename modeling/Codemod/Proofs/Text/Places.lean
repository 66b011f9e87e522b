/-
Looking up a place in the index of a set of places. An index holds the places of its set (`contains_index`), and
what `first?` finds is the first of them at or behind the given place (`first?_isFirst`). This needs stretches that
hold 32 places each, which is what `index` lays out.
-/
import Mathlib.Algebra.Group.Nat.Defs
import Codemod.Text.Places

namespace Codemod.Text.Places

/-! ## Stretches of 32 places -/

/-- The stretches that a set is laid out in, one after the other. -/
theorem layOut_toList (depth bits : Nat) (a : Array Nat) :
    bits < 2 ^ (32 * 2 ^ depth) →
    (layOut depth bits a).toList
      = a.toList ++ (List.range (2 ^ depth)).map fun k => bits >>> (32 * k) % 2 ^ 32 := by
  induction depth generalizing bits a with
  | zero =>
    intro hb
    have hmod : bits % 4294967296 = bits := Nat.mod_eq_of_lt (by simpa using hb)
    simp [layOut, hmod]
  | succ depth ih =>
    intro hb
    have hw : 32 <<< depth = 32 * 2 ^ depth := Nat.shiftLeft_eq _ _
    have hpow : 2 ^ (depth + 1) = 2 ^ depth + 2 ^ depth := by rw [Nat.pow_succ]; omega
    have hhigh : bits >>> (32 * 2 ^ depth) < 2 ^ (32 * 2 ^ depth) := by
      rw [Nat.shiftRight_eq_div_pow, Nat.div_lt_iff_lt_mul (Nat.two_pow_pos _), ← Nat.pow_add]
      rwa [show 32 * 2 ^ depth + 32 * 2 ^ depth = 32 * 2 ^ (depth + 1) by omega]
    have hlow := Nat.mod_lt bits (Nat.two_pow_pos (32 * 2 ^ depth))
    have hcut (k : Nat) (hk : k < 2 ^ depth) :
        (bits % 2 ^ (32 * 2 ^ depth)) >>> (32 * k) % 2 ^ 32 = bits >>> (32 * k) % 2 ^ 32 := by
      apply Nat.eq_of_testBit_eq
      intro i
      simp only [Nat.testBit_mod_two_pow, Nat.testBit_shiftRight]
      by_cases hi : i < 32
      · have : 32 * k + i < 32 * 2 ^ depth := by omega
        simp [hi, this]
      · simp [hi]
    rw [layOut, hw, Nat.one_shiftLeft, Nat.and_two_pow_sub_one_eq_mod, ih _ _ hhigh, ih _ _ hlow, hpow,
      List.range_add, List.map_append, List.map_map, List.append_assoc]
    congr 2
    · exact List.map_congr_left fun k hk => hcut k (List.mem_range.1 hk)
    · refine List.map_congr_left fun k _ => ?_
      rw [Function.comp_apply, ← Nat.shiftRight_add, Nat.mul_add]

theorem stretch_index (s : Places) (k : Nat) : s.index.stretch k = s.bits >>> (32 * k) % 2 ^ 32 := by
  unfold Index.stretch index
  split
  · next hnone =>
    have hbits : s.bits = 0 := by simpa [isNone] using hnone
    simp [hbits]
  · next hsome =>
    have hne : s.bits ≠ 0 := by simpa [isNone] using hsome
    have hdepth := Nat.lt_log2_self (n := s.bits.log2 / 32)
    have hb : s.bits < 2 ^ (32 * 2 ^ ((s.bits.log2 / 32).log2 + 1)) := by
      rw [← Nat.log2_lt hne]
      omega
    have hlist := layOut_toList _ _ #[] hb
    rw [Array.getD_eq_getD_getElem?, ← Array.getElem?_toList, hlist]
    by_cases hk : k < 2 ^ ((s.bits.log2 / 32).log2 + 1)
    · simp [hk]
    · have hzero : s.bits >>> (32 * k) = 0 := by
        rw [Nat.shiftRight_eq_div_pow]
        exact Nat.div_eq_of_lt (Nat.lt_of_lt_of_le hb (Nat.pow_le_pow_right (by omega) (by omega)))
      simp [hk, hzero]

@[simp] theorem contains_index (s : Places) (i : Nat) : s.index.contains i = s.contains i := by
  have hmod : i % 32 < 32 := Nat.mod_lt i (by omega)
  have hsplit : 32 * (i / 32) + i % 32 = i := Nat.div_add_mod i 32
  rw [Index.contains, stretch_index, Nat.testBit_mod_two_pow, Nat.testBit_shiftRight, hsplit, contains]
  simp [hmod]

/-- Every stretch holds 32 places at most. -/
def Index.Even (x : Index) : Prop := ∀ i, x.stretch i < 2 ^ 32

theorem index_even (s : Places) : s.index.Even := fun i =>
  stretch_index s i ▸ Nat.mod_lt _ (Nat.two_pow_pos 32)

/-! ## The first place from a place on -/

/-- The first place of an index, in the order of the text, with fewer characters ahead than given: the one with the
most, if there is one. -/
def Index.IsFirst (x : Index) (bound : Nat) : Option Nat → Prop
  | some i => i < bound ∧ x.contains i = true ∧ ∀ j, i < j → j < bound → x.contains j = false
  | Option.none => ∀ j, j < bound → x.contains j = false

section

variable {x : Index} {bound bound' : Nat} {o o' : Option Nat}

theorem Index.IsFirst.beyond (h : x.IsFirst bound o) (hle : bound ≤ bound')
    (hnone : ∀ j, bound ≤ j → j < bound' → x.contains j = false) : x.IsFirst bound' o := by
  cases o with
  | none =>
    intro j hj
    by_cases hlt : j < bound
    · exact h j hlt
    · exact hnone j (by omega) hj
  | some i =>
    obtain ⟨hi, hin, hlast⟩ := h
    refine ⟨by omega, hin, fun j hij hj => ?_⟩
    by_cases hlt : j < bound
    · exact hlast j hij hlt
    · exact hnone j (by omega) hj

theorem Index.IsFirst.unique (h : x.IsFirst bound o) (h' : x.IsFirst bound o') : o = o' := by
  -- neither has a place that the other says is not there
  have none_of {i : Nat} (hi : x.IsFirst bound (some i)) : ¬ x.IsFirst bound Option.none := fun hnone =>
    Bool.false_ne_true ((hnone i hi.1).symm.trans hi.2.1)
  have le_of {i j : Nat} (hi : x.IsFirst bound (some i)) (hj : x.IsFirst bound (some j)) : j ≤ i :=
    Nat.le_of_not_lt fun hlt => Bool.false_ne_true ((hi.2.2 j hlt hj.1).symm.trans hj.2.1)
  cases o with
  | none =>
    cases o' with
    | none => rfl
    | some j => exact absurd h (none_of h')
  | some i =>
    cases o' with
    | none => exact absurd h' (none_of h)
    | some j => exact congrArg some (Nat.le_antisymm (le_of h' h) (le_of h h'))

theorem contains_at (x : Index) {k n : Nat} (hn : n < 32) : x.contains (32 * k + n) = (x.stretch k).testBit n := by
  rw [Index.contains, show (32 * k + n) / 32 = k by omega, show (32 * k + n) % 32 = n by omega]

/-- The highest of some low bits of a stretch. -/
theorem isFirst_log2 {bits k n : Nat} (hne : bits ≠ 0) (hlt : bits < 2 ^ n)
    (hbit : ∀ m, m < n → x.contains (32 * k + m) = bits.testBit m) :
    x.IsFirst (32 * k + n) (some (32 * k + bits.log2)) := by
  have hlog : bits.log2 < n := (Nat.log2_lt hne).2 hlt
  refine ⟨by omega, ?_, fun j hij hj => ?_⟩
  · rw [hbit _ hlog]
    exact Nat.testBit_log2 hne
  · obtain ⟨m, rfl⟩ : ∃ m, j = 32 * k + m := ⟨j - 32 * k, by omega⟩
    rw [hbit m (by omega)]
    exact Nat.testBit_lt_two_pow
      (Nat.lt_of_lt_of_le Nat.lt_log2_self (Nat.pow_le_pow_right (by omega) (by omega)))

/-- The lowest `n + 1` bits, as `first?` masks them. -/
theorem and_mask (s n : Nat) : s &&& ((2 <<< n) - 1) = s % 2 ^ (n + 1) := by
  rw [Nat.shiftLeft_eq, Nat.mul_comm, ← Nat.pow_succ, Nat.and_two_pow_sub_one_eq_mod]

variable (hx : x.Even)
include hx

theorem firstBelow?_isFirst (n : Nat) : x.IsFirst (32 * n) (x.firstBelow? n) := by
  induction n with
  | zero =>
    intro j hj
    omega
  | succ n ih =>
    rw [Index.firstBelow?]
    split
    · next hzero =>
      refine ih.beyond (by omega) fun j hj hlt => ?_
      obtain ⟨m, rfl⟩ : ∃ m, j = 32 * n + m := ⟨j - 32 * n, by omega⟩
      rw [contains_at x (by omega), beq_iff_eq.1 hzero, Nat.zero_testBit]
    · next hne => exact isFirst_log2 (by simpa using hne) (hx n) fun m hm => contains_at x hm

/-- **What is looked up is the first place at or behind the given one.** -/
theorem first?_isFirst (left : Nat) : x.IsFirst (left + 1) (x.first? left) := by
  have hsplit : 32 * (left / 32) + (left % 32 + 1) = left + 1 := by omega
  have hbit (m : Nat) (hm : m < left % 32 + 1) : x.contains (32 * (left / 32) + m)
      = (x.stretch (left / 32) % 2 ^ (left % 32 + 1)).testBit m := by
    rw [contains_at x (by omega), Nat.testBit_mod_two_pow]
    simp [hm]
  rw [Index.first?]
  simp only [and_mask]
  split
  · next hzero =>
    rw [beq_iff_eq] at hzero
    refine (firstBelow?_isFirst hx _).beyond (by omega) fun j hj hlt => ?_
    by_cases hat : 32 * (left / 32) ≤ j
    · obtain ⟨m, rfl⟩ : ∃ m, j = 32 * (left / 32) + m := ⟨j - 32 * (left / 32), by omega⟩
      rw [hbit m (by omega), hzero, Nat.zero_testBit]
    · -- no stretch is laid out there
      have hsize : x.stretches.size ≤ j / 32 := by omega
      have hempty : x.stretch (j / 32) = 0 := by
        rw [Index.stretch, Array.getD_eq_getD_getElem?, Array.getElem?_eq_none hsize]
        rfl
      rw [← Nat.div_add_mod j 32, contains_at x (Nat.mod_lt j (by omega)), hempty, Nat.zero_testBit]
  · next hne =>
    rw [← hsplit]
    exact isFirst_log2 (by simpa using hne) (Nat.mod_lt _ (Nat.two_pow_pos _)) hbit

theorem first?_self {left : Nat} (h : x.contains left = true) : x.first? left = some left :=
  (first?_isFirst hx left).unique ⟨Nat.lt_succ_self left, h, fun j hj hj' => by omega⟩

theorem first?_succ {left : Nat} (h : x.contains (left + 1) = false) : x.first? (left + 1) = x.first? left := by
  refine (first?_isFirst hx (left + 1)).unique ((first?_isFirst hx left).beyond (Nat.le_succ _) fun j hj hj' => ?_)
  obtain rfl : j = left + 1 := by omega
  exact h

theorem first?_le {left i : Nat} (h : x.first? left = some i) : i ≤ left := by
  have hspec := first?_isFirst hx left
  rw [h] at hspec
  exact Nat.le_of_lt_succ hspec.1

end

end Codemod.Text.Places
