/-
What is in a set of places. Each operation on the bits is read as one on the places: a union holds what
either set holds, a step back moves every place, and the places from which steps over given characters
lead into a set are found by one addition, whose carries run through stretches of such characters
(`contains_flood`).
-/
import Mathlib.Logic.Function.Iterate
import Mathlib.Algebra.Group.Nat.Defs
import Codemod.Text.Places

namespace Codemod.Text.Places

variable {s t : Places} {i j n : Nat}

@[simp] theorem contains_none : none.contains i = false := Nat.zero_testBit i

theorem isNone_iff : s.isNone = true ↔ ∀ i, s.contains i = false := by
  constructor
  · intro h i
    have hbits : s.bits = 0 := by simpa [isNone] using h
    rw [contains, hbits, Nat.zero_testBit]
  · intro h
    by_contra hne
    have hbits : s.bits ≠ 0 := by simpa [isNone] using hne
    obtain ⟨i, hi⟩ := Nat.exists_testBit_of_ne_zero hbits
    have := h i
    rw [contains, hi] at this
    cases this

@[simp] theorem contains_union (s t : Places) (i : Nat) :
    (s.union t).contains i = (s.contains i || t.contains i) := Nat.testBit_or _ _ _

@[simp] theorem contains_inter (s t : Places) (i : Nat) :
    (s.inter t).contains i = (s.contains i && t.contains i) := Nat.testBit_and _ _ _

theorem contains_back (s : Places) (n i : Nat) :
    (s.back n).contains i = (decide (n ≤ i) && s.contains (i - n)) := Nat.testBit_shiftLeft _

theorem contains_upTo : (upTo n).contains i = decide (i ≤ n) := by
  rw [contains, upTo, Nat.shiftLeft_eq, Nat.one_mul, Nat.testBit_two_pow_sub_one]
  simp only [decide_eq_decide]
  omega

/-! ## Places that pass a test -/

theorem testBit_gather (test : Nat → Bool) (depth base i : Nat) :
    (gather test depth base).testBit i = (decide (i < 2 ^ depth) && test (base + i)) := by
  induction depth generalizing base i with
  | zero =>
    rw [gather]
    cases i with
    | zero => cases test base <;> simp
    | succ i => cases test base <;> simp [Nat.testBit_succ]
  | succ depth ih =>
    rw [gather, Nat.one_shiftLeft, Nat.testBit_or, Nat.testBit_shiftLeft, ih, ih]
    have hpow : 2 ^ (depth + 1) = 2 ^ depth + 2 ^ depth := by rw [Nat.pow_succ]; omega
    by_cases hlow : i < 2 ^ depth
    · have h1 : ¬ 2 ^ depth ≤ i := by omega
      have h2 : i < 2 ^ (depth + 1) := by omega
      simp [hlow, h1, h2]
    · have h1 : 2 ^ depth ≤ i := by omega
      have h2 : base + 2 ^ depth + (i - 2 ^ depth) = base + i := by omega
      have h3 : (i - 2 ^ depth < 2 ^ depth) ↔ i < 2 ^ (depth + 1) := by omega
      simp [hlow, h1, h2, h3]

theorem contains_ofTest (count : Nat) (test : Nat → Bool) (i : Nat) :
    (ofTest count test).contains i = (decide (i < count) && test i) := by
  rw [contains, ofTest, testBit_gather, Nat.zero_add]
  by_cases hi : i < count
  · have hlt : i < 2 ^ (count.log2 + 1) := Nat.lt_trans hi Nat.lt_log2_self
    simp [hi, hlt]
  · simp [hi]

/-! ## Steps over characters -/

/-- Whether adding two numbers carries into a bit. -/
def carries (a b i : Nat) : Bool := decide (2 ^ i ≤ a % 2 ^ i + b % 2 ^ i)

theorem carries_eq (a b : Nat) {i w : Nat} (h : i ≤ w) :
    BitVec.carry i (BitVec.ofNat w a) (BitVec.ofNat w b) false = carries a b i := by
  have hmod (x : Nat) : x % 2 ^ w % 2 ^ i = x % 2 ^ i := Nat.mod_mod_of_dvd x (Nat.pow_dvd_pow 2 h)
  simp [BitVec.carry, carries, hmod]

theorem testBit_add (a b i : Nat) :
    (a + b).testBit i = (a.testBit i ^^ (b.testBit i ^^ carries a b i)) := by
  have h := BitVec.getLsbD_add (Nat.lt_succ_self i) (BitVec.ofNat (i + 1) a) (BitVec.ofNat (i + 1) b)
  rw [← BitVec.ofNat_add, carries_eq a b (Nat.le_succ i)] at h
  simp only [BitVec.getLsbD_ofNat, Nat.lt_succ_self, decide_true, Bool.true_and] at h
  exact h

theorem carries_succ (a b i : Nat) :
    carries a b (i + 1) = (a.testBit i).atLeastTwo (b.testBit i) (carries a b i) := by
  have h := BitVec.carry_succ i (BitVec.ofNat (i + 1) a) (BitVec.ofNat (i + 1) b) false
  rw [carries_eq a b (Nat.le_refl _), carries_eq a b (Nat.le_succ i)] at h
  simp only [BitVec.getLsbD_ofNat, Nat.lt_succ_self, decide_true, Bool.true_and] at h
  exact h

theorem contains_flood_zero (behind s : Places) :
    (flood behind s).contains 0 = s.contains 0 := by
  simp only [flood, contains, Nat.testBit_or, Nat.testBit_xor, testBit_add, Nat.testBit_and]
  have h : carries (s.bits &&& behind.bits) behind.bits 0 = false := by simp [carries, Nat.mod_one]
  rw [h]
  cases s.bits.testBit 0 <;> cases behind.bits.testBit 0 <;> rfl

/-- A place gets into the set with the place behind its next character, if that is one of those that are
stepped over. -/
theorem contains_flood_succ (behind s : Places) (i : Nat) :
    (flood behind s).contains (i + 1)
      = (s.contains (i + 1) || (behind.contains i && (flood behind s).contains i)) := by
  simp only [flood, contains, Nat.testBit_or, Nat.testBit_xor, testBit_add, Nat.testBit_and,
    carries_succ, Bool.atLeastTwo]
  generalize carries (s.bits &&& behind.bits) behind.bits i = c
  cases s.bits.testBit i <;> cases behind.bits.testBit i <;> cases c <;>
    cases s.bits.testBit (i + 1) <;> cases behind.bits.testBit (i + 1) <;> rfl

/-- The places from which steps over the given characters lead into a set. -/
theorem contains_flood (behind s : Places) (i : Nat) :
    (flood behind s).contains i = true ↔
      ∃ j ≤ i, s.contains j = true ∧ ∀ k, j ≤ k → k < i → behind.contains k = true := by
  induction i with
  | zero =>
    rw [contains_flood_zero]
    constructor
    · intro h
      exact ⟨0, Nat.le_refl _, h, by omega⟩
    · rintro ⟨j, hj, h, -⟩
      rwa [Nat.le_zero.1 hj] at h
  | succ i ih =>
    rw [contains_flood_succ, Bool.or_eq_true, Bool.and_eq_true, ih]
    constructor
    · rintro (h | ⟨hb, j, hj, h, hall⟩)
      · exact ⟨i + 1, Nat.le_refl _, h, by omega⟩
      · refine ⟨j, by omega, h, fun k hk hlt => ?_⟩
        by_cases hki : k = i
        · exact hki ▸ hb
        · exact hall k hk (by omega)
    · rintro ⟨j, hj, h, hall⟩
      by_cases hji : j = i + 1
      · exact .inl (hji ▸ h)
      · exact .inr ⟨hall i (by omega) (Nat.lt_succ_self i), j, by omega, h,
          fun k hk hlt => hall k hk (by omega)⟩

theorem iterate_eq (step : Places → Places) (n : Nat) (s : Places) : iterate step n s = step^[n] s := by
  induction n generalizing s with
  | zero => rfl
  | succ n ih =>
    rw [iterate]
    split
    · next h => exact (Function.iterate_fixed h (n + 1)).symm
    · rw [ih, Function.iterate_succ_apply]

end Codemod.Text.Places
