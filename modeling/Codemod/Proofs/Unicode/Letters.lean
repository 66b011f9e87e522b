/-
Small letters are alphabetic (`alphabetic_lower`), and words are written with them (`words_lower`), but with no
sign that comes before the digits (`words_beyond`). A property is held as what tells it apart from a join of
categories, so that complements come in: the gaps between ranges that lie one behind the other hold what the
ranges do not (`not_covers_gaps`, `memRanges_gaps`).
-/
import Codemod.Proofs.Text.Bytes
import Codemod.Proofs.Unicode.CharSet
import Codemod.Unicode.Class
import Codemod.Unicode.Latest

namespace Codemod.Unicode

namespace CharSet

/-- Ranges one behind the other, from a code on. -/
def Chained : Nat → List (Nat × Nat) → Prop
  | _, [] => True
  | next, (a, b) :: rest => next ≤ a ∧ a ≤ b ∧ Chained (b + 1) rest

/-- No range ends before it starts. -/
def Ordered (l : List (Nat × Nat)) : Prop := ∀ r ∈ l, r.1 ≤ r.2

section

variable {n next : Nat} {l : List (Nat × Nat)} {s t : CharSet} {c : Char}

theorem Chained.mono {m : Nat} (h : Chained next l) (hle : m ≤ next) : Chained m l := by
  cases l with
  | nil => trivial
  | cons r l => exact ⟨Nat.le_trans hle h.1, h.2⟩

theorem Chained.le (h : Chained next l) (hn : Covers l n) : next ≤ n := by
  induction l generalizing next with
  | nil => simp [Covers] at hn
  | cons r l ih =>
    obtain ⟨a, b⟩ := r
    obtain ⟨hnext, hab, hrest⟩ := h
    rcases covers_cons.1 hn with hin | hn
    · omega
    · have := ih hrest hn
      omega

theorem Chained.ordered (h : Chained next l) : Ordered l := by
  induction l generalizing next with
  | nil => nofun
  | cons r l ih => exact List.forall_mem_cons.2 ⟨h.2.1, ih h.2.2⟩

theorem Chained.le_first (h : Chained next l) : ∀ r ∈ l, next ≤ r.1 := fun r hr =>
  h.le ⟨r, hr, Nat.le_refl _, h.ordered r hr⟩

theorem chained_coalesce (hl : Rising l) (ho : Ordered l) (hnext : ∀ r ∈ l, next ≤ r.1) :
    Chained next (coalesce l) := by
  fun_induction coalesce l generalizing next with
  | case1 => trivial
  | case2 r => exact ⟨hnext r (by simp), ho r (by simp), trivial⟩
  | case3 a b c d rest htouch ih =>
    obtain ⟨hfirst, hrest⟩ := List.pairwise_cons.1 hl
    have hab : a ≤ b := ho (a, b) (by simp)
    refine ih ?_ ?_ ?_
    · exact List.pairwise_cons.2 ⟨fun r hr => hfirst r (by simp [hr]), (List.pairwise_cons.1 hrest).2⟩
    · refine List.forall_mem_cons.2 ⟨Nat.le_trans hab (Nat.le_max_left b d), fun r hr => ho r (by simp [hr])⟩
    · exact List.forall_mem_cons.2 ⟨hnext (a, b) (by simp), fun r hr => hnext r (by simp [hr])⟩
  | case4 a b c d rest hgap ih =>
    obtain ⟨hfirst, hrest⟩ := List.pairwise_cons.1 hl
    refine ⟨hnext (a, b) (by simp), ho (a, b) (by simp), ih hrest (fun r hr => ho r (by simp [hr])) ?_⟩
    intro r hr
    have hcr : c ≤ r.1 := by
      rcases List.mem_cons.1 hr with rfl | hr
      · exact Nat.le_refl c
      · exact (List.pairwise_cons.1 hrest).1 r hr
    omega

theorem chained_ofRanges (ho : Ordered l) (hnext : ∀ r ∈ l, next ≤ r.1) : Chained next (ofRanges l).ranges := by
  have hperm := List.mergeSort_perm l fun r s => decide (r.1 ≤ s.1)
  exact chained_coalesce (rising_mergeSort l) (fun r hr => ho r (hperm.mem_iff.1 hr))
    fun r hr => hnext r (hperm.mem_iff.1 hr)

theorem chained_unions {ss : List CharSet} (h : ∀ s ∈ ss, Chained next s.ranges) :
    Chained next (unions ss).ranges := by
  refine chained_ofRanges (fun r hr => ?_) fun r hr => ?_
  · obtain ⟨s, hs, hr⟩ := List.mem_flatMap.1 hr
    exact (h s hs).ordered r hr
  · obtain ⟨s, hs, hr⟩ := List.mem_flatMap.1 hr
    exact (h s hs).le_first r hr

theorem chained_gaps (h : Chained next l) : Chained next (gaps next l) := by
  induction l generalizing next with
  | nil =>
    unfold gaps
    split
    · next hle => exact ⟨Nat.le_refl _, hle, trivial⟩
    · trivial
  | cons r l ih =>
    obtain ⟨a, b⟩ := r
    obtain ⟨hnext, hab, hrest⟩ := h
    have htail := (ih hrest).mono (m := a) (by omega)
    unfold gaps
    split
    · exact ⟨Nat.le_refl _, by omega, htail.mono (by omega)⟩
    · exact htail.mono hnext

/-- The gaps between ranges hold what the ranges do not. -/
theorem not_covers_gaps (h : Chained next l) (hn : Covers l n) : ¬ Covers (gaps next l) n := by
  induction l generalizing next with
  | nil => simp [Covers] at hn
  | cons r l ih =>
    obtain ⟨a, b⟩ := r
    obtain ⟨hnext, hab, hrest⟩ := h
    have htail : ¬ Covers (gaps (b + 1) l) n := by
      rcases covers_cons.1 hn with hin | hn
      · intro hgap
        have := (chained_gaps hrest).le hgap
        omega
      · exact ih hrest hn
    have han : a ≤ n := by
      rcases covers_cons.1 hn with hin | hn
      · exact hin.1
      · have := hrest.le hn
        omega
    unfold gaps
    split
    · rw [covers_cons]
      rintro (hin | hgap)
      · omega
      · exact htail hgap
    · exact htail

theorem memRanges_gaps (hnext : next ≤ n) (hlast : n ≤ lastCode) (hn : ¬ Covers l n) :
    memRanges n (gaps next l) = true := by
  induction l generalizing next with
  | nil =>
    rw [gaps, if_pos (Nat.le_trans hnext hlast)]
    simp [memRanges, hlast, hnext]
  | cons r l ih =>
    obtain ⟨a, b⟩ := r
    rw [covers_cons, not_or] at hn
    unfold gaps
    split
    · next hgap =>
      rw [memRanges, if_neg (by omega)]
      split
      · rfl
      · exact ih (by omega) hn.2
    · exact ih (by omega) hn.2

/-- What is in the one set and not in the other is in their symmetric difference. -/
theorem contains_symmDiff (hs : Chained 0 s.ranges) (ht : Chained 0 t.ranges) (hc : s.contains c = true)
    (hnot : ¬ Covers t.ranges c.toNat) : (s.symmDiff t).contains c = true := by
  have hlast : c.toNat ≤ lastCode := Text.toNat_le c
  have hdiff : (s.diff t).contains c = true := by
    refine memRanges_gaps (Nat.zero_le _) hlast ?_
    rw [union, covers_ofRanges]
    rintro ⟨r, hr, hin⟩
    rcases List.mem_append.1 hr with hr | hr
    · exact not_covers_gaps hs (covers_of_memRanges hc) ⟨r, hr, hin⟩
    · have hgap := covers_of_memRanges (memRanges_gaps (Nat.zero_le _) hlast hnot)
      exact not_covers_gaps (chained_gaps ht) hgap ⟨r, hr, hin⟩
  rw [symmDiff, union, contains, memRanges_ofRanges]
  obtain ⟨r, hr, hin⟩ := covers_of_memRanges hdiff
  exact ⟨r, List.mem_append_left _ hr, hin⟩

/-- What is not in the one set is not in what tells it from another. -/
theorem not_covers_diff (hs : Chained 0 s.ranges) (ht : Chained 0 t.ranges) (hn : n ≤ lastCode)
    (hnot : ¬ Covers s.ranges n) : ¬ Covers (s.diff t).ranges n := by
  have hordered : Ordered (s.compl.ranges ++ t.compl.compl.ranges) := List.forall_mem_append.2
    ⟨(chained_gaps hs).ordered, (chained_gaps (chained_gaps ht)).ordered⟩
  refine not_covers_gaps (chained_ofRanges hordered fun _ _ => Nat.zero_le _) ?_
  obtain ⟨r, hr, hin⟩ := covers_of_memRanges (memRanges_gaps (Nat.zero_le n) hn hnot)
  exact covers_ofRanges.2 ⟨r, List.mem_append_left _ hr, hin⟩

/-- What is in neither set is not in their symmetric difference. -/
theorem not_covers_symmDiff (hs : Chained 0 s.ranges) (ht : Chained 0 t.ranges) (hn : n ≤ lastCode)
    (hns : ¬ Covers s.ranges n) (hnt : ¬ Covers t.ranges n) : ¬ Covers (s.symmDiff t).ranges n := by
  rw [symmDiff, union, covers_ofRanges]
  rintro ⟨r, hr, hin⟩
  rcases List.mem_append.1 hr with hr | hr
  · exact not_covers_diff hs ht hn hns ⟨r, hr, hin⟩
  · exact not_covers_diff ht hs hn hnt ⟨r, hr, hin⟩

end

/-! ## Tables -/

/-- The ranges that a table spells. -/
def spelled (cs : List Char) : List (Nat × Nat) :=
  let (word, words) := cs.foldr
    (fun c (word, words) =>
      if c == ' ' || c == '\n' then ([], if word.isEmpty then words else word :: words)
      else (c :: word, words))
    ([], [])
  (if word.isEmpty then words else word :: words).map fun word =>
    match word.span (· != '-') with
    | (a, _ :: b) => (readHex a, readHex b)
    | (a, []) => (readHex a, readHex a)

theorem ofTable_ofList (cs : List Char) : ofTable (String.ofList cs) = ofRanges (spelled cs) := by
  rw [ofTable, tableWords, String.toList_ofList]
  rfl

theorem chained_ofTable {text : String} {cs : List Char} {next : Nat} (htext : text = String.ofList cs)
    (h : (spelled cs).all (fun r => decide (next ≤ r.1 ∧ r.1 ≤ r.2)) = true) :
    Chained next (ofTable text).ranges := by
  have hrange := fun r hr => of_decide_eq_true (List.all_eq_true.1 h r hr)
  rw [htext, ofTable_ofList]
  exact chained_ofRanges (fun r hr => (hrange r hr).2) fun r hr => (hrange r hr).1

end CharSet

open CharSet

/-- The categories that alphabetic characters have. -/
def letterCategories : List String := ["lu", "ll", "lt", "lm", "lo", "nl"]

/-- The other categories that the characters of words have. -/
def wordCategories : List String := ["mn", "mc", "me", "nd", "pc"]

set_option maxRecDepth 100000 in
/-- Both begin with the digits, or behind them. -/
theorem chained_categories : ∀ name ∈ letterCategories ++ wordCategories, ∀ s, categoryOf? name = some s →
    Chained 0x30 s.ranges := by
  have of {name text : String} {cs : List Char} (hname : categoryOf? name = some (ofTable text))
      (htext : text = String.ofList cs)
      (h : (spelled cs).all (fun r => decide (0x30 ≤ r.1 ∧ r.1 ≤ r.2)) = true) (s : CharSet)
      (hs : categoryOf? name = some s) : Chained 0x30 s.ranges := by
    rw [hname] at hs
    exact Option.some.inj hs ▸ chained_ofTable htext h
  simp only [letterCategories, wordCategories, List.cons_append, List.nil_append, List.forall_mem_cons]
  refine ⟨of rfl rfl (by decide +kernel), of rfl rfl (by decide +kernel), of rfl rfl (by decide +kernel),
    of rfl rfl (by decide +kernel), of rfl rfl (by decide +kernel), of rfl rfl (by decide +kernel),
    of rfl rfl (by decide +kernel), of rfl rfl (by decide +kernel), of rfl rfl (by decide +kernel),
    of rfl rfl (by decide +kernel), of rfl rfl (by decide +kernel), nofun⟩

theorem chained_joinCategories {names : List String} (h : names ⊆ letterCategories ++ wordCategories) :
    Chained 0x30 (joinCategories names).ranges := by
  refine chained_unions fun s hs => ?_
  obtain ⟨name, hname, hs⟩ := List.mem_filterMap.1 hs
  exact chained_categories name (h hname) s hs

set_option maxRecDepth 100000 in
/-- The small letters come first in the table of their category. -/
theorem contains_lowerLetter {c : Char} (hc : 0x61 ≤ c.toNat ∧ c.toNat ≤ 0x7A) :
    ∃ s, categoryOf? "ll" = some s ∧ s.contains c = true := by
  obtain ⟨text, rest, hname, htext⟩ : ∃ text rest, categoryOf? "ll" = some (ofTable text) ∧
      text = String.ofList ('6' :: '1' :: '-' :: '7' :: 'A' :: ' ' :: rest) := ⟨_, _, rfl, rfl⟩
  obtain ⟨more, hmore⟩ : ∃ more, spelled ('6' :: '1' :: '-' :: '7' :: 'A' :: ' ' :: rest) = (0x61, 0x7A) :: more :=
    ⟨_, rfl⟩
  refine ⟨_, hname, ?_⟩
  rw [htext, ofTable_ofList, contains, memRanges_ofRanges, hmore]
  exact ⟨_, List.mem_cons_self, hc⟩

set_option maxRecDepth 100000 in
/-- What tells alphabetic characters from letters begins behind the small ones. -/
theorem property_alphabetic : ∃ p : Property, property? "alphabetic" = some p.toSet ∧
    p.categories = letterCategories ∧ Chained 0x7B (ofTable p.exceptions).ranges := by
  obtain ⟨p, cs, hproperty, hcategories, htext, hbeyond⟩ : ∃ (p : Property) (cs : List Char),
      property? "alphabetic" = some p.toSet ∧ p.categories = letterCategories ∧
      p.exceptions = String.ofList cs ∧ (spelled cs).all (fun r => decide (0x7B ≤ r.1 ∧ r.1 ≤ r.2)) = true := by
    refine ⟨_, _, rfl, rfl, rfl, ?_⟩
    decide +kernel
  exact ⟨p, hproperty, hcategories, chained_ofTable htext hbeyond⟩

theorem contains_property_lower {c : Char} (hc : 0x61 ≤ c.toNat ∧ c.toNat ≤ 0x7A) :
    ((property? "alphabetic").getD .empty).contains c = true := by
  obtain ⟨p, hproperty, hcategories, hexceptions⟩ := property_alphabetic
  have hletters : (joinCategories p.categories).contains c = true := by
    obtain ⟨s, hname, hs⟩ := contains_lowerLetter hc
    rw [hcategories]
    exact contains_unions (List.mem_filterMap.2 ⟨"ll", by simp [letterCategories], hname⟩) hs
  have hjoined : Chained 0x30 (joinCategories p.categories).ranges :=
    chained_joinCategories (hcategories ▸ List.subset_append_left _ _)
  rw [hproperty, Option.getD_some]
  refine contains_symmDiff (hjoined.mono (Nat.zero_le _)) (hexceptions.mono (Nat.zero_le _)) hletters fun hin => ?_
  have := hexceptions.le hin
  omega

/-- **Small letters are alphabetic.** -/
theorem alphabetic_lower {c : Char} (hc : 0x61 ≤ c.toNat ∧ c.toNat ≤ 0x7A) : alphabetic.contains c = true := by
  rw [alphabetic, union, contains, memRanges_ofRanges]
  obtain ⟨r, hr, hin⟩ := covers_of_memRanges (contains_property_lower hc)
  exact ⟨r, List.mem_append_left _ hr, hin⟩

/-- Words are written with small letters. -/
theorem words_lower {c : Char} (hc : 0x61 ≤ c.toNat ∧ c.toNat ≤ 0x7A) : words.contains c = true := by
  unfold words
  exact contains_unions List.mem_cons_self (contains_property_lower hc)

/-- A property of some of these categories, with exceptions behind the digits, has nothing before them. -/
theorem Property.le_of_covers {p : Property} (hcategories : p.categories ⊆ letterCategories ++ wordCategories)
    (hexceptions : Chained 0x30 (ofTable p.exceptions).ranges) {n : Nat} (hn : n ≤ lastCode)
    (h : Covers p.toSet.ranges n) : 0x30 ≤ n := by
  have hjoined := chained_joinCategories hcategories
  by_contra hlow
  exact not_covers_symmDiff (hjoined.mono (Nat.zero_le _)) (hexceptions.mono (Nat.zero_le _)) hn
    (fun hin => hlow (hjoined.le hin)) (fun hin => hlow (hexceptions.le hin)) h

/-- **No sign before the digits** is in a word. -/
theorem words_beyond {c : Char} (h : words.contains c = true) : 0x30 ≤ c.toNat := by
  have hlast : c.toNat ≤ lastCode := Text.toNat_le c
  unfold words at h
  rw [unions, contains, memRanges_ofRanges] at h
  obtain ⟨r, hr, hin⟩ := h
  obtain ⟨s, hs, hr⟩ := List.mem_flatMap.1 hr
  have hcovers : Covers s.ranges c.toNat := ⟨r, hr, hin⟩
  simp only [List.mem_cons, List.not_mem_nil, or_false] at hs
  rcases hs with rfl | rfl | rfl
  · obtain ⟨p, hproperty, hcategories, hexceptions⟩ := property_alphabetic
    rw [hproperty, Option.getD_some] at hcovers
    exact p.le_of_covers (hcategories ▸ List.subset_append_left _ _) (hexceptions.mono (by decide)) hlast hcovers
  · exact (chained_joinCategories (List.subset_append_right _ wordCategories)).le hcovers
  · obtain ⟨p, hproperty, hcategories, hexceptions⟩ : ∃ p : Property, property? "joincontrol" = some p.toSet ∧
        p.categories = [] ∧ p.exceptions = String.ofList ['2', '0', '0', 'C', '-', '2', '0', '0', 'D'] :=
      ⟨_, rfl, rfl, rfl⟩
    rw [hproperty, Option.getD_some] at hcovers
    exact p.le_of_covers (hcategories ▸ List.nil_subset _) (chained_ofTable hexceptions (by decide)) hlast hcovers

end Codemod.Unicode
