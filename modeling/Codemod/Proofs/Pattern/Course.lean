/-
A pattern laid over a text finds the places from which it leads into a set by going back through the
pattern. For a pattern without loops these are the places from which it leads there (`contains_ways`), and
for rounds of such a pattern those from which any number of rounds does (`contains_rounds`).
-/
import Codemod.Proofs.Pattern.Leads
import Codemod.Proofs.Unicode.CharSet

namespace Codemod.Pattern

open Text Unicode

/-! ## What a sheet has noted -/

/-- A sheet of a text. -/
structure Sheet.Of (h : Sheet) (text : List Char) : Prop where
  chars : h.chars = text.reverse.toArray
  sets : ∀ b ∈ h.sets, b.2 = Sheet.behind h.chars b.1
  looks : ∀ b ∈ h.looks, b.2 = Sheet.holding h.chars b.1

theorem Sheet.of_ofText (text : List Char) (x : Node) : (Sheet.ofText text x).Of text where
  chars := rfl
  sets := by
    intro b hb
    obtain ⟨s, -, rfl⟩ := List.mem_map.1 hb
    rfl
  looks := by
    intro b hb
    obtain ⟨l, -, rfl⟩ := List.mem_map.1 hb
    rfl

section

variable {h : Sheet} {text : List Char} (hof : h.Of text) {c d : Cursor} {k : Places}
include hof

theorem placesOf_eq (s : CharSet) : h.placesOf s = Sheet.behind h.chars s := by
  unfold Sheet.placesOf
  split
  · next b hb =>
    have hmem := List.mem_of_find?_eq_some hb
    have hset : b.1 = s := by simpa using List.find?_some hb
    rw [hof.sets b hmem, hset]
  · rfl

theorem placesAt_eq (l : Look) : h.placesAt l = Sheet.holding h.chars l := by
  unfold Sheet.placesAt
  split
  · next b hb =>
    have hmem := List.mem_of_find?_eq_some hb
    have hlook : b.1 = l := by simpa using List.find?_some hb
    rw [hof.looks b hmem, hlook]
  · rfl

theorem contains_behind {a : Char} (hc : .start text ≤ c) (hnext : c.next? = some (a, d)) (s : CharSet) :
    (h.placesOf s).contains d.left = s.contains a := by
  obtain ⟨hle, -, hbefore⟩ := Cursor.on_text (hc.trans (Cursor.le_of_next? hnext))
  obtain ⟨hle', -, -⟩ := Cursor.on_text hc
  have hlt := Cursor.left_lt_of_next? hnext
  rw [Cursor.before_of_next? hnext] at hbefore
  rw [placesOf_eq hof, Sheet.behind, Places.contains_ofTest, hof.chars, List.getElem?_toArray, ← hbefore]
  simp only [List.size_toArray, List.length_reverse, Option.any_some, Bool.and_eq_right_iff_imp]
  intro _
  simp only [decide_eq_true_eq]
  omega

theorem contains_before (hc : .start text ≤ c) (s : CharSet) :
    (Course.before (h.placesOf s) k).contains c.left = true ↔
      ∃ a d, c.next? = some (a, d) ∧ s.contains a = true ∧ k.contains d.left = true := by
  have hback : (Course.before (h.placesOf s) k).contains c.left
      = (decide (1 ≤ c.left) && (k.contains (c.left - 1) && (h.placesOf s).contains (c.left - 1))) := by
    unfold Course.before
    split
    · next hnone => rw [Places.isNone_iff.1 hnone, Places.isNone_iff.1 hnone]; simp
    · rw [Places.contains_back, Places.contains_inter]
  rw [hback]
  cases hn : c.next? with
  | none =>
    have hzero : c.left = 0 := by rw [c.left_eq, Cursor.next?_eq_none.1 hn]; rfl
    simp [hzero]
  | some p =>
    obtain ⟨a, d⟩ := p
    rw [Cursor.left_of_next? hn, Nat.add_sub_cancel, contains_behind hof hc hn]
    constructor
    · intro hall
      simp only [Bool.and_eq_true] at hall
      exact ⟨a, d, rfl, hall.2.2, hall.2.1⟩
    · rintro ⟨a', d', heq, hs, hk⟩
      obtain ⟨rfl, rfl⟩ := Prod.mk.inj (Option.some.inj heq)
      simp [hs, hk]

theorem contains_word (cs : List Char) (hc : .start text ≤ c) :
    ((cs.map fun a => h.placesOf (.single a)).foldr Course.before k).contains c.left = true ↔
      cs.isPrefixOf c.ahead = true ∧ k.contains (c.advance cs.length).left = true := by
  induction cs generalizing c with
  | nil => simp
  | cons a cs ih =>
    rw [List.map_cons, List.foldr_cons, contains_before hof hc]
    constructor
    · rintro ⟨b, d, hnext, hb, hk⟩
      rw [CharSet.contains_single, beq_iff_eq] at hb
      subst hb
      obtain ⟨hpre, hk⟩ := (ih (hc.trans (Cursor.le_of_next? hnext))).1 hk
      rw [Cursor.ahead_of_next? hnext, List.isPrefixOf_cons_cons_self, List.length_cons,
        Cursor.advance_succ hnext]
      exact ⟨hpre, hk⟩
    · rintro ⟨hpre, hk⟩
      cases hahead : c.ahead with
      | nil => rw [hahead] at hpre; cases hpre
      | cons b rest =>
        rw [hahead, List.isPrefixOf_cons_cons, Bool.and_eq_true, beq_iff_eq] at hpre
        obtain ⟨rfl, hpre⟩ := hpre
        obtain ⟨d, hnext, hrest⟩ := Cursor.exists_next? hahead
        rw [List.length_cons, Cursor.advance_succ hnext] at hk
        refine ⟨a, d, hnext, by rw [CharSet.contains_single, beq_self_eq_true], ?_⟩
        exact (ih (hc.trans (Cursor.le_of_next? hnext))).2 ⟨hrest ▸ hpre, hk⟩

theorem contains_look (l : Look) (hc : .start text ≤ c) :
    (h.placesAt l).contains c.left = l.holds c.before c.ahead.head? := by
  obtain ⟨hle, hahead, hbefore⟩ := Cursor.on_text hc
  have hafter : (if c.left = 0 then none else h.chars[c.left - 1]?) = c.ahead.head? := by
    rw [hahead, List.head?_drop, hof.chars, List.getElem?_toArray]
    split
    · next hzero => rw [hzero, Nat.sub_zero, List.getElem?_eq_none (Nat.le_refl _)]
    · next hpos =>
      rw [List.getElem?_reverse (by omega)]
      congr 1
      omega
  rw [placesAt_eq hof, Sheet.holding, Places.contains_ofTest, hafter, hof.chars, List.getElem?_toArray,
    ← hbefore, List.size_toArray, List.length_reverse]
  simp only [Bool.and_eq_right_iff_imp]
  intro _
  simp only [decide_eq_true_eq]
  omega

/-! ## Going back through a pattern -/

/-- The places from which a pattern without loops leads into a set. -/
theorem contains_ways {x : Node} (hx : x.flat = true) (size : Nat) (looping : Bool) {t : Trail}
    (ht : .start text ≤ t.place) :
    ((h.lay x).ways size looping k).contains t.place.left = true ↔
      ∃ u, x.Leads t u ∧ k.contains u.place.left = true := by
  induction x generalizing looping k t with
  | empty => simp [Sheet.lay, Course.ways, Node.Leads]
  | word cs =>
    rw [Sheet.lay, Course.ways, contains_word hof cs ht]
    constructor
    · rintro ⟨hpre, hk⟩
      exact ⟨_, ⟨hpre, rfl⟩, hk⟩
    · rintro ⟨u, ⟨hpre, rfl⟩, hk⟩
      exact ⟨hpre, hk⟩
  | chars s =>
    rw [Sheet.lay, Course.ways, contains_before hof ht]
    constructor
    · rintro ⟨a, d, hnext, hs, hk⟩
      exact ⟨_, ⟨a, d, hnext, hs, rfl⟩, hk⟩
    · rintro ⟨u, ⟨a, d, hnext, hs, rfl⟩, hk⟩
      exact ⟨a, d, hnext, hs, hk⟩
  | look l =>
    rw [Sheet.lay, Course.ways, Places.contains_inter, contains_look hof l ht, Bool.and_eq_true]
    constructor
    · rintro ⟨hk, hl⟩
      exact ⟨t, ⟨hl, rfl⟩, hk⟩
    · rintro ⟨u, ⟨hl, rfl⟩, hk⟩
      exact ⟨hk, hl⟩
  | group i x ih =>
    rw [Sheet.lay, Course.ways, ih hx looping ht]
    constructor
    · rintro ⟨v, hv, hk⟩
      exact ⟨_, ⟨v, hv, rfl⟩, hk⟩
    · rintro ⟨u, ⟨v, hv, rfl⟩, hk⟩
      exact ⟨v, hv, hk⟩
  | seq x y ihx ihy =>
    simp only [Node.flat, Bool.and_eq_true] at hx
    rw [Sheet.lay, Course.ways, ihx hx.1 false ht]
    constructor
    · rintro ⟨v, hv, hk⟩
      obtain ⟨u, hu, hk⟩ := (ihy hx.2 false (ht.trans hv.le)).1 hk
      exact ⟨u, ⟨v, hv, hu⟩, hk⟩
    · rintro ⟨u, ⟨v, hv, hu⟩, hk⟩
      exact ⟨v, hv, (ihy hx.2 false (ht.trans hv.le)).2 ⟨u, hu, hk⟩⟩
  | alt x y ihx ihy =>
    simp only [Node.flat, Bool.and_eq_true] at hx
    rw [Sheet.lay, Course.ways, Places.contains_union, Bool.or_eq_true, ihx hx.1 looping ht,
      ihy hx.2 looping ht]
    constructor
    · rintro (⟨u, hu, hk⟩ | ⟨u, hu, hk⟩)
      · exact ⟨u, .inl hu, hk⟩
      · exact ⟨u, .inr hu, hk⟩
    · rintro ⟨u, hu | hu, hk⟩
      · exact .inl ⟨u, hu, hk⟩
      · exact .inr ⟨u, hu, hk⟩
  | loop x low high greedy => cases hx

/-- The characters that are rounds of their own. -/
theorem CharSet.contains_singles {x : Node} (hx : x.flat = true) {t : Trail} {a : Char}
    (ht : .start text ≤ t.place) (hnext : t.place.next? = some (a, d))
    (hd : (h.lay x).singles.contains d.left = true) : ∃ u, x.Leads t u ∧ u.place = d := by
  induction x generalizing t with
  | empty | look => simp [Sheet.lay, Course.singles] at hd
  | word cs =>
    match cs, hd with
    | [], hd => simp [Sheet.lay, Course.singles] at hd
    | [b], hd =>
      have hb : (h.placesOf (.single b)).contains d.left = true := hd
      rw [contains_behind hof ht hnext, CharSet.contains_single, beq_iff_eq] at hb
      subst hb
      refine ⟨_, ⟨?_, rfl⟩, Cursor.advance_succ hnext 0⟩
      rw [Cursor.ahead_of_next? hnext, List.isPrefixOf_cons_cons_self]
      rfl
    | b :: b' :: cs, hd => simp [Sheet.lay, Course.singles] at hd
  | chars s =>
    have hs : (h.placesOf s).contains d.left = true := hd
    rw [contains_behind hof ht hnext] at hs
    exact ⟨_, ⟨a, d, hnext, hs, rfl⟩, rfl⟩
  | group i x ih =>
    obtain ⟨u, hu, hplace⟩ := ih hx ht hnext hd
    exact ⟨_, ⟨u, hu, rfl⟩, hplace⟩
  | seq x y => simp [Sheet.lay, Course.singles] at hd
  | alt x y ihx ihy =>
    simp only [Node.flat, Bool.and_eq_true] at hx
    rw [Sheet.lay, Course.singles, Places.contains_union, Bool.or_eq_true] at hd
    rcases hd with hd | hd
    · obtain ⟨u, hu, hplace⟩ := ihx hx.1 ht hnext hd
      exact ⟨u, .inl hu, hplace⟩
    · obtain ⟨u, hu, hplace⟩ := ihy hx.2 ht hnext hd
      exact ⟨u, .inr hu, hplace⟩
  | loop x low high greedy => cases hx

end

/-! ## Rounds -/

/-- One step of the search for rounds. -/
def Course.widen (c : Course) (size : Nat) (s : Places) : Places :=
  .flood c.singles (s.union (c.ways size true s))

theorem contains_flood_of_contains {behind s : Places} {i : Nat} (hi : s.contains i = true) :
    (Places.flood behind s).contains i = true :=
  (Places.contains_flood _ _ _).2 ⟨i, Nat.le_refl _, hi, by omega⟩

theorem Rounds.length_le {x : Node} (hsolid : x.nullable = false) {n : Nat} {t u : Trail}
    (h : Rounds x.Leads n t u) : n + u.place.left ≤ t.place.left := by
  induction n generalizing t with
  | zero =>
    rw [show u = t from h]
    omega
  | succ n ih =>
    obtain ⟨w, hw, hrest⟩ := h
    have h1 := hw.left_lt hsolid
    have h2 := ih hrest
    omega

/-- Every place of a set leads by some rounds into another set. -/
def RoundsInto (text : List Char) (x : Node) (s k : Places) : Prop :=
  ∀ t : Trail, .start text ≤ t.place → s.contains t.place.left = true →
    ∃ n u, Rounds x.Leads n t u ∧ k.contains u.place.left = true

section

variable {h : Sheet} {text : List Char} (hof : h.Of text) {x : Node} (hx : x.flat = true) {s k : Places}
include hof hx

theorem roundsInto_flood (hs : RoundsInto text x s k) :
    RoundsInto text x (.flood (h.lay x).singles s) k := by
  intro t
  induction hn : t.place.left generalizing t with
  | zero =>
    intro ht hin
    rw [Places.contains_flood_zero, ← hn] at hin
    exact hs t ht hin
  | succ n ih =>
    intro ht hin
    rw [Places.contains_flood_succ, Bool.or_eq_true, Bool.and_eq_true] at hin
    rcases hin with hin | ⟨hsingle, hin⟩
    · rw [← hn] at hin
      exact hs t ht hin
    · cases hahead : t.place.ahead with
      | nil =>
        rw [t.place.left_eq, hahead] at hn
        cases hn
      | cons a rest =>
        obtain ⟨d, hnext, hrest⟩ := Cursor.exists_next? hahead
        have hd : d.left = n := by
          rw [t.place.left_eq, hahead, List.length_cons] at hn
          rw [d.left_eq, hrest]
          omega
        obtain ⟨u, hu, rfl⟩ := CharSet.contains_singles hof hx ht hnext (hd ▸ hsingle)
        obtain ⟨m, v, hv, hk⟩ := ih u hd (ht.trans hu.le) hin
        exact ⟨m + 1, v, ⟨u, hu, hv⟩, hk⟩

theorem roundsInto_widen (size : Nat) (hs : RoundsInto text x s k) :
    RoundsInto text x ((h.lay x).widen size s) k := by
  refine roundsInto_flood hof hx fun t ht hin => ?_
  rw [Places.contains_union, Bool.or_eq_true] at hin
  rcases hin with hin | hin
  · exact hs t ht hin
  · obtain ⟨u, hu, hin⟩ := (contains_ways hof hx size true ht).1 hin
    obtain ⟨n, v, hv, hk⟩ := hs u (ht.trans hu.le) hin
    exact ⟨n + 1, v, ⟨u, hu, hv⟩, hk⟩

theorem roundsInto_iterate (size m : Nat) :
    RoundsInto text x (((h.lay x).widen size)^[m] (.flood (h.lay x).singles k)) k := by
  induction m with
  | zero => exact roundsInto_flood hof hx fun t _ hin => ⟨0, t, rfl, hin⟩
  | succ m ih =>
    rw [Function.iterate_succ_apply']
    exact roundsInto_widen hof hx size ih

theorem contains_iterate (size : Nat) {m n : Nat} {t u : Trail} (ht : .start text ≤ t.place) (hn : n ≤ m)
    (hrounds : Rounds x.Leads n t u) (hk : k.contains u.place.left = true) :
    (((h.lay x).widen size)^[m] (.flood (h.lay x).singles k)).contains t.place.left = true := by
  induction m generalizing n t with
  | zero =>
    obtain rfl : n = 0 := by omega
    rw [← show u = t from hrounds]
    exact contains_flood_of_contains hk
  | succ m ih =>
    rw [Function.iterate_succ_apply']
    refine contains_flood_of_contains ?_
    rw [Places.contains_union, Bool.or_eq_true]
    cases n with
    | zero => exact .inl (ih ht (Nat.zero_le m) hrounds)
    | succ n =>
      obtain ⟨w, hw, hrest⟩ := hrounds
      have hin := ih (ht.trans hw.le) (Nat.le_of_succ_le_succ hn) hrest
      exact .inr ((contains_ways hof hx size true ht).2 ⟨w, hw, hin⟩)

/-- The places from which any number of rounds leads into a set. -/
theorem contains_rounds (hsolid : x.nullable = false) {size : Nat} (hsize : text.length ≤ size) {t : Trail}
    (ht : .start text ≤ t.place) :
    (Course.rounds size (h.lay x).singles ((h.lay x).ways size true) k).contains t.place.left = true ↔
      ∃ n u, Rounds x.Leads n t u ∧ k.contains u.place.left = true := by
  unfold Course.rounds
  split
  · next hnone =>
    have hfalse := Places.isNone_iff.1 hnone
    simp [hfalse]
  · rw [Places.iterate_eq]
    constructor
    · exact roundsInto_iterate hof hx size size t ht
    · rintro ⟨n, u, hrounds, hk⟩
      have hlen := hrounds.length_le hsolid
      have hle := (Cursor.on_text ht).1
      exact contains_iterate hof hx size ht (by omega) hrounds hk

end

end Codemod.Pattern
