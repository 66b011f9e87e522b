/-
The nodes that a pattern is built of match what they are meant to: `cat` and `concat` one part after the
other, `either` one of several, `ofSet` one character of a set. Joining neighbouring words and turning
characters into sets changes nothing.
-/
import Codemod.Proofs.Pattern.Leads
import Codemod.Proofs.Unicode.CharSet

namespace Codemod.Pattern

open Text Unicode

namespace Node

variable {x y : Node} {xs ys : List Node} {t u v : Trail}

/-- Several nodes, one after the other. -/
def LeadsAll : List Node → Trail → Trail → Prop
  | [], t, v => v = t
  | x :: xs, t, v => ∃ u, x.Leads t u ∧ LeadsAll xs u v

theorem leadsAll_append : LeadsAll (xs ++ ys) t v ↔ ∃ u, LeadsAll xs t u ∧ LeadsAll ys u v := by
  induction xs generalizing t with
  | nil => simp [LeadsAll]
  | cons x xs ih =>
    simp only [List.cons_append, LeadsAll, ih]
    constructor
    · rintro ⟨w, hw, u, hu, hv⟩
      exact ⟨u, ⟨w, hw, hu⟩, hv⟩
    · rintro ⟨u, ⟨w, hw, hu⟩, hv⟩
      exact ⟨w, hw, u, hu, hv⟩

theorem leads_word_append (cs ds : List Char) :
    (word (cs ++ ds)).Leads t v ↔ ∃ u, (word cs).Leads t u ∧ (word ds).Leads u v := by
  simp only [Leads, List.isPrefixOf_iff_prefix]
  constructor
  · rintro ⟨⟨rest, hrest⟩, rfl⟩
    refine ⟨_, ⟨⟨ds ++ rest, by rw [← hrest, List.append_assoc]⟩, rfl⟩, ⟨rest, ?_⟩, ?_⟩
    · rw [Cursor.ahead_advance, ← hrest, List.append_assoc, List.drop_left]
    · rw [List.length_append, Cursor.advance_add]
  · rintro ⟨u, ⟨⟨rest, hrest⟩, rfl⟩, ⟨more, hmore⟩, rfl⟩
    rw [Cursor.ahead_advance, ← hrest, List.drop_left] at hmore
    refine ⟨⟨more, by rw [List.append_assoc, hmore, hrest]⟩, ?_⟩
    rw [List.length_append, Cursor.advance_add]

/-! ## One after the other -/

theorem leads_join : (join x y).Leads t v ↔ ∃ u, x.Leads t u ∧ y.Leads u v := by
  unfold join
  split
  · simp [Leads]
  · exact leads_word_append _ _
  · next cs ds z =>
    show (∃ u, (word (cs ++ ds)).Leads t u ∧ z.Leads u v) ↔
      ∃ u, (word cs).Leads t u ∧ ∃ w, (word ds).Leads u w ∧ z.Leads w v
    constructor
    · rintro ⟨w, hw, hz⟩
      obtain ⟨u, hu, hw⟩ := (leads_word_append cs ds).1 hw
      exact ⟨u, hu, w, hw, hz⟩
    · rintro ⟨u, hu, w, hw, hz⟩
      exact ⟨w, (leads_word_append cs ds).2 ⟨u, hu, hw⟩, hz⟩
  · rfl

theorem leads_cat : (cat x y).Leads t v ↔ ∃ u, x.Leads t u ∧ y.Leads u v := by
  fun_induction cat x y generalizing t with
  | case1 y => simp [Leads]
  | case2 y a b ih =>
    rw [leads_join]
    constructor
    · rintro ⟨u, hu, hv⟩
      obtain ⟨w, hw, hv⟩ := ih.1 hv
      exact ⟨w, ⟨u, hu, hw⟩, hv⟩
    · rintro ⟨w, ⟨u, hu, hw⟩, hv⟩
      exact ⟨u, hu, ih.2 ⟨w, hw, hv⟩⟩
  | case3 => exact leads_join

theorem leads_concat : (concat xs).Leads t v ↔ LeadsAll xs t v := by
  induction xs generalizing t with
  | nil => rfl
  | cons x xs ih =>
    rw [concat, List.foldr_cons, leads_cat]
    exact exists_congr fun u => and_congr_right fun _ => ih

theorem simple_join (hx : x.simple = true) (hy : y.simple = true) : (join x y).simple = true := by
  unfold join
  split
  · exact hx
  · rfl
  · simpa [simple] using hy
  · simp [simple, hx, hy]

theorem simple_cat (hx : x.simple = true) (hy : y.simple = true) : (cat x y).simple = true := by
  fun_induction cat x y with
  | case1 y => exact hy
  | case2 y a b ih =>
    simp only [simple, Bool.and_eq_true] at hx
    exact simple_join hx.1 (ih hx.2 hy)
  | case3 => exact simple_join hx hy

theorem simple_concat (h : ∀ x ∈ xs, x.simple = true) : (concat xs).simple = true := by
  induction xs with
  | nil => rfl
  | cons x xs ih =>
    obtain ⟨hx, hxs⟩ := List.forall_mem_cons.1 h
    exact simple_cat hx (ih hxs)

theorem nullable_join : (join x y).nullable = (x.nullable && y.nullable) := by
  unfold join
  split
  · simp [nullable]
  · next cs ds => cases cs <;> simp [nullable]
  · next cs ds z => cases cs <;> simp [nullable]
  · rfl

theorem nullable_cat : (cat x y).nullable = (x.nullable && y.nullable) := by
  fun_induction cat x y with
  | case1 y => simp [nullable]
  | case2 y a b ih => rw [nullable_join, ih, nullable, Bool.and_assoc]
  | case3 => exact nullable_join

theorem nullable_concat (hx : x ∈ xs) (h : x.nullable = false) : (concat xs).nullable = false := by
  induction xs with
  | nil => cases hx
  | cons y ys ih =>
    rw [concat, List.foldr_cons, nullable_cat, Bool.and_eq_false_iff]
    rcases List.mem_cons.1 hx with rfl | hx
    · exact .inl h
    · exact .inr (ih hx)

/-- A group or a condition stays a part of its own in front of what cannot match the empty text. -/
theorem concat_eq_seq (hx : (∃ i z, x = group i z) ∨ ∃ l, x = look l) (hxs : (concat xs).nullable = false) :
    concat (x :: xs) = seq x (concat xs) := by
  have hne : concat xs ≠ empty := by
    intro h
    rw [h] at hxs
    cases hxs
  have hjoin (z : Node) (hz : z ≠ empty) : join x z = seq x z := by
    unfold join
    split
    · exact absurd rfl hz
    · rcases hx with ⟨i, y, h⟩ | ⟨l, h⟩ <;> cases h
    · rcases hx with ⟨i, y, h⟩ | ⟨l, h⟩ <;> cases h
    · rfl
  rcases hx with ⟨i, y, rfl⟩ | ⟨l, rfl⟩
  · exact hjoin _ hne
  · exact hjoin _ hne

/-- Characters one after the other form a word. -/
theorem concat_chars {cs : List Char} (hne : cs ≠ []) :
    concat (cs.map fun c => word [c]) = word cs := by
  induction cs with
  | nil => exact absurd rfl hne
  | cons c cs ih =>
    cases cs with
    | nil => rfl
    | cons d ds =>
      rw [List.map_cons, concat, List.foldr_cons]
      rw [show (List.foldr cat empty ((d :: ds).map fun c => word [c])) = word (d :: ds) from
        ih (by simp)]
      rfl

/-! ## One of several -/

theorem leads_ofChoices : (ofChoices xs).Leads t u ↔ ∃ x ∈ xs, x.Leads t u := by
  fun_induction ofChoices xs with
  | case1 =>
    simp only [List.not_mem_nil, false_and, exists_false, iff_false]
    rintro ⟨c, d, -, hc, -⟩
    cases hc
  | case2 x => simp
  | case3 x xs hne ih => simp [Leads, ih]

theorem simple_ofChoices (h : ∀ x ∈ xs, x.simple = true) : (ofChoices xs).simple = true := by
  fun_induction ofChoices xs with
  | case1 => rfl
  | case2 x => exact h x (by simp)
  | case3 x xs hne ih =>
    obtain ⟨hx, hxs⟩ := List.forall_mem_cons.1 h
    simp [simple, hx, ih hxs]

/-- A choice without sets of characters, and with no common start. -/
structure Apart (xs : List Node) : Prop where
  single : ∀ x ∈ xs, x.choices = [x]
  unset : ∃ x ∈ xs, x.set? = none
  start : sharedStart xs = []

theorem mapM_eq_none {α β : Type} {f : α → Option β} {l : List α} {a : α} (ha : a ∈ l) (hf : f a = none) :
    l.mapM f = none := by
  induction l with
  | nil => cases ha
  | cons b l ih =>
    rw [List.mapM_cons]
    rcases List.mem_cons.1 ha with rfl | ha
    · rw [hf]
      rfl
    · rw [ih ha]
      cases f b <;> rfl

theorem flatMap_choices (h : ∀ x ∈ xs, x.choices = [x]) : xs.flatMap choices = xs := by
  induction xs with
  | nil => rfl
  | cons x xs ih =>
    obtain ⟨hx, hxs⟩ := List.forall_mem_cons.1 h
    rw [List.flatMap_cons, hx, ih hxs]
    rfl

theorem either_eq (h : Apart xs) (hlen : 2 ≤ xs.length) :
    either xs = match xs.mapM char? with
      | some cs => ofSet (.ofChars cs)
      | none => ofChoices xs := by
  have hpos : ∃ n, xs.foldr (fun x n => x.size + n) 1 = n + 1 := by
    clear h hlen
    induction xs with
    | nil => exact ⟨0, rfl⟩
    | cons x xs ih =>
      obtain ⟨n, hn⟩ := ih
      exact ⟨x.size + n, by rw [List.foldr_cons, hn]; rfl⟩
  obtain ⟨n, hn⟩ := hpos
  obtain ⟨x, hx, hset⟩ := h.unset
  rw [either, hn, eitherWithin]
  simp only [flatMap_choices h.single]
  split
  · simp at hlen
  · cases hcs : xs.mapM char? with
    | some cs => rfl
    | none => simp only [mapM_eq_none hx hset, h.start]

/-- A set that is one character turns into a word, and any other stays a set. -/
theorem leads_ofSet {s : CharSet} (hs : ∀ a, s.ranges = [(a, a)] → ∃ c : Char, c.toNat = a) :
    (ofSet s).Leads t u ↔ (chars s).Leads t u := by
  unfold ofSet
  split
  · next a b hranges =>
    split
    · next hab =>
      obtain rfl := beq_iff_eq.1 hab
      obtain ⟨c, rfl⟩ := hs a hranges
      have hsingle : s = .single c := by
        cases s
        exact congrArg CharSet.mk hranges
      rw [hsingle, Char.ofNat_toNat]
      constructor
      · rintro ⟨hpre, rfl⟩
        cases hahead : t.place.ahead with
        | nil => rw [hahead] at hpre; cases hpre
        | cons a rest =>
          rw [hahead, List.isPrefixOf_cons_cons, Bool.and_eq_true, beq_iff_eq] at hpre
          obtain ⟨rfl, -⟩ := hpre
          obtain ⟨d, hnext, -⟩ := Cursor.exists_next? hahead
          refine ⟨c, d, hnext, by rw [CharSet.contains_single, beq_self_eq_true], ?_⟩
          rw [List.length_singleton, Cursor.advance_succ hnext, Cursor.advance_zero]
      · rintro ⟨a, d, hnext, hc, rfl⟩
        rw [CharSet.contains_single, beq_iff_eq] at hc
        subst hc
        refine ⟨?_, ?_⟩
        · rw [Cursor.ahead_of_next? hnext, List.isPrefixOf_cons_cons_self]
          rfl
        · rw [List.length_singleton, Cursor.advance_succ hnext, Cursor.advance_zero]
    · rfl
  · rfl

theorem leads_word_single (c : Char) : (word [c]).Leads t u ↔ (chars (.single c)).Leads t u := by
  have h := leads_ofSet (t := t) (u := u) (s := .single c) fun a ha => by
    simp only [CharSet.single, List.cons.injEq, Prod.mk.injEq, and_true] at ha
    exact ⟨c, ha.1⟩
  rw [ofSet] at h
  simpa [CharSet.single, Char.ofNat_toNat] using h

theorem leads_chars {s : CharSet} :
    (chars s).Leads t u ↔ ∃ c d, t.place.next? = some (c, d) ∧ s.contains c = true ∧ u = { t with place := d } :=
  Iff.rfl

theorem eq_word_of_char? {c : Char} (h : x.char? = some c) : x = word [c] := by
  unfold char? at h
  split at h
  · rw [Option.some.inj h]
  · cases h

theorem eq_words_of_mapM {cs : List Char} (h : xs.mapM char? = some cs) : xs = cs.map fun c => word [c] := by
  induction xs generalizing cs with
  | nil =>
    obtain rfl : [] = cs := Option.some.inj h
    rfl
  | cons x xs ih =>
    rw [List.mapM_cons] at h
    cases hx : x.char? with
    | none => rw [hx] at h; cases h
    | some c =>
      cases hxs : xs.mapM char? with
      | none => rw [hx, hxs] at h; cases h
      | some ds =>
        rw [hx, hxs] at h
        obtain rfl : c :: ds = cs := Option.some.inj h
        rw [eq_word_of_char? hx, ih hxs, List.map_cons]

theorem leads_either (h : Apart xs) (hlen : 2 ≤ xs.length) :
    (either xs).Leads t u ↔ ∃ x ∈ xs, x.Leads t u := by
  rw [either_eq h hlen]
  split
  · next cs hcs =>
    have hvalid (a : Nat) (ha : (CharSet.ofChars cs).ranges = [(a, a)]) : ∃ c : Char, c.toNat = a := by
      have hmem : CharSet.memRanges a (CharSet.ofChars cs).ranges = true := by
        rw [ha]
        simp [CharSet.memRanges]
      obtain ⟨c, -, hc⟩ := (CharSet.memRanges_ofChars a cs).1 hmem
      exact ⟨c, hc⟩
    rw [leads_ofSet hvalid, eq_words_of_mapM hcs]
    simp only [List.mem_map, exists_exists_and_eq_and, leads_word_single, leads_chars]
    constructor
    · rintro ⟨c, d, hnext, hc, hu⟩
      exact ⟨c, (CharSet.contains_ofChars c cs).1 hc, c, d, hnext, by simp [CharSet.contains_single], hu⟩
    · rintro ⟨c, hc, c', d, hnext, hc', hu⟩
      rw [CharSet.contains_single, beq_iff_eq] at hc'
      subst hc'
      exact ⟨c', d, hnext, (CharSet.contains_ofChars c' cs).2 hc, hu⟩
  · exact leads_ofChoices

theorem simple_ofSet (s : CharSet) : (ofSet s).simple = true := by
  unfold ofSet
  split
  · split <;> rfl
  · rfl

theorem nullable_ofSet (s : CharSet) : (ofSet s).nullable = false := by
  unfold ofSet
  split
  · split <;> rfl
  · rfl

theorem nullable_ofChoices (h : ∀ x ∈ xs, x.nullable = false) : (ofChoices xs).nullable = false := by
  fun_induction ofChoices xs with
  | case1 => rfl
  | case2 x => exact h x (by simp)
  | case3 x xs hne ih =>
    obtain ⟨hx, hxs⟩ := List.forall_mem_cons.1 h
    simp [nullable, hx, ih hxs]

theorem nullable_either (h : Apart xs) (hlen : 2 ≤ xs.length) (hxs : ∀ x ∈ xs, x.nullable = false) :
    (either xs).nullable = false := by
  rw [either_eq h hlen]
  split
  · exact nullable_ofSet _
  · exact nullable_ofChoices hxs

theorem simple_either (h : Apart xs) (hlen : 2 ≤ xs.length) (hxs : ∀ x ∈ xs, x.simple = true) :
    (either xs).simple = true := by
  rw [either_eq h hlen]
  split
  · exact simple_ofSet _
  · exact simple_ofChoices hxs

end Node

end Codemod.Pattern
