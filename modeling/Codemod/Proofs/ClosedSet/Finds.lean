/-
What the node of a closed set leads along: the occurrences of the grammar and nothing else
(`leads_node`, `matchesAt_node`), with the groups on the parts that a rewrite asks for.
-/
import Codemod.Proofs.ClosedSet.Reads
import Codemod.Proofs.Text.Bytes

namespace Codemod.ClosedSet

open Text Unicode Pattern

/-! ## The sets of characters -/

theorem eq_iff_toNat (c d : Char) : c = d ↔ c.toNat = d.toNat := ⟨congrArg _, Char.toNat_inj.1⟩

theorem contains_spaces (c : Char) : spaces.contains c = isBlank c := by
  rw [spaces_eq, CharSet.contains, Bool.eq_iff_iff, CharSet.memRanges_iff (by simp [CharSet.Rising])]
  simp [CharSet.Covers, isBlank]
  omega

theorem contains_quotes (c : Char) : quotes.contains c = isQuote c := by
  rw [CharSet.contains, Bool.eq_iff_iff, CharSet.memRanges_iff (by simp [quotes, CharSet.Rising])]
  simp only [CharSet.Covers, quotes, isQuote, Bool.or_eq_true, beq_iff_eq, eq_iff_toNat, List.mem_cons,
    List.not_mem_nil, or_false, exists_eq_or_imp, exists_eq_left]
  rw [show '\''.toNat = 39 from rfl, show '"'.toNat = 34 from rfl]
  omega

theorem contains_notBrackets (c : Char) : notBrackets.contains c = !isBracket c := by
  have := toNat_le c
  rw [CharSet.contains, Bool.eq_iff_iff, CharSet.memRanges_iff (by simp [notBrackets, CharSet.Rising])]
  simp only [CharSet.Covers, notBrackets, isBracket, eq_iff_toNat, List.mem_cons, List.not_mem_nil, or_false,
    exists_eq_or_imp, exists_eq_left, Bool.not_eq_true', Bool.or_eq_false_iff, beq_eq_false_iff_ne, ne_eq]
  rw [show '['.toNat = 91 from rfl, show ']'.toNat = 93 from rfl]
  omega

theorem contains_notParens (c : Char) : notParens.contains c = !isParen c := by
  have := toNat_le c
  rw [CharSet.contains, Bool.eq_iff_iff, CharSet.memRanges_iff (by simp [notParens, CharSet.Rising])]
  simp only [CharSet.Covers, notParens, isParen, eq_iff_toNat, List.mem_cons, List.not_mem_nil, or_false,
    exists_eq_or_imp, exists_eq_left, Bool.not_eq_true', Bool.or_eq_false_iff, beq_eq_false_iff_ne, ne_eq]
  rw [show '('.toNat = 40 from rfl, show ')'.toNat = 41 from rfl]
  omega

/-! ## The parts of the pattern -/

section

variable {s : ClosedSet} {t u : Trail}

theorem leads_blanks :
    (many spaces).Leads t u ↔
      ∃ cs, (∀ c ∈ cs, isBlank c = true) ∧ t.place.Spans cs u.place ∧ u.groups = t.groups := by
  simp only [many, Node.leads_star_iff, contains_spaces]

theorem leads_notBrackets :
    (many notBrackets).Leads t u ↔
      ∃ cs, (∀ c ∈ cs, isBracket c = false) ∧ t.place.Spans cs u.place ∧ u.groups = t.groups := by
  simp only [many, Node.leads_star_iff, contains_notBrackets, Bool.not_eq_true']

theorem leads_notParens :
    (many notParens).Leads t u ↔
      ∃ cs, (∀ c ∈ cs, isParen c = false) ∧ t.place.Spans cs u.place ∧ u.groups = t.groups := by
  simp only [many, Node.leads_star_iff, contains_notParens, Bool.not_eq_true']

theorem leads_quotes :
    (Node.chars quotes).Leads t u ↔
      ∃ c, isQuote c = true ∧ t.place.Spans [c] u.place ∧ u.groups = t.groups := by
  simp only [Node.leads_chars_iff, contains_quotes]

theorem apart_words {words : List (List Char)} (hne : words ≠ []) : Node.Apart (words.map .word) where
  single x hx := by
    obtain ⟨w, -, rfl⟩ := List.mem_map.1 hx
    rfl
  unset := by
    obtain ⟨w, words, rfl⟩ := List.exists_cons_of_ne_nil hne
    exact ⟨.word w, by simp, rfl⟩
  start := by
    obtain ⟨w, words, rfl⟩ := List.exists_cons_of_ne_nil hne
    rfl

theorem leads_value (hne : s.remove ≠ []) :
    s.valueNode.Leads t u ↔ ∃ v ∈ s.removed, t.place.Spans v u.place ∧ u.groups = t.groups := by
  have hremoved : s.removed ≠ [] := by simpa [removed] using hne
  simp only [← Node.leads_word_iff]
  rw [valueNode, leads_oneOf (apart_words hremoved) (by simpa using hremoved)]
  simp

theorem leads_anchor : Node.LeadsAll s.anchorNodes t u ↔
    u = t ∧ ∀ c cs, s.call.toList = c :: cs → (alphanumeric.contains c || c == '_') = true →
      (Look.wordBoundary true).holds t.place.before t.place.ahead.head? = true := by
  unfold anchorNodes
  split
  · next c cs hcall =>
    split
    · next hc =>
      constructor
      · rintro ⟨v, ⟨hlook, rfl⟩, rfl⟩
        exact ⟨rfl, fun _ _ _ _ => hlook⟩
      · rintro ⟨rfl, hlook⟩
        exact ⟨u, ⟨hlook c cs hcall hc, rfl⟩, rfl⟩
    · next hc =>
      refine ⟨fun h => ⟨h, fun d ds hd hword => ?_⟩, fun h => h.1⟩
      obtain ⟨rfl, rfl⟩ := List.cons.inj (hcall.symm.trans hd)
      exact absurd hword hc
  · next hcall =>
    refine ⟨fun h => ⟨h, fun d ds hd _ => ?_⟩, fun h => h.1⟩
    rw [hcall] at hd
    cases hd

/-- What stands in the brackets of a list that mentions a removed value. -/
theorem leads_items (hne : s.remove ≠ []) :
    (Node.concat s.itemNodes).Leads t u ↔
      ∃ items, (∃ front value back, items = front ++ (value ++ back) ∧ Mention s value ∧
        (∀ c ∈ front, isBracket c = false) ∧ ∀ c ∈ back, isBracket c = false) ∧
        t.place.Spans items u.place ∧ u.groups = t.groups := by
  rw [Node.leads_concat]
  simp only [itemNodes, Node.LeadsAll, leads_notBrackets, leads_quotes, leads_value hne]
  constructor
  · rintro ⟨t₁, ⟨front, hfront, h₁, g₁⟩, t₂, ⟨q, hq, h₂, g₂⟩, t₃, ⟨v, hv, h₃, g₃⟩, t₄, ⟨q', hq', h₄, g₄⟩, t₅,
      ⟨back, hback, h₅, g₅⟩, rfl⟩
    refine ⟨front ++ (q :: (v ++ [q']) ++ back), ⟨front, _, back, rfl, ⟨q, v, q', hq, hv, hq', rfl⟩, hfront,
      hback⟩, h₁.append ((h₂.append (h₃.append h₄)).append h₅), ?_⟩
    rw [g₅, g₄, g₃, g₂, g₁]
  · rintro ⟨items, ⟨front, value, back, rfl, ⟨q, v, q', hq, hv, hq', rfl⟩, hfront, hback⟩, hspans, hgroups⟩
    obtain ⟨p₁, h₁, hspans⟩ := hspans.split front
    obtain ⟨p₄, hspans, h₅⟩ := hspans.split (q :: (v ++ [q']))
    obtain ⟨p₂, h₂, hspans⟩ := hspans.split [q]
    obtain ⟨p₃, h₃, h₄⟩ := hspans.split v
    exact ⟨⟨p₁, t.groups⟩, ⟨front, hfront, h₁, rfl⟩, ⟨p₂, t.groups⟩, ⟨q, hq, h₂, rfl⟩, ⟨p₃, t.groups⟩,
      ⟨v, hv, h₃, rfl⟩, ⟨p₄, t.groups⟩, ⟨q', hq', h₄, rfl⟩, u, ⟨back, hback, h₅, hgroups⟩, rfl⟩

/-! ## Lists and fallbacks -/

/-- The groups of a match lie on the parts of the occurrence. -/
def Occurrence.Captured (s : ClosedSet) (groups : List (Nat × Cursor × Cursor)) : Occurrence → Prop
  | .list _ items rest => ∃ a b c d e f : Cursor, groups = [(3, e, f), (2, c, d), (1, a, b)] ∧
      a.upTo b = s.call.toList ∧ c.upTo d = items ∧ e.upTo f = rest
  | .fallback gap opening _ _ => ∃ a b c d : Cursor, groups = [(5, c, d), (4, a, b)] ∧
      a.upTo b = '|' :: '|' :: gap ∧ c.upTo d = [opening]

theorem leads_list (hne : s.remove ≠ []) {c : Cursor} (h : (Node.concat s.listNodes).Leads ⟨c, []⟩ u) :
    ∃ gap items rest, (Occurrence.list gap items rest).Valid s ∧
      (Occurrence.list gap items rest).Anchored s c.before ∧
      c.Spans ((Occurrence.list gap items rest).text s) u.place ∧
      (Occurrence.list gap items rest).Captured s u.groups := by
  rw [Node.leads_concat, listNodes, Node.leadsAll_append] at h
  obtain ⟨t, hfirst, h⟩ := h
  obtain ⟨rfl, hanchor⟩ := leads_anchor.1 hfirst
  simp only [Node.LeadsAll, Node.leads_group_iff, Node.leads_word_iff, leads_blanks, leads_items hne,
    leads_notParens] at h
  obtain ⟨t₁, ⟨v₁, ⟨h₁, g₁⟩, p₁, k₁⟩, t₂, ⟨h₂, k₂⟩, t₃, ⟨gap, hgap, h₃, k₃⟩, t₄, ⟨h₄, k₄⟩, t₅,
    ⟨v₅, ⟨items, hitems, h₅, g₅⟩, p₅, k₅⟩, t₆, ⟨h₆, k₆⟩, t₇, ⟨v₇, ⟨rest, hrest, h₇, g₇⟩, p₇, k₇⟩, t₈,
    ⟨h₈, k₈⟩, rfl⟩ := h
  rw [p₁] at h₂
  rw [p₅] at h₆
  rw [p₇] at h₈
  refine ⟨gap, items, rest, ⟨hgap, hitems, hrest⟩, fun d ds hcall hword => ?_,
    h₁.append (h₂.append (h₃.append (h₄.append (h₅.append (h₆.append (h₇.append h₈)))))),
    c, v₁.place, t₄.place, v₅.place, t₆.place, v₇.place, ?_, h₁.upTo, h₅.upTo, h₇.upTo⟩
  · have hlook := hanchor d ds hcall hword
    rwa [h₁.ahead, hcall] at hlook
  · rw [k₈, k₇, g₇, k₆, k₅, g₅, k₄, k₃, k₂, k₁, g₁]

theorem matchesAt_list (hne : s.remove ≠ []) {gap items rest more : List Char} {c : Cursor}
    (hvalid : (Occurrence.list gap items rest).Valid s)
    (hanchor : (Occurrence.list gap items rest).Anchored s c.before)
    (hahead : c.ahead = (Occurrence.list gap items rest).text s ++ more) :
    (Node.concat s.listNodes).MatchesAt c := by
  obtain ⟨hgap, hitems, hrest⟩ := hvalid
  obtain ⟨d, hspans, -⟩ := Cursor.exists_spans hahead
  obtain ⟨d₁, h₁, hspans⟩ := hspans.split s.call.toList
  obtain ⟨d₂, h₂, hspans⟩ := hspans.split ['(']
  obtain ⟨d₃, h₃, hspans⟩ := hspans.split gap
  obtain ⟨d₄, h₄, hspans⟩ := hspans.split ['[']
  obtain ⟨d₅, h₅, hspans⟩ := hspans.split items
  obtain ⟨d₆, h₆, hspans⟩ := hspans.split [']']
  obtain ⟨d₇, h₇, h₈⟩ := hspans.split rest
  have hlook : Node.LeadsAll s.anchorNodes ⟨c, []⟩ ⟨c, []⟩ := by
    refine leads_anchor.2 ⟨rfl, fun a as hcall hword => ?_⟩
    rw [show c.ahead.head? = some a by rw [hahead, Occurrence.text, hcall]; rfl]
    exact hanchor a as hcall hword
  refine ⟨⟨d, [(3, d₆, d₇), (2, d₄, d₅), (1, c, d₁)]⟩,
    Node.leads_concat.2 (Node.leadsAll_append.2 ⟨_, hlook, ?_⟩)⟩
  simp only [Node.LeadsAll, Node.leads_group_iff, Node.leads_word_iff, leads_blanks, leads_items hne,
    leads_notParens]
  exact ⟨⟨d₁, [(1, c, d₁)]⟩, ⟨⟨d₁, []⟩, ⟨h₁, rfl⟩, rfl, rfl⟩, ⟨d₂, _⟩, ⟨h₂, rfl⟩, ⟨d₃, _⟩, ⟨gap, hgap, h₃, rfl⟩,
    ⟨d₄, _⟩, ⟨h₄, rfl⟩, ⟨d₅, [(2, d₄, d₅), (1, c, d₁)]⟩, ⟨⟨d₅, _⟩, ⟨items, hitems, h₅, rfl⟩, rfl, rfl⟩,
    ⟨d₆, _⟩, ⟨h₆, rfl⟩, ⟨d₇, [(3, d₆, d₇), (2, d₄, d₅), (1, c, d₁)]⟩,
    ⟨⟨d₇, _⟩, ⟨rest, hrest, h₇, rfl⟩, rfl, rfl⟩,
    ⟨d, _⟩, ⟨h₈, rfl⟩, rfl⟩

theorem leads_fallback (hne : s.remove ≠ []) (hdefault : s.default.isSome = true) {c : Cursor}
    (h : (Node.concat s.fallbackNodes).Leads ⟨c, []⟩ u) :
    ∃ gap opening value closing, (Occurrence.fallback gap opening value closing).Valid s ∧
      c.Spans ((Occurrence.fallback gap opening value closing).text s) u.place ∧
      (Occurrence.fallback gap opening value closing).Captured s u.groups := by
  rw [Node.leads_concat, fallbackNodes] at h
  simp only [Node.LeadsAll, Node.leads_group_iff, Node.leads_concat, Node.leads_word_iff, leads_blanks,
    leads_quotes, leads_value hne] at h
  obtain ⟨t₁, ⟨v₁, ⟨w₁, ⟨h₁, g₁⟩, w₂, ⟨h₂, g₂⟩, w₃, ⟨gap, hgap, h₃, g₃⟩, rfl⟩, p₁, k₁⟩, t₂,
    ⟨v₂, ⟨q, hq, h₄, g₄⟩, p₂, k₂⟩, t₃, ⟨v, hv, h₅, k₃⟩, t₄, ⟨q', hq', h₆, k₄⟩, rfl⟩ := h
  rw [p₁] at h₄
  rw [p₂] at h₅
  have hor := h₁.append (h₂.append h₃)
  refine ⟨gap, q, v, q', ⟨hdefault, hgap, hq, hv, hq'⟩, hor.append (h₄.append (h₅.append h₆)),
    c, v₁.place, v₁.place, v₂.place, ?_, hor.upTo, h₄.upTo⟩
  rw [k₄, k₃, k₂, g₄, k₁, g₃, g₂, g₁, p₁]

theorem matchesAt_fallback (hne : s.remove ≠ []) {gap value more : List Char} {opening closing : Char}
    {c : Cursor} (hvalid : (Occurrence.fallback gap opening value closing).Valid s)
    (hahead : c.ahead = (Occurrence.fallback gap opening value closing).text s ++ more) :
    (Node.concat s.fallbackNodes).MatchesAt c := by
  obtain ⟨-, hgap, hopening, hvalue, hclosing⟩ := hvalid
  obtain ⟨d, hspans, -⟩ := Cursor.exists_spans hahead
  obtain ⟨d₁, h₁, hspans⟩ := hspans.split ['|']
  obtain ⟨d₂, h₂, hspans⟩ := hspans.split ['|']
  obtain ⟨d₃, h₃, hspans⟩ := hspans.split gap
  obtain ⟨d₄, h₄, hspans⟩ := hspans.split [opening]
  obtain ⟨d₅, h₅, h₆⟩ := hspans.split value
  refine ⟨⟨d, [(5, d₃, d₄), (4, c, d₃)]⟩, Node.leads_concat.2 ?_⟩
  simp only [fallbackNodes, Node.LeadsAll, Node.leads_group_iff, Node.leads_concat, Node.leads_word_iff,
    leads_blanks, leads_quotes, leads_value hne]
  exact ⟨⟨d₃, [(4, c, d₃)]⟩,
    ⟨⟨d₃, []⟩, ⟨⟨d₁, []⟩, ⟨h₁, rfl⟩, ⟨d₂, []⟩, ⟨h₂, rfl⟩, ⟨d₃, []⟩, ⟨gap, hgap, h₃, rfl⟩, rfl⟩, rfl, rfl⟩,
    ⟨d₄, [(5, d₃, d₄), (4, c, d₃)]⟩, ⟨⟨d₄, _⟩, ⟨opening, hopening, h₄, rfl⟩, rfl, rfl⟩, ⟨d₅, _⟩,
    ⟨value, hvalue, h₅, rfl⟩, ⟨d, _⟩, ⟨closing, hclosing, h₆, rfl⟩, rfl⟩

/-! ## The whole pattern -/

/-- The first part of a list: the condition on the place, or the group around the call. -/
theorem exists_concat_listNodes : ∃ x xs, s.listNodes = x :: xs ∧
    Node.concat s.listNodes = .seq x (.concat xs) ∧ ∀ z, x ≠ .group 4 z := by
  unfold listNodes anchorNodes
  have hword {xs : List Node} (h : Node.word ['('] ∈ xs) : (Node.concat xs).nullable = false :=
    Node.nullable_concat h rfl
  split
  · split
    · exact ⟨_, _, rfl, Node.concat_eq_seq (.inr ⟨_, rfl⟩) (hword (by simp)), nofun⟩
    · exact ⟨_, _, rfl, Node.concat_eq_seq (.inl ⟨_, _, rfl⟩) (hword (by simp)), by simp⟩
  · exact ⟨_, _, rfl, Node.concat_eq_seq (.inl ⟨_, _, rfl⟩) (hword (by simp)), by simp⟩

theorem concat_fallbackNodes : ∃ z xs, Node.concat s.fallbackNodes = .seq (.group 4 z) (.concat xs) :=
  ⟨_, _, Node.concat_eq_seq (.inl ⟨_, _, rfl⟩) (Node.nullable_concat (x := .chars quotes) (by simp) rfl)⟩

theorem apart_forms : Node.Apart [.concat s.listNodes, .concat s.fallbackNodes] := by
  obtain ⟨x, xs, -, hlist, hx⟩ := s.exists_concat_listNodes
  obtain ⟨z, ys, hfallback⟩ := s.concat_fallbackNodes
  rw [hlist, hfallback]
  refine ⟨by simp [Node.choices], ⟨_, List.mem_cons_self, rfl⟩, ?_⟩
  simp [Node.sharedStart, Node.isSeq, Node.parts, Node.commonStart, hx z]

theorem simple_valueNode (hne : s.remove ≠ []) : s.valueNode.simple = true := by
  have hremoved : s.removed ≠ [] := by simpa [removed] using hne
  exact simple_oneOf (apart_words hremoved) (by simpa using hremoved) (by simp [Node.simple])

theorem simple_listNodes (hne : s.remove ≠ []) : (Node.concat s.listNodes).simple = true := by
  have hitems : (Node.concat s.itemNodes).simple = true :=
    Node.simple_concat (by simp [itemNodes, many, Node.simple, Node.flat, Node.nullable, simple_valueNode hne])
  refine Node.simple_concat fun x hx => ?_
  rcases List.mem_append.1 hx with hx | hx
  · unfold anchorNodes at hx
    split at hx
    · split at hx
      · obtain rfl := List.mem_singleton.1 hx
        rfl
      · cases hx
    · cases hx
  · simp only [List.mem_cons, List.not_mem_nil, or_false] at hx
    rcases hx with rfl | rfl | rfl | rfl | rfl | rfl | rfl | rfl
    all_goals first
      | rfl
      | exact hitems

theorem simple_fallbackNodes (hne : s.remove ≠ []) : (Node.concat s.fallbackNodes).simple = true := by
  refine Node.simple_concat fun x hx => ?_
  simp only [fallbackNodes, List.mem_cons, List.not_mem_nil, or_false] at hx
  rcases hx with rfl | rfl | rfl | rfl
  all_goals first
    | rfl
    | exact simple_valueNode hne

/-- Searches with the pattern find the leftmost match. -/
theorem simple_node (hne : s.remove ≠ []) : s.node.simple = true := by
  unfold node
  split
  · exact simple_listNodes hne
  · exact Node.simple_either apart_forms (by simp) (by simp [simple_listNodes hne, simple_fallbackNodes hne])

theorem nullable_node : s.node.nullable = false := by
  have hlist : (Node.concat s.listNodes).nullable = false :=
    Node.nullable_concat (x := .word ['(']) (by simp [listNodes]) rfl
  have hfallback : (Node.concat s.fallbackNodes).nullable = false :=
    Node.nullable_concat (x := .chars quotes) (by simp [fallbackNodes]) rfl
  unfold node
  split
  · exact hlist
  · exact Node.nullable_either apart_forms (by simp) (by simp [hlist, hfallback])

/-- **What the pattern matches are occurrences**, and its groups lie on their parts. -/
theorem leads_node (hne : s.remove ≠ []) {c : Cursor} (h : s.node.Leads ⟨c, []⟩ u) :
    ∃ o : Occurrence, o.Valid s ∧ o.Anchored s c.before ∧ c.Spans (o.text s) u.place ∧
      o.Captured s u.groups := by
  unfold node at h
  split at h
  · obtain ⟨gap, items, rest, h⟩ := leads_list hne h
    exact ⟨.list gap items rest, h⟩
  · next d hdefault =>
    rw [Node.leads_either apart_forms (by simp)] at h
    obtain ⟨x, hx, h⟩ := h
    simp only [List.mem_cons, List.not_mem_nil, or_false] at hx
    rcases hx with rfl | rfl
    · obtain ⟨gap, items, rest, h⟩ := leads_list hne h
      exact ⟨.list gap items rest, h⟩
    · obtain ⟨gap, opening, value, closing, hvalid, h⟩ := leads_fallback hne (by rw [hdefault]; rfl) h
      exact ⟨.fallback gap opening value closing, hvalid, trivial, h⟩

/-- **Where an occurrence stands, the pattern matches.** -/
theorem matchesAt_node (hne : s.remove ≠ []) {o : Occurrence} {c : Cursor} {more : List Char}
    (h : s.Occurs c.before o c.ahead more) : s.node.MatchesAt c := by
  obtain ⟨hvalid, hanchor, hahead⟩ := h
  unfold node
  split
  · next hdefault =>
    cases o with
    | list gap items rest => exact matchesAt_list hne hvalid hanchor hahead
    | fallback gap opening value closing =>
      rw [Occurrence.Valid, hdefault] at hvalid
      cases hvalid.1
  · have hform : ∃ x ∈ [Node.concat s.listNodes, .concat s.fallbackNodes], x.MatchesAt c := by
      cases o with
      | list gap items rest => exact ⟨_, by simp, matchesAt_list hne hvalid hanchor hahead⟩
      | fallback gap opening value closing => exact ⟨_, by simp, matchesAt_fallback hne hvalid hahead⟩
    obtain ⟨x, hx, u, hu⟩ := hform
    exact ⟨u, (Node.leads_either apart_forms (by simp)).2 ⟨x, hx, hu⟩⟩

end

end Codemod.ClosedSet
