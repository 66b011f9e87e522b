/-
The pattern of a relocation, as it is read. Whatever stands in the source and in the list of depths, reading it
gives `node` (`parse_pattern`), and that node matches the imports of the grammar and nothing else (`leads_node`,
`matchesAt_node`), with its groups on the keyword, the quote, the way up and the closing sign.
-/
import Codemod.Proofs.ClosedSet.Finds
import Codemod.Proofs.Pattern.Compile
import Codemod.Proofs.Pattern.Layout
import Codemod.Proofs.Relocation.Grammar

namespace Codemod.Relocation

open Text Unicode Pattern
open ClosedSet (isQuote quotes many named gives_blanks leads_blanks leads_quotes ofSet_quotes times_spaces unions_quotes)

/-! ## The node of the pattern -/

/-- The way up, to one directory of the list. -/
def depthNode (depth : Nat) : Node :=
  if depth = 0 then .word ['.', '/'] else (Node.word ['.', '.', '/']).times depth (some depth) true

def dotsNode (r : Relocation) : Node :=
  if r.depths = [] then .either [.word ['.', '/'], (Node.word ['.', '.', '/']).times 1 none true]
  else oneOf (r.depths.map depthNode)

def endNode (r : Relocation) : Node := if r.isDirectory then .word ['/'] else .chars quotes

def keywordNodes : List Node :=
  [.look (.wordBoundary true), .word ['f'], .word ['r'], .word ['o'], .word ['m'], many spaces]

def sourceNodes (r : Relocation) : List Node := (withoutSlashes r.source).map fun c => .word [c]

def nodes (r : Relocation) : List Node :=
  [.group 1 (.concat keywordNodes), .group 2 (.chars quotes), .group 3 r.dotsNode]
    ++ (r.sourceNodes ++ [.group 4 r.endNode])

def node (r : Relocation) : Node := .concat r.nodes

/-- The groups of the pattern by their names. -/
def groups : Names := [("kw", 1), ("q", 2), ("dots", 3), ("end", 4)]

/-! ## Reading the pattern -/

section

variable {r : Relocation} {ns : Names}

theorem readBracket_quotes (more : List Char) (fuel : Nat) :
    readBracket {} (fuel + 8) (['"', '\'', ']'] ++ more) = some (quotes, 2, more) := by
  rw [← unions_quotes, CharSet.unions_swap]
  rfl

theorem gives_quotes : Gives ns ['[', '"', '\'', ']'] [.chars quotes] ns := gives_bracket readBracket_quotes

def stepText : List Char := ['\\', '.', '\\', '.', '/']

theorem gives_step_up : Gives ns stepText [.word ['.'], .word ['.'], .word ['/']] ns :=
  (gives_escaped (by decide)).append ((gives_escaped (by decide)).append (gives_char (by decide))
    (joins_cons (by decide) (by decide))) (joins_cons (by decide) (by decide))

theorem gives_here : Gives ns ['\\', '.', '/'] [.word ['.'], .word ['/']] ns :=
  (gives_escaped (by decide)).append (gives_char (by decide)) (joins_cons (by decide) (by decide))

theorem gives_depth (depth : Nat) :
    ∃ xs, together xs = depthNode depth ∧ Gives ns (depthPattern depth).toList xs ns := by
  unfold depthNode depthPattern
  by_cases hdepth : depth = 0
  · subst hdepth
    exact ⟨_, rfl, gives_here⟩
  · have htext : ("(?:\\.\\./)\x7b" ++ toString depth ++ "\x7d").toList
        = '(' :: (['?', ':'] ++ (stepText ++ [')'])) ++ '{' :: ((toString depth).toList ++ ['}']) := by
      simp [stepText]
    rw [if_neg hdepth, if_neg (by simpa using hdepth), htext]
    exact ⟨_, rfl, gives_counted gives_step_up.body depth⟩

def dotsText (r : Relocation) : List Char := r.dotsPattern.toList

theorem gives_dots : Gives ns r.dotsText [r.dotsNode] ns := by
  unfold dotsText dotsPattern dotsNode
  cases hdepths : r.depths with
  | nil =>
    have hsteps : Gives ns ('(' :: (['?', ':'] ++ (stepText ++ [')'])) ++ ['+'])
        [(Node.word ['.', '.', '/']).times 1 none true] ns := (gives_plain gives_step_up.body).plus
    exact gives_plain (gives_here.body.bar hsteps)
  | cons depth depths =>
    have hbody : GivesBody ns _ _ ns := gives_bars gives_depth depth depths
    have htext : ("(?:" ++ "|".intercalate ((depth :: depths).map depthPattern) ++ ")").toList
        = '(' :: (['?', ':'] ++ ((depthPattern depth).toList
          ++ (depths.flatMap fun d => '|' :: (depthPattern d).toList) ++ [')'])) := by
      have hbars : ("|".intercalate ((depth :: depths).map depthPattern)).toList
          = (depthPattern depth).toList ++ depths.flatMap fun d => '|' :: (depthPattern d).toList := by
        rw [String.toList_intercalate, List.map_map]
        exact intercalate_bars (String.toList ∘ depthPattern) depth depths
      simp only [String.toList_append, hbars]
      simp
    simp only [List.isEmpty_cons, Bool.false_eq_true, if_false, htext, reduceCtorEq]
    exact gives_plain hbody

def endText (r : Relocation) : List Char := if r.isDirectory then ['/'] else ['[', '"', '\'', ']']

theorem gives_end : Gives ns r.endText [r.endNode] ns := by
  unfold endText endNode
  split
  · exact gives_char (by decide)
  · exact gives_quotes

def patternText (r : Relocation) : List Char :=
  named ['k', 'w'] (['\\', 'b'] ++ (['f'] ++ (['r'] ++ (['o'] ++ (['m'] ++ ['\\', 's', '*'])))))
    ++ (named ['q'] ['[', '"', '\'', ']'] ++ (named ['d', 'o', 't', 's'] r.dotsText
      ++ ((escape (String.ofList (withoutSlashes r.source))).toList ++ named ['e', 'n', 'd'] r.endText)))

theorem toList_pattern : r.pattern.toList = r.patternText := by
  unfold pattern patternText endText
  split <;> simp [named, dotsText]

theorem gives_pattern : Gives [] r.patternText r.nodes groups := by
  have hletter {c : Char} {ns : Names} (hc : isMeta c = false) : Gives ns [c] [.word [c]] ns := gives_char hc
  have hkeyword {ns : Names} : Gives ns (['\\', 'b'] ++ (['f'] ++ (['r'] ++ (['o'] ++ (['m'] ++ ['\\', 's', '*'])))))
      keywordNodes ns :=
    gives_boundary.append ((hletter (by decide)).append ((hletter (by decide)).append ((hletter (by decide)).append
      ((hletter (by decide)).append gives_blanks (joins_cons (by decide) (by decide)))
        (joins_cons (by decide) (by decide))) (joins_cons (by decide) (by decide)))
          (joins_cons (by decide) (by decide))) (joins_cons (by decide) (by decide))
  have hkw : Gives [] (named ['k', 'w'] (['\\', 'b'] ++ (['f'] ++ (['r'] ++ (['o'] ++ (['m'] ++ ['\\', 's', '*']))))))
      [.group 1 (.concat keywordNodes)] [("kw", 1)] :=
    gives_named ['k', 'w'] (by decide) (by simp) hkeyword.body
  have hq : Gives [("kw", 1)] (named ['q'] ['[', '"', '\'', ']']) [.group 2 (.chars quotes)] [("kw", 1), ("q", 2)] :=
    gives_named ['q'] (by decide) (by decide) gives_quotes.body
  have hdots : Gives [("kw", 1), ("q", 2)] (named ['d', 'o', 't', 's'] r.dotsText) [.group 3 r.dotsNode]
      [("kw", 1), ("q", 2), ("dots", 3)] :=
    gives_named ['d', 'o', 't', 's'] (by decide) (by decide) gives_dots.body
  have hend : Gives [("kw", 1), ("q", 2), ("dots", 3)] (named ['e', 'n', 'd'] r.endText) [.group 4 r.endNode] groups :=
    gives_named ['e', 'n', 'd'] (by decide) (by decide) gives_end.body
  have hsource : Gives [("kw", 1), ("q", 2), ("dots", 3)] _ _ [("kw", 1), ("q", 2), ("dots", 3)] :=
    gives_escape (String.ofList (withoutSlashes r.source))
  rw [String.toList_ofList] at hsource
  have hrest : Joins ((escape (String.ofList (withoutSlashes r.source))).toList ++ named ['e', 'n', 'd'] r.endText) :=
    joins_append (joins_escape _) (joins_cons (by decide) (by decide))
  exact hkw.append (hq.append (hdots.append (hsource.append hend (joins_cons (by decide) (by decide))) hrest)
    (joins_cons (by decide) (by decide))) (joins_cons (by decide) (by decide))

/-- **The pattern of a relocation is read as its node.** -/
theorem parse_pattern {x : Node} {names : Names} (h : parse {} r.pattern.toList = .ok (x, names)) :
    x = r.node ∧ names = groups := by
  rw [toList_pattern] at h
  have hlen : 6 ≤ r.patternText.length := by
    simp only [patternText, named, List.length_append, List.length_cons]
    omega
  exact parse_gives gives_pattern.body hlen h

end

/-! ## What the node matches -/

section

variable {r : Relocation} {t u : Trail} {depth : Nat}

theorem leads_depth : (depthNode depth).Leads t u ↔ t.place.Spans (up depth) u.place ∧ u.groups = t.groups := by
  unfold depthNode
  cases depth with
  | zero => exact Node.leads_word_iff
  | succ n =>
    rw [if_neg (Nat.succ_ne_zero n)]
    exact Node.leads_times_iff (by simp) (Nat.succ_ne_zero n)

theorem depthNode_cases (depth : Nat) :
    (∃ w, depthNode depth = .word w) ∨ ∃ w low high greedy, depthNode depth = .loop (.word w) low high greedy := by
  unfold depthNode
  split
  · exact .inl ⟨_, rfl⟩
  · unfold Node.times
    simp only [Node.zeroWidth, List.isEmpty_cons, Bool.false_eq_true, if_false]
    split
    · next h => simp_all
    · split
      · exact .inl ⟨_, rfl⟩
      · exact .inr ⟨_, _, _, _, rfl⟩

/-- Words, repeated or not, are alternatives with nothing in common. -/
theorem apart_of_words {xs : List Node} (hne : xs ≠ [])
    (h : ∀ x ∈ xs, (∃ w, x = .word w) ∨ ∃ w low high greedy, x = .loop (.word w) low high greedy) : Node.Apart xs := by
  have hx (x : Node) (hx : x ∈ xs) : x.choices = [x] ∧ x.set? = none ∧ x.isSeq = false := by
    rcases h x hx with ⟨w, rfl⟩ | ⟨w, low, high, greedy, rfl⟩ <;> exact ⟨rfl, rfl, rfl⟩
  obtain ⟨x, xs, rfl⟩ := List.exists_cons_of_ne_nil hne
  obtain ⟨-, hset, hseq⟩ := hx x (by simp)
  refine ⟨fun y hy => (hx y hy).1, ⟨x, by simp, hset⟩, ?_⟩
  simp [Node.sharedStart, hseq]

theorem apart_depths {depths : List Nat} (hne : depths ≠ []) : Node.Apart (depths.map depthNode) := by
  refine apart_of_words (by simpa using hne) fun x hx => ?_
  obtain ⟨d, -, rfl⟩ := List.mem_map.1 hx
  exact depthNode_cases d

theorem apart_any : Node.Apart [.word ['.', '/'], (Node.word ['.', '.', '/']).times 1 none true] :=
  apart_of_words (by simp) (by simp [Node.times, Node.zeroWidth])

theorem leads_dots : r.dotsNode.Leads t u ↔
    ∃ d, (r.depths = [] ∨ d ∈ r.depths) ∧ t.place.Spans (up d) u.place ∧ u.groups = t.groups := by
  unfold dotsNode
  split
  · next hany =>
    have hsteps : ((Node.word ['.', '.', '/']).times 1 none true).Leads t u ↔
        ∃ n, t.place.Spans (up (n + 1)) u.place ∧ u.groups = t.groups := by
      show (Node.loop (.word ['.', '.', '/']) 1 none true).Leads t u ↔ _
      rw [Node.leads_words_iff]
      constructor
      · rintro ⟨n, hlow, -, h⟩
        obtain ⟨m, rfl⟩ : ∃ m, n = m + 1 := ⟨n - 1, by omega⟩
        exact ⟨m, h⟩
      · rintro ⟨n, h⟩
        exact ⟨n + 1, by omega, nofun, h⟩
    rw [Node.leads_either apart_any (by simp)]
    simp only [List.mem_cons, List.not_mem_nil, or_false, exists_eq_or_imp, exists_eq_left, hsteps,
      Node.leads_word_iff, hany, true_and]
    constructor
    · rintro (h | ⟨n, h⟩)
      · exact ⟨0, h⟩
      · exact ⟨n + 1, h⟩
    · rintro ⟨_ | n, h⟩
      · exact .inl h
      · exact .inr ⟨n, h⟩
  · next hsome =>
    rw [leads_oneOf (apart_depths hsome) (by simpa using hsome)]
    simp [leads_depth, hsome]

theorem simple_dotsNode : r.dotsNode.simple = true := by
  unfold dotsNode
  split
  · exact Node.simple_either apart_any (by simp) (by simp [Node.times, Node.zeroWidth, Node.simple, Node.flat, Node.nullable])
  · next hsome =>
    refine simple_oneOf (apart_depths hsome) (by simpa using hsome) fun x hx => ?_
    obtain ⟨d, -, rfl⟩ := List.mem_map.1 hx
    unfold depthNode Node.times
    simp only [Node.zeroWidth, List.isEmpty_cons, Bool.false_eq_true, if_false]
    split
    · rfl
    · split
      · rfl
      · split
        · rfl
        · simp [Node.simple]

theorem leads_keyword {c : Cursor} : (Node.concat keywordNodes).Leads ⟨c, []⟩ u ↔
    (Look.wordBoundary true).holds c.before (some 'f') = true ∧
      ∃ gap, (∀ a ∈ gap, isBlank a = true) ∧ c.Spans (['f', 'r', 'o', 'm'] ++ gap) u.place ∧ u.groups = [] := by
  rw [Node.leads_concat]
  simp only [keywordNodes, Node.LeadsAll, Node.leads_word_iff, leads_blanks]
  constructor
  · rintro ⟨t₀, ⟨hlook, rfl⟩, t₁, ⟨h₁, g₁⟩, t₂, ⟨h₂, g₂⟩, t₃, ⟨h₃, g₃⟩, t₄, ⟨h₄, g₄⟩, t₅, ⟨gap, hgap, h₅, g₅⟩, rfl⟩
    refine ⟨?_, gap, hgap, h₁.append (h₂.append (h₃.append (h₄.append h₅))), ?_⟩
    · rwa [h₁.ahead] at hlook
    · rw [g₅, g₄, g₃, g₂, g₁]
  · rintro ⟨hlook, gap, hgap, hspans, hgroups⟩
    obtain ⟨d₁, h₁, hspans⟩ := hspans.split ['f']
    obtain ⟨d₂, h₂, hspans⟩ := hspans.split ['r']
    obtain ⟨d₃, h₃, hspans⟩ := hspans.split ['o']
    obtain ⟨d₄, h₄, hspans⟩ := hspans.split ['m']
    refine ⟨⟨c, []⟩, ⟨?_, rfl⟩, ⟨d₁, []⟩, ⟨h₁, rfl⟩, ⟨d₂, []⟩, ⟨h₂, rfl⟩, ⟨d₃, []⟩, ⟨h₃, rfl⟩, ⟨d₄, []⟩, ⟨h₄, rfl⟩,
      u, ⟨gap, hgap, hspans, hgroups⟩, rfl⟩
    rwa [h₁.ahead]

theorem leads_source (hne : withoutSlashes r.source ≠ []) :
    Node.LeadsAll r.sourceNodes t u ↔ t.place.Spans (withoutSlashes r.source) u.place ∧ u.groups = t.groups := by
  rw [← Node.leads_concat, sourceNodes, Node.concat_chars hne, Node.leads_word_iff]

theorem leads_end : r.endNode.Leads t u ↔
    ∃ c, (if r.isDirectory then c = '/' else isQuote c = true) ∧ t.place.Spans [c] u.place ∧ u.groups = t.groups := by
  unfold endNode
  split
  · simp [Node.leads_word_iff]
  · exact leads_quotes

/-- The groups of a match lie on the parts of the import. -/
def Import.Captured (o : Import) (groups : List (Nat × Cursor × Cursor)) : Prop :=
  ∃ a b c d e f : Cursor, groups = [(4, e, f), (3, c, d), (2, b, c), (1, a, b)] ∧
    a.upTo b = ['f', 'r', 'o', 'm'] ++ o.gap ∧ b.upTo c = [o.opening] ∧ c.upTo d = up o.depth ∧ e.upTo f = [o.closing]

/-- **What the pattern matches are imports**, and its groups lie on their parts. -/
theorem leads_node (hne : withoutSlashes r.source ≠ []) {c : Cursor} (h : r.node.Leads ⟨c, []⟩ u) :
    ∃ o, r.Occurs c.before o c.ahead u.place.ahead ∧ c.Spans (o.text r) u.place ∧ o.Captured u.groups := by
  rw [node, Node.leads_concat, nodes, Node.leadsAll_append] at h
  obtain ⟨t₃, hfront, h⟩ := h
  rw [Node.leadsAll_append] at h
  obtain ⟨t₄, hsource, h⟩ := h
  obtain ⟨h₄, k₄⟩ := (leads_source hne).1 hsource
  simp only [Node.LeadsAll, Node.leads_group_iff, leads_keyword, leads_quotes, leads_dots, leads_end] at hfront h
  obtain ⟨t₁, ⟨v₁, ⟨hlook, gap, hgap, h₁, g₁⟩, p₁, k₁⟩, t₂, ⟨v₂, ⟨q, hq, h₂, g₂⟩, p₂, k₂⟩, t₃',
    ⟨v₃, ⟨d, hd, h₃, g₃⟩, p₃, k₃⟩, rfl⟩ := hfront
  obtain ⟨t₅, ⟨v₅, ⟨e, he, h₅, g₅⟩, p₅, k₅⟩, rfl⟩ := h
  rw [p₁] at h₂
  rw [p₂] at h₃
  rw [p₃] at h₄
  have hspans : c.Spans ((⟨gap, q, d, e⟩ : Import).text r) u.place := by
    have := h₁.append (h₂.append (h₃.append (h₄.append h₅)))
    rw [p₅]
    simpa [Import.text, Import.spelled] using this
  refine ⟨⟨gap, q, d, e⟩, ⟨⟨hgap, hq, hd, he⟩, hlook, hspans.ahead⟩, hspans, ?_⟩
  refine ⟨c, v₁.place, v₂.place, v₃.place, t₄.place, v₅.place, ?_, h₁.upTo, h₂.upTo, h₃.upTo, h₅.upTo⟩
  rw [k₅, g₅, k₄, k₃, g₃, k₂, g₂, k₁, g₁, p₁, p₂]

/-- **Where an import stands, the pattern matches.** -/
theorem matchesAt_node (hne : withoutSlashes r.source ≠ []) {o : Import} {c : Cursor} {more : List Char}
    (h : r.Occurs c.before o c.ahead more) : r.node.MatchesAt c := by
  obtain ⟨⟨hgap, hopening, hdepth, hclosing⟩, hlook, hahead⟩ := h
  have hparts : o.text r = (['f', 'r', 'o', 'm'] ++ o.gap) ++ ([o.opening] ++ (up o.depth
      ++ (withoutSlashes r.source ++ [o.closing]))) := by simp [Import.text, Import.spelled]
  obtain ⟨e, hspans, -⟩ := Cursor.exists_spans hahead
  rw [hparts] at hspans
  obtain ⟨d₁, h₁, hspans⟩ := hspans.split (['f', 'r', 'o', 'm'] ++ o.gap)
  obtain ⟨d₂, h₂, hspans⟩ := hspans.split [o.opening]
  obtain ⟨d₃, h₃, hspans⟩ := hspans.split (up o.depth)
  obtain ⟨d₄, h₄, h₅⟩ := hspans.split (withoutSlashes r.source)
  refine ⟨⟨e, [(4, d₄, e), (3, d₂, d₃), (2, d₁, d₂), (1, c, d₁)]⟩, ?_⟩
  rw [node, Node.leads_concat, nodes, Node.leadsAll_append]
  refine ⟨⟨d₃, [(3, d₂, d₃), (2, d₁, d₂), (1, c, d₁)]⟩, ?_, ?_⟩
  · simp only [Node.LeadsAll, Node.leads_group_iff, leads_keyword, leads_quotes, leads_dots]
    exact ⟨⟨d₁, [(1, c, d₁)]⟩, ⟨⟨d₁, []⟩, ⟨hlook, o.gap, hgap, h₁, rfl⟩, rfl, rfl⟩,
      ⟨d₂, [(2, d₁, d₂), (1, c, d₁)]⟩, ⟨⟨d₂, _⟩, ⟨o.opening, hopening, h₂, rfl⟩, rfl, rfl⟩,
      ⟨d₃, [(3, d₂, d₃), (2, d₁, d₂), (1, c, d₁)]⟩, ⟨⟨d₃, _⟩, ⟨o.depth, hdepth, h₃, rfl⟩, rfl, rfl⟩, rfl⟩
  · rw [Node.leadsAll_append]
    refine ⟨⟨d₄, [(3, d₂, d₃), (2, d₁, d₂), (1, c, d₁)]⟩, (leads_source hne).2 ⟨h₄, rfl⟩, ?_⟩
    simp only [Node.LeadsAll, Node.leads_group_iff, leads_end]
    exact ⟨⟨e, [(4, d₄, e), (3, d₂, d₃), (2, d₁, d₂), (1, c, d₁)]⟩,
      ⟨⟨e, _⟩, ⟨o.closing, hclosing, h₅, rfl⟩, rfl, rfl⟩, rfl⟩

theorem simple_node (r : Relocation) : r.node.simple = true := by
  have hkeyword : (Node.concat keywordNodes).simple = true :=
    Node.simple_concat (by simp [keywordNodes, many, Node.simple, Node.flat, Node.nullable])
  have hend : r.endNode.simple = true := by
    unfold endNode
    split <;> rfl
  refine Node.simple_concat fun x hx => ?_
  simp only [nodes, sourceNodes, List.cons_append, List.nil_append, List.mem_cons, List.mem_append, List.mem_map,
    List.not_mem_nil, or_false] at hx
  rcases hx with rfl | rfl | rfl | ⟨c, -, rfl⟩ | rfl
  · exact hkeyword
  · rfl
  · exact simple_dotsNode
  · rfl
  · exact hend

theorem nullable_node (r : Relocation) : r.node.nullable = false :=
  Node.nullable_concat (x := .group 2 (.chars quotes)) (by simp [nodes]) rfl

end

/-! ## A pattern that can be read -/

section

variable {r : Relocation}

/-- The pattern for a source of one letter, at any depth. -/
theorem patternText_letter (hsource : withoutSlashes r.source = ['a']) (hdepths : r.depths = []) :
    r.patternText = '(' :: '?' :: 'P' :: '<' :: (['k', 'w'] ++ '>' :: '\\' :: 'b' :: 'f' :: 'r' :: 'o' :: 'm' :: '\\' ::
      's' :: '*' :: ')' :: '(' :: '?' :: 'P' :: '<' :: (['q'] ++ '>' :: '[' :: '"' :: '\'' :: ']' :: ')' :: '(' :: '?' ::
        'P' :: '<' :: (['d', 'o', 't', 's'] ++ '>' :: '(' :: '?' :: ':' :: '\\' :: '.' :: '/' :: '|' :: '(' :: '?' :: ':' ::
          '\\' :: '.' :: '\\' :: '.' :: '/' :: ')' :: '+' :: ')' :: ')' :: 'a' :: '(' :: '?' :: 'P' :: '<' ::
            (['e', 'n', 'd'] ++ '>' :: (r.endText ++ [')']))))) := by
  have hescape : (escape (String.ofList ['a'])).toList = ['a'] := by decide
  rw [patternText, hsource, hescape, dotsText, dotsPattern, hdepths]
  rfl

/-- What the pattern is read to, the last part first. -/
def letterPieces (r : Relocation) (depth : Nat) : List Piece :=
  [⟨.group 4 r.endNode, depth, true⟩, .ofNode (.word ['a']),
    ⟨.group 3 (.alt (.word ['.', '/']) (.loop (.word ['.', '.', '/']) 1 none true)), 6, true⟩,
    ⟨.group 2 (.chars quotes), 3, true⟩, ⟨.group 1 (.concat keywordNodes), 3, true⟩]

theorem run_letter (hsource : withoutSlashes r.source = ['a']) (hdepths : r.depths = []) (fuel : Nat) :
    ∃ depth ≤ 3, Reading.run (fuel + 37) { rest := r.patternText, flags := {} }
      = some ⟨[], {}, [], letterPieces r depth, [], 4, groups⟩ := by
  have hkw (more : List Char) (fuel : Nat) :
      Reading.run (fuel + 8) ⟨'\\' :: 'b' :: 'f' :: 'r' :: 'o' :: 'm' :: '\\' :: 's' :: '*' :: ')' :: '(' :: more, {}, [],
          [], [⟨[], [], some 1, {}⟩], 1, [("kw", 1)]⟩
        = Reading.run fuel ⟨'(' :: more, {}, [], [⟨.group 1 (.concat keywordNodes), 3, true⟩], [], 1, [("kw", 1)]⟩ := by
    rw [keywordNodes, ← times_spaces]
    rfl
  have hq (more : List Char) (fuel : Nat) (items : List Piece) :
      Reading.run (fuel + 10) ⟨'[' :: '"' :: '\'' :: ']' :: ')' :: '(' :: more, {}, [], [], [⟨[], items, some 2, {}⟩], 2,
          [("kw", 1), ("q", 2)]⟩
        = Reading.run (fuel + 8) ⟨'(' :: more, {}, [], ⟨.group 2 (.chars quotes), 3, true⟩ :: items, [], 2,
          [("kw", 1), ("q", 2)]⟩ := by
    rw [← ofSet_quotes, CharSet.unions_swap]
    rfl
  have hdots (more : List Char) (fuel : Nat) (items : List Piece) :
      Reading.run (fuel + 13) ⟨'(' :: '?' :: ':' :: '\\' :: '.' :: '/' :: '|' :: '(' :: '?' :: ':' :: '\\' :: '.' :: '\\' ::
          '.' :: '/' :: ')' :: '+' :: ')' :: ')' :: 'a' :: '(' :: more, {}, [], [], [⟨[], items, some 3, {}⟩], 3,
          [("kw", 1), ("q", 2), ("dots", 3)]⟩
        = Reading.run fuel ⟨'(' :: more, {}, [], .ofNode (.word ['a']) ::
          ⟨.group 3 (.alt (.word ['.', '/']) (.loop (.word ['.', '.', '/']) 1 none true)), 6, true⟩ :: items, [], 3,
          [("kw", 1), ("q", 2), ("dots", 3)]⟩ := rfl
  have hend (fuel : Nat) (items : List Piece) : ∃ depth ≤ 3,
      Reading.run (fuel + 10) ⟨r.endText ++ [')'], {}, [], [], [⟨[], items, some 4, {}⟩], 4, groups⟩
        = some ⟨[], {}, [], ⟨.group 4 r.endNode, depth, true⟩ :: items, [], 4, groups⟩ := by
    unfold endText endNode
    cases r.isDirectory with
    | true => exact ⟨1, by decide, rfl⟩
    | false =>
      refine ⟨3, by decide, ?_⟩
      rw [if_neg Bool.false_ne_true, if_neg Bool.false_ne_true, ← ofSet_quotes, CharSet.unions_swap]
      rfl
  obtain ⟨depth, hdepth, hlast⟩ := hend fuel [.ofNode (.word ['a']),
    ⟨.group 3 (.alt (.word ['.', '/']) (.loop (.word ['.', '.', '/']) 1 none true)), 6, true⟩,
    ⟨.group 2 (.chars quotes), 3, true⟩, ⟨.group 1 (.concat keywordNodes), 3, true⟩]
  refine ⟨depth, hdepth, ?_⟩
  rw [patternText_letter hsource hdepths]
  exact (run_named (by simp) (by simp) (by simp) 0 (fuel + 36)).trans ((hkw _ (fuel + 28)).trans
    ((run_named (by simp) (by simp) (by simp) 1 (fuel + 27)).trans ((hq _ (fuel + 17) _).trans
      ((run_named (by simp) (by simp) (by simp) 2 (fuel + 24)).trans ((hdots _ (fuel + 11) _).trans
        ((run_named (by simp) (by simp) (by simp) 3 (fuel + 10)).trans hlast))))))

theorem exists_parse (hsource : withoutSlashes r.source = ['a']) (hdepths : r.depths = []) :
    ∃ x names, parse {} r.pattern.toList = .ok (x, names) := by
  obtain ⟨fuel, hfuel⟩ : ∃ fuel, 2 * r.patternText.length + 2 = fuel + 37 := by
    refine ⟨2 * r.patternText.length + 2 - 37, ?_⟩
    simp only [patternText_letter hsource hdepths, List.length_append, List.length_cons]
    omega
  obtain ⟨depth, hdepth, hrun⟩ := run_letter hsource hdepths fuel
  rw [← hfuel] at hrun
  have hnests : (Reading.body ⟨[], {}, [], letterPieces r depth, [], 4, groups⟩).depth ≤ nestingLimit := by
    simp [Reading.body, Piece.choice, Piece.concat, letterPieces, Piece.depthOver, nestingLimit, Piece.ofNode]
    omega
  have hsize : fits (Reading.body ⟨[], {}, [], letterPieces r depth, [], 4, groups⟩).node = true := by
    refine fits_of_room ?_
    show (Node.concat [.group 1 (.concat keywordNodes), .group 2 (.chars quotes),
      .group 3 (.alt (.word ['.', '/']) (.loop (.word ['.', '.', '/']) 1 none true)), .word ['a'],
      .group 4 r.endNode]).room + 244 ≤ sizeLimit
    unfold endNode keywordNodes
    rw [spaces_eq]
    cases r.isDirectory <;> decide +kernel
  exact ⟨_, _, by rw [toList_pattern, parse_of_run hrun rfl hnests hsize]⟩

end

end Codemod.Relocation
