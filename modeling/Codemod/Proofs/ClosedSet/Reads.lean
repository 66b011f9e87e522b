/-
The pattern of a closed set, as it is read. It is put together of escaped settings and fixed parts, so
reading it gives `node` whatever the settings are (`parse_pattern`); what that node leads along are the
occurrences of the grammar (`leads_node`, `exists_leads_node`).
-/
import Codemod.Proofs.ClosedSet.Grammar
import Codemod.Proofs.Pattern.Reading
import Codemod.Proofs.Pattern.Spelling

namespace Codemod.ClosedSet

open Text Unicode Pattern

/-! ## The node of the pattern -/

def quotes : CharSet := ⟨[(34, 34), (39, 39)]⟩

def notBrackets : CharSet := ⟨[(0, 90), (92, 92), (94, 0x10FFFF)]⟩

def notParens : CharSet := ⟨[(0, 39), (42, 0x10FFFF)]⟩

/-- As many characters of a set as there are. -/
def many (s : CharSet) : Node := .loop (.chars s) 0 none true

/-- One of the removed values. -/
def valueNode (s : ClosedSet) : Node := oneOf (s.removed.map .word)

/-- A call that starts with a letter has to start a word. -/
def anchorNodes (s : ClosedSet) : List Node :=
  match s.call.toList with
  | c :: _ => if alphanumeric.contains c || c == '_' then [.look (.wordBoundary true)] else []
  | [] => []

def itemNodes (s : ClosedSet) : List Node :=
  [many notBrackets, .chars quotes, s.valueNode, .chars quotes, many notBrackets]

def listNodes (s : ClosedSet) : List Node :=
  s.anchorNodes ++ [.group 1 (.word s.call.toList), .word ['('], many spaces, .word ['['],
    .group 2 (.concat s.itemNodes), .word [']'], .group 3 (many notParens), .word [')']]

def fallbackNodes (s : ClosedSet) : List Node :=
  [.group 4 (.concat [.word ['|'], .word ['|'], many spaces]), .group 5 (.chars quotes), s.valueNode,
    .chars quotes]

def node (s : ClosedSet) : Node :=
  match s.default with
  | none => .concat s.listNodes
  | some _ => .either [.concat s.listNodes, .concat s.fallbackNodes]

def listGroups : Names := [("call", 1), ("items", 2), ("rest", 3)]

def fallbackGroups : Names := [("call", 1), ("items", 2), ("rest", 3), ("or", 4), ("dq", 5)]

/-- The groups of the pattern by their names. -/
def groups (s : ClosedSet) : Names :=
  match s.default with
  | none => listGroups
  | some _ => fallbackGroups

/-! ## Reading the pattern -/

section

variable {s : ClosedSet} {ns : Names}

/-- The sets in brackets, with their members in the order in which they are held. -/
theorem unions_quotes : CharSet.unions [.single '"', .single '\''] = quotes := by
  rw [CharSet.unions, CharSet.ofRanges_eq]
  decide +kernel

theorem compl_brackets : (CharSet.unions [.single ']', .single '[']).compl = notBrackets := by
  rw [CharSet.unions, CharSet.ofRanges_eq]
  decide +kernel

theorem compl_parens : (CharSet.unions [.single ')', .single '(']).compl = notParens := by
  rw [CharSet.unions, CharSet.ofRanges_eq]
  decide +kernel

theorem readBracket_quotes (more : List Char) (fuel : Nat) :
    readBracket {} (fuel + 8) (['\'', '"', ']'] ++ more) = some (quotes, 2, more) := by
  rw [← unions_quotes]
  rfl

theorem readBracket_notBrackets (more : List Char) (fuel : Nat) :
    readBracket {} (fuel + 8) (['^', '\\', '[', '\\', ']', ']'] ++ more) = some (notBrackets, 2, more) := by
  rw [← compl_brackets]
  rfl

theorem readBracket_notParens (more : List Char) (fuel : Nat) :
    readBracket {} (fuel + 8) (['^', '(', ')', ']'] ++ more) = some (notParens, 2, more) := by
  rw [← compl_parens]
  rfl

/-- A set with more than one character is read as it is. -/
theorem ofSet_quotes : Node.ofSet (.unions [.single '"', .single '\'']) = .chars quotes := by
  rw [unions_quotes]
  rfl

theorem times_brackets :
    (Node.ofSet (CharSet.unions [.single ']', .single '[']).compl).times 0 none true = many notBrackets := by
  rw [compl_brackets]
  rfl

theorem times_parens :
    (Node.ofSet (CharSet.unions [.single ')', .single '(']).compl).times 0 none true = many notParens := by
  rw [compl_parens]
  rfl

theorem times_spaces : (Node.ofSet spaces).times 0 none true = many spaces := by
  rw [spaces_eq]
  rfl

theorem gives_quotes : Gives ns ['[', '\'', '"', ']'] [.chars quotes] ns := gives_bracket readBracket_quotes

theorem gives_notBrackets : Gives ns ['[', '^', '\\', '[', '\\', ']', ']', '*'] [many notBrackets] ns :=
  (gives_bracket readBracket_notBrackets).star

theorem gives_notParens : Gives ns ['[', '^', '(', ')', ']', '*'] [many notParens] ns :=
  (gives_bracket readBracket_notParens).star

theorem gives_blanks : Gives ns ['\\', 's', '*'] [many spaces] ns := by
  rw [← times_spaces]
  exact gives_spaces.star

/-- The values, one after the other with bars between them. -/
def valuesText (s : ClosedSet) : List Char := s.removedPattern.toList

theorem gives_values (hne : s.remove ≠ []) (hvalues : ∀ v ∈ s.remove, v ≠ "") :
    Gives ns ('(' :: (['?', ':'] ++ (s.valuesText ++ [')']))) [s.valueNode] ns := by
  obtain ⟨v, vs, hremove⟩ := List.exists_cons_of_ne_nil hne
  have htext : s.valuesText = (escape v).toList ++ vs.flatMap fun w => '|' :: (escape w).toList := by
    rw [valuesText, removedPattern, hremove, String.toList_intercalate, List.map_map]
    exact intercalate_bars _ v vs
  have hnodes : ((v :: vs).map fun w => together (w.toList.map fun c => .word [c])) = s.removed.map .word := by
    rw [removed, hremove, List.map_map]
    refine List.map_congr_left fun w hw => together_chars ?_
    simpa using hvalues w (hremove ▸ hw)
  rw [htext, valueNode, ← hnodes]
  exact gives_plain (gives_escapes v vs)

def itemsText (s : ClosedSet) : List Char :=
  ['[', '^', '\\', '[', '\\', ']', ']', '*'] ++ (['[', '\'', '"', ']']
    ++ ('(' :: (['?', ':'] ++ (s.valuesText ++ [')']))
      ++ (['[', '\'', '"', ']'] ++ ['[', '^', '\\', '[', '\\', ']', ']', '*'])))

theorem gives_items (hne : s.remove ≠ []) (hvalues : ∀ v ∈ s.remove, v ≠ "") :
    Gives ns s.itemsText s.itemNodes ns :=
  gives_notBrackets.append (gives_quotes.append ((gives_values hne hvalues).append
    (gives_quotes.append gives_notBrackets (joins_cons (by decide) (by decide)))
      (joins_cons (by decide) (by decide))) (joins_cons (by decide) (by decide)))
    (joins_cons (by decide) (by decide))

/-- A named group around a text. -/
def named (name cs : List Char) : List Char := '(' :: (('?' :: 'P' :: '<' :: (name ++ ['>'])) ++ (cs ++ [')']))

def anchorText (s : ClosedSet) : List Char :=
  match s.call.toList with
  | c :: _ => if alphanumeric.contains c || c == '_' then ['\\', 'b'] else []
  | [] => []

theorem gives_anchor : Gives ns s.anchorText s.anchorNodes ns := by
  unfold anchorText anchorNodes
  split
  · split
    · exact gives_boundary
    · exact gives_nil
  · exact gives_nil

def listText (s : ClosedSet) : List Char :=
  s.anchorText ++ (named ['c', 'a', 'l', 'l'] (escape s.call).toList ++ (['\\', '('] ++ (['\\', 's', '*'] ++
    (['\\', '['] ++ (named ['i', 't', 'e', 'm', 's'] s.itemsText ++ (['\\', ']'] ++
      (named ['r', 'e', 's', 't'] ['[', '^', '(', ')', ']', '*'] ++ ['\\', ')'])))))))

theorem toList_listPattern : s.listPattern.toList = s.listText := by
  cases hcall : s.call.toList with
  | nil => simp [listPattern, hcall, listText, anchorText, named, itemsText, valuesText]
  | cons c cs =>
    by_cases hc : (alphanumeric.contains c || c == '_') = true
    · simp only [listPattern, hcall, listText, anchorText, if_pos hc]
      simp [named, itemsText, valuesText]
    · simp only [listPattern, hcall, listText, anchorText, if_neg hc]
      simp [named, itemsText, valuesText]

theorem gives_list (hcall : s.call ≠ "") (hne : s.remove ≠ []) (hvalues : ∀ v ∈ s.remove, v ≠ "") :
    Gives [] s.listText s.listNodes listGroups := by
  have hchars : s.call.toList ≠ [] := by simpa using hcall
  have hcallGroup : Gives [] (named ['c', 'a', 'l', 'l'] (escape s.call).toList)
      [.group 1 (.word s.call.toList)] [("call", 1)] := by
    have h : Gives [] _ _ [("call", 1)] :=
      gives_named ['c', 'a', 'l', 'l'] (by decide) (by simp) (gives_escape s.call).body
    rw [together_chars hchars] at h
    exact h
  have hitems : Gives [("call", 1)] (named ['i', 't', 'e', 'm', 's'] s.itemsText)
      [.group 2 (.concat s.itemNodes)] [("call", 1), ("items", 2)] :=
    gives_named ['i', 't', 'e', 'm', 's'] (by decide) (by decide) (gives_items hne hvalues).body
  have hrest : Gives [("call", 1), ("items", 2)] (named ['r', 'e', 's', 't'] ['[', '^', '(', ')', ']', '*'])
      [.group 3 (many notParens)] listGroups :=
    gives_named ['r', 'e', 's', 't'] (by decide) (by decide) gives_notParens.body
  refine gives_anchor.append (hcallGroup.append ((gives_escaped (by decide)).append
    (gives_blanks.append ((gives_escaped (by decide)).append (hitems.append ((gives_escaped (by decide)).append
      (hrest.append (gives_escaped (by decide)) ?_) ?_) ?_) ?_) ?_) ?_) ?_) ?_
  all_goals exact joins_cons (by decide) (by decide)

def fallbackText (s : ClosedSet) : List Char :=
  named ['o', 'r'] (['\\', '|'] ++ (['\\', '|'] ++ ['\\', 's', '*']))
    ++ (named ['d', 'q'] ['[', '\'', '"', ']'] ++ (('(' :: (['?', ':'] ++ (s.valuesText ++ [')']))) ++ ['[', '\'', '"', ']']))

theorem gives_fallback (hne : s.remove ≠ []) (hvalues : ∀ v ∈ s.remove, v ≠ "") :
    Gives listGroups s.fallbackText s.fallbackNodes fallbackGroups := by
  have hbar {ns : Names} : Gives ns ['\\', '|'] [.word ['|']] ns := gives_escaped (by decide)
  have hor : Gives listGroups (named ['o', 'r'] (['\\', '|'] ++ (['\\', '|'] ++ ['\\', 's', '*'])))
      [.group 4 (.concat [.word ['|'], .word ['|'], many spaces])] (listGroups ++ [("or", 4)]) := by
    have hblanks : Gives (listGroups ++ [("or", 4)]) ['\\', 's', '*'] [many spaces]
        (listGroups ++ [("or", 4)]) := gives_blanks
    have h := hbar.append (hbar.append hblanks
      (joins_cons (by decide) (by decide))) (joins_cons (by decide) (by decide))
    exact gives_named ['o', 'r'] (by decide) (by decide) h.body
  have hquote : Gives (listGroups ++ [("or", 4)]) (named ['d', 'q'] ['[', '\'', '"', ']'])
      [.group 5 (.chars quotes)] fallbackGroups :=
    gives_named ['d', 'q'] (by decide) (by decide) gives_quotes.body
  refine hor.append (hquote.append ((gives_values hne hvalues).append gives_quotes ?_) ?_) ?_
  all_goals exact joins_cons (by decide) (by decide)

theorem together_listNodes : together s.listNodes = .concat s.listNodes := by
  unfold listNodes anchorNodes
  split
  · split <;> rfl
  · rfl

/-- **The pattern of a closed set is read as its node**, whatever stands in the settings. -/
theorem parse_pattern (hcontext : s.fallbackContext = none) (hcall : s.call ≠ "") (hne : s.remove ≠ [])
    (hvalues : ∀ v ∈ s.remove, v ≠ "") {x : Node} {names : Names}
    (h : parse {} s.pattern.toList = .ok (x, names)) : x = s.node ∧ names = s.groups := by
  have hlist := (gives_list hcall hne hvalues).body
  rw [together_listNodes] at hlist
  have hlen : 6 ≤ s.listText.length := by
    simp only [listText, named, List.length_append, List.length_cons]
    omega
  unfold pattern at h
  unfold node groups
  cases hdefault : s.default with
  | none =>
    rw [hdefault] at h
    simp only [toList_listPattern] at h
    exact parse_gives hlist hlen h
  | some d =>
    have htext : (s.listPattern ++ "|(?P<or>" ++ "" ++ "\\|\\|\\s*)(?P<dq>['\"])(?:"
        ++ s.removedPattern ++ ")['\"]").toList = s.listText ++ '|' :: s.fallbackText := by
      simp [toList_listPattern, fallbackText, named, valuesText]
    rw [hdefault, hcontext] at h
    simp only [htext] at h
    refine parse_gives (hlist.bar (gives_fallback hne hvalues)) ?_ h
    rw [List.length_append]
    omega

end

end Codemod.ClosedSet
