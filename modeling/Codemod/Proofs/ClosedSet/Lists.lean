/-
What becomes of a list that the rule of a closed set hits. A list of anything but literals is refused; one of
which nothing is left gives way to the replacement for that, or is refused; and any other keeps just the
elements with other values, in their order, and its trailing comma (`render_list`). This is so whatever the
settings are, a fallback context included: a hit with items is one of the first alternative of the pattern
(`exists_list_of_mem`).
-/
import Codemod.Proofs.ClosedSet.Elements
import Codemod.Proofs.ClosedSet.Idempotent
import Codemod.Proofs.Pattern.Later
import Codemod.Proofs.Pattern.Layout
import Codemod.Proofs.Pattern.Sound

namespace Codemod.ClosedSet

open Text Unicode Pattern

section

variable {s : ClosedSet}

/-! ## Hits on lists -/

/-- The pattern is read as its first alternative, or as a choice between that and others with later groups. -/
theorem parse_list (hcall : s.call ≠ "") (hne : s.remove ≠ []) (hvalues : ∀ v ∈ s.remove, v ≠ "")
    (hcontext : s.fallbackContext.isSome = true → s.default.isSome = true) {x : Node} {names : Names}
    (h : parse {} s.pattern.toList = .ok (x, names)) :
    listGroups <+: names ∧ (x = .concat s.listNodes ∨
      ∃ others : List Node, (∀ y ∈ others, y.Grouped (3 < ·)) ∧ x = .either (.concat s.listNodes :: others)) := by
  cases hdefault : s.default with
  | none =>
    have hnone : s.fallbackContext = none := by
      rw [hdefault] at hcontext
      simpa using hcontext
    obtain ⟨rfl, rfl⟩ := parse_pattern hnone hcall hne hvalues h
    unfold node groups
    rw [hdefault]
    exact ⟨List.prefix_refl _, .inl rfl⟩
  | some d =>
    have hlist := (gives_list hcall hne hvalues).body
    rw [together_listNodes] at hlist
    have hlen : 6 ≤ s.listText.length := by
      simp only [listText, named, List.length_append, List.length_cons]
      omega
    obtain ⟨more, hmore⟩ : ∃ more, s.pattern.toList = s.listText ++ '|' :: more := by
      refine ⟨s.pattern.toList.drop (s.listText.length + 1), ?_⟩
      unfold pattern
      rw [hdefault]
      simp [toList_listPattern]
    rw [hmore] at h
    obtain ⟨hnames, others, hothers, rfl⟩ := parse_first hlist hlen h
    exact ⟨hnames, .inr ⟨others, hothers, rfl⟩⟩

theorem opens_listNodes : (Node.concat s.listNodes).Opens 1 := by
  unfold listNodes
  refine Node.opens_concat _ fun x hx => ?_
  unfold anchorNodes at hx
  split at hx
  · split at hx
    · exact ⟨_, List.mem_singleton.1 hx⟩
    · cases hx
  · cases hx

/-- **A hit with items is one on a list**, with its parts in its groups. -/
theorem exists_list_of_mem {m : Matcher} {r : Replacement} (hbuild : s.build = .ok (m, r)) {text : List Char}
    {hits : List Hit} (hfound : m.findAll text = .ok hits) {h : Hit} (hh : h ∈ hits) {items : String}
    (hitems : h.named? "items" = some items) :
    ∃ gap rest, (Occurrence.list gap items.toList rest).Valid s ∧
      h.chars = (Occurrence.list gap items.toList rest).text s ∧
      h.named? "call" = some s.call ∧ h.named? "rest" = some (String.ofList rest) := by
  obtain ⟨hcall, hne, hvalues, hcontext, -, x, names, rfl, hparse⟩ := build_spec hbuild
  obtain ⟨hnames, hx⟩ := parse_list hcall hne hvalues hcontext hparse
  obtain ⟨found, hmem, rfl⟩ : ∃ found ∈ (x.scan text).findAll (.start text),
      Hit.ofMatch ⟨s.pattern, x, names⟩ found = h := by
    simp only [Matcher.findAll, Matcher.regexHits] at hfound
    split at hfound
    · cases hfound
    · obtain rfl := Except.ok.inj hfound
      exact List.mem_map.1 hh
  have hsimple : (Node.concat s.listNodes).Grouped fun _ => True := Node.grouped_of_simple (simple_listNodes hne)
  have hleads : (Node.concat s.listNodes).Leads ⟨found.start, []⟩ ⟨found.stop, found.groups⟩ := by
    rcases hx with rfl | ⟨others, hothers, rfl⟩
    · exact leads_of_mem_findAll hsimple hmem
    · have hgrouped : (Node.either (.concat s.listNodes :: others)).Grouped fun _ => True :=
        Node.grouped_either (List.forall_mem_cons.2 ⟨hsimple, fun y hy => (hothers y hy).mono fun _ _ => trivial⟩)
      have hmatch := leads_of_mem_findAll hgrouped hmem
      refine (Node.leads_eitherWithin _ (by decide) opens_listNodes hothers hmatch).resolve_right ?_
      -- without the groups of a list there are no items
      rintro ⟨y, hy, hleads⟩
      obtain ⟨gs, hgroups, hlater⟩ := hleads.groups hy
      have hnone : found.groups.find? (fun g => g.1 == 2) = none := by
        rw [List.find?_eq_none]
        intro g hg
        have hg : g ∈ gs := by simpa [show found.groups = gs ++ [] from hgroups] using hg
        have := hlater g hg
        rw [beq_iff_eq]
        omega
      rw [(named_eq hnames found).2.1, Match.group?, hnone] at hitems
      cases hitems
  obtain ⟨gap, items', rest, hvalid, -, hspans, hcaptured⟩ := leads_list hne hleads
  obtain ⟨hcalled, hitems', hrest⟩ := named_list (p := ⟨s.pattern, x, names⟩) hnames hcaptured
  obtain rfl : items = String.ofList items' := Option.some.inj (hitems.symm.trans hitems')
  refine ⟨gap, rest, ?_, ?_, hcalled, hrest⟩
  · rwa [String.toList_ofList]
  · rw [String.toList_ofList]
    exact hspans.upTo

end

/-! ## A set that hits a list -/

/-- A set that takes one letter out of lists of letters. -/
def letters : ClosedSet where
  call := "_"
  remove := ["x"]

theorem letters_listText : letters.listText =
    '\\' :: 'b' :: '(' :: '?' :: 'P' :: '<' :: (['c', 'a', 'l', 'l'] ++ '>' :: '_' :: ')' :: '\\' :: '(' ::
      '\\' :: 's' :: '*' :: '\\' :: '[' :: '(' :: '?' :: 'P' :: '<' :: (['i', 't', 'e', 'm', 's'] ++ '>' ::
        '[' :: '^' :: '\\' :: '[' :: '\\' :: ']' :: ']' :: '*' :: '[' :: '\'' :: '"' :: ']' :: '(' :: '?' :: ':' ::
        'x' :: ')' :: '[' :: '\'' :: '"' :: ']' :: '[' :: '^' :: '\\' :: '[' :: '\\' :: ']' :: ']' :: '*' :: ')' ::
        '\\' :: ']' :: '(' :: '?' :: 'P' :: '<' :: (['r', 'e', 's', 't'] ++ '>' :: '[' :: '^' :: '(' :: ')' :: ']' ::
          '*' :: ')' :: '\\' :: ')' :: []))) := by
  have hanchor : letters.anchorText = ['\\', 'b'] := by
    show (if alphanumeric.contains '_' || '_' == '_' then ['\\', 'b'] else []) = _
    rw [beq_self_eq_true, Bool.or_true, if_pos rfl]
  rw [listText, hanchor]
  rfl

/-- What the pattern of the sample is read to. -/
theorem letters_run : ∃ last, Reading.run (2 * letters.listText.length + 2) { rest := letters.listText, flags := {} }
    = some last ∧ last.frames = [] ∧ last.body.depth ≤ nestingLimit ∧ fits last.body.node = true := by
  rw [letters_listText]
  have hanchor (more : List Char) (fuel : Nat) :
      Reading.run (fuel + 1) ⟨'\\' :: 'b' :: '(' :: more, {}, [], [], [], 0, []⟩
        = Reading.run fuel ⟨'(' :: more, {}, [], [.ofNode (.look (.wordBoundary true))], [], 0, []⟩ := rfl
  have hcall (more : List Char) (fuel : Nat) :
      Reading.run (fuel + 6) ⟨'_' :: ')' :: '\\' :: '(' :: '\\' :: 's' :: '*' :: '\\' :: '[' :: '(' :: more, {}, [], [],
          [⟨[], [.ofNode (.look (.wordBoundary true))], some 1, {}⟩], 1, [("call", 1)]⟩
        = Reading.run fuel ⟨'(' :: more, {}, [], [.ofNode (.word ['[']), ⟨many spaces, 1, true⟩, .ofNode (.word ['(']),
          ⟨.group 1 (.word ['_']), 1, true⟩, .ofNode (.look (.wordBoundary true))], [], 1, [("call", 1)]⟩ := by
    rw [← times_spaces]
    rfl
  have hitems (more : List Char) (items : List Piece) (fuel : Nat) :
      Reading.run (fuel + 19) ⟨'[' :: '^' :: '\\' :: '[' :: '\\' :: ']' :: ']' :: '*' :: '[' :: '\'' :: '"' :: ']' ::
          '(' :: '?' :: ':' :: 'x' :: ')' :: '[' :: '\'' :: '"' :: ']' :: '[' :: '^' :: '\\' :: '[' :: '\\' :: ']' :: ']' ::
          '*' :: ')' :: '\\' :: ']' :: '(' :: more, {}, [], [], [⟨[], items, some 2, {}⟩], 2, [("call", 1), ("items", 2)]⟩
        = Reading.run (fuel + 8) ⟨'(' :: more, {}, [], .ofNode (.word [']']) ::
          ⟨.group 2 (.concat [many notBrackets, .chars quotes, .word ['x'], .chars quotes, many notBrackets]), 5, true⟩
            :: items, [], 2, [("call", 1), ("items", 2)]⟩ := by
    rw [← ofSet_quotes, ← times_brackets]
    rfl
  have hrest (items : List Piece) (fuel : Nat) :
      Reading.run (fuel + 13) ⟨['[', '^', '(', ')', ']', '*', ')', '\\', ')'], {}, [], [], [⟨[], items, some 3, {}⟩], 3,
          [("call", 1), ("items", 2), ("rest", 3)]⟩
        = some ⟨[], {}, [], .ofNode (.word [')']) :: ⟨.group 3 (many notParens), 4, true⟩ :: items, [], 3,
          [("call", 1), ("items", 2), ("rest", 3)]⟩ := by
    rw [← times_parens]
    rfl
  have hrun := (hanchor _ 161).trans ((run_named (by simp) (by simp) (by simp) 0 160).trans ((hcall _ 154).trans
    ((run_named (by simp) (by simp) (by simp) 1 153).trans ((hitems _ _ 134).trans
      ((run_named (by simp) (by simp) (by simp) 2 141).trans (hrest _ 128))))))
  refine ⟨_, hrun, rfl, by decide, fits_of_room ?_⟩
  rw [spaces_eq]
  decide +kernel

theorem letters_parse : ∃ x names, parse {} letters.pattern.toList = .ok (x, names) := by
  obtain ⟨last, hrun, hframes, hdepth, hfits⟩ := letters_run
  have hparse := parse_of_run hrun hframes hdepth hfits
  have hpattern : letters.pattern = letters.listPattern := by rw [pattern, show letters.default = none from rfl]
  exact ⟨_, _, by rw [hpattern, toList_listPattern, hparse]⟩

/-- A closed set whose pattern can be read is built into its rule. -/
theorem build_eq (s : ClosedSet) (hcall : isBlankText s.call = false) (hne : s.remove ≠ [])
    (hvalues : ∀ v ∈ s.remove, v ≠ "") (hcontext : s.fallbackContext = none)
    (hparse : ∃ x names, parse {} s.pattern.toList = .ok (x, names)) :
    s.build = .ok (s.rule.matcher, s.rule.replacement) := by
  obtain ⟨x, names, hparse⟩ := hparse
  have hname : s.call ≠ "" := by
    intro hempty
    rw [hempty] at hcall
    cases hcall
  obtain ⟨rfl, rfl⟩ := parse_pattern hcontext hname hne hvalues hparse
  have hcompile := compile_of_parse hparse (simple_node hne) nullable_node
  have hremove : (s.remove.isEmpty || s.remove.any (·.isEmpty)) = false := by
    simpa [hne] using hvalues
  unfold build
  rw [hcall, hremove, hcontext]
  show ((MatchFlags.compile {} s.pattern).map Matcher.regex >>= fun m =>
    pure (m, Replacement.computed s.rewrite)) = _
  rw [hcompile]
  rfl

theorem letters_build : letters.build = .ok (letters.rule.matcher, letters.rule.replacement) :=
  letters.build_eq (by decide) (by simp [letters]) (by simp [letters]) rfl letters_parse

/-- A list at the start of a text is the first thing that is hit there. -/
theorem exists_hit_of_occurs {s : ClosedSet} (hp : s.Plain) (hne : s.remove ≠ [])
    {text gap items rest more : List Char} (h : s.Occurs none (.list gap items rest) text more) :
    ∃ hits, s.rule.matcher.findAll text = .ok hits ∧ ∃ hit ∈ hits,
      hit.named? "items" = some (String.ofList items) ∧ hit.named? "rest" = some (String.ofList rest) := by
  obtain ⟨ms, hhits, hleftmost⟩ := Matcher.regexHits_leftmost (p := ⟨s.pattern, s.node, s.groups⟩)
    (simple_node hne) nullable_node text
  have hmatches : s.node.MatchesAt (.start text) := matchesAt_node (c := .start text) hne h
  refine ⟨_, hhits, ?_⟩
  cases hleftmost with
  | nil hnone => exact absurd hmatches (hnone _ (le_refl _))
  | @cons _ m ms hle hnone hleads =>
    have hstart : m.start = .start text := by
      by_contra hlate
      exact hnone _ (le_refl _) (lt_of_le_of_ne hle (Ne.symm hlate)) hmatches
    obtain ⟨o, hvalid, hanchored, hspans, hcaptured⟩ := leads_node hne hleads
    have hoccurs : s.Occurs none o text m.stop.ahead := by
      rw [hstart] at hanchored hspans
      exact ⟨hvalid, hanchored, hspans.ahead⟩
    obtain ⟨rfl, -⟩ := hoccurs.unique hp h
    obtain ⟨-, hitems, hrest⟩ := named_list (p := ⟨s.pattern, s.node, s.groups⟩) s.listGroups_isPrefix hcaptured
    exact ⟨_, List.mem_map_of_mem List.mem_cons_self, hitems, hrest⟩

theorem letters_plain : letters.Plain where
  call := by
    rw [show letters.call.toList = ['_'] from rfl]
    simp [isQuote, isParen]
  removed := by
    rw [show letters.removed = [['x']] from rfl]
    simp [isQuote, isParen, isBracket]
  default d hd := by cases hd
  emptied t ht := by cases ht
  context := rfl

theorem letters_occurs :
    letters.Occurs none (.list [] "'x', 'a',".toList []) "_(['x', 'a',])".toList [] where
  valid := (valid_list_iff letters_plain).2 ⟨List.forall_mem_nil _,
    ⟨"'x'".toList, ⟨'\'', ['x'], '\'', rfl, by simp [show letters.removed = [['x']] from rfl], rfl, rfl⟩,
      [], ", 'a',".toList, rfl⟩, by simp [isBracket], List.forall_mem_nil _⟩
  anchored c cs hcall _ := by
    rw [show letters.call.toList = ['_'] from rfl] at hcall
    obtain ⟨rfl, -⟩ := List.cons.inj hcall
    exact startsWord isWord_underscore
  text := rfl

section

variable {s : ClosedSet}

/-! ## Rewriting a hit on a list -/

/-- A list with an element that is no literal is refused. -/
theorem rewriteList_other (h : Hit) {items : List Char} (hother : ∃ e ∈ listed items, ∀ value, ¬ Literal value e) :
    ∃ e, s.rewriteList h (String.ofList items) = .error e := by
  obtain ⟨e, he, hnot⟩ := hother
  obtain ⟨hne, p, hp, rfl⟩ := mem_listed.1 he
  obtain ⟨error, herror⟩ := kept_error (s := s) ⟨p, hp, hne, hnot⟩
  exact ⟨error, by rw [rewriteList_eq, herror]⟩

/-- A list of which nothing stays gives way to what is put in its place. -/
theorem rewriteList_emptied (h : Hit) {items : List Char} (hall : ∀ e ∈ listed items, s.Drops e) :
    s.rewriteList h (String.ofList items) = match s.emptyReplacement with
      | some text => .ok text
      | none => .error (.listEmptied h.text) := by
  have hdrops (p : List Char) (hp : p ∈ elements items) (hne : trim p ≠ []) : s.Drops (trim p) :=
    hall _ (mem_listed.2 ⟨hne, p, hp, rfl⟩)
  have hnone : (elements items).filter (fun p => trim p ≠ [] ∧ ¬ s.Drops (trim p)) = [] := by
    rw [List.filter_eq_nil_iff]
    intro p hp
    simpa using hdrops p hp
  have hkept := kept_ok (s := s) fun p hp hne => (hdrops p hp hne).exists_literal
  have hrewrite := rewriteList_eq (s := s) h items
  rw [hkept, hnone] at hrewrite
  exact hrewrite

/-- What stays of a list of literals. -/
theorem rewriteList_shortened (h : Hit) {items : List Char} (hliteral : ∀ e ∈ listed items, ∃ value, Literal value e)
    (hstay : ∃ e ∈ listed items, ¬ s.Drops e) :
    ∃ short, s.rewriteList h (String.ofList items) = .ok ((h.named? "call").getD s.call ++ "(["
        ++ String.ofList short ++ "]" ++ (h.named? "rest").getD "" ++ ")") ∧
      listed short = (listed items).filter (fun e => ¬ s.Drops e) ∧
      ∀ blanks, Trails short blanks ↔ Trails items blanks := by
  have hkept := kept_ok (s := s) fun p hp hne => hliteral _ (mem_listed.2 ⟨hne, p, hp, rfl⟩)
  cases hpieces : (elements items).filter fun p => trim p ≠ [] ∧ ¬ s.Drops (trim p) with
  | nil =>
    obtain ⟨e, he, hstays⟩ := hstay
    obtain ⟨hne, p, hp, rfl⟩ := mem_listed.1 he
    have hnot := List.filter_eq_nil_iff.1 hpieces p hp
    rw [decide_eq_true_eq] at hnot
    exact absurd ⟨hne, hstays⟩ hnot
  | cons k ks =>
    rw [hpieces] at hkept
    refine ⟨_, by rw [rewriteList_eq, hkept], listed_joinItems hkept hliteral, fun blanks => ?_⟩
    rw [← trailing?_eq_some_iff, ← trailing?_eq_some_iff, trailing?_joinItems hkept]

/-- **What becomes of a list.** It is refused if one of its elements is no literal, or if all are removed and
there is nothing to put in its place. If all are removed, what is put in its place is. Else the call stays with
the elements that have other values, the trailing comma and the rest of the arguments. -/
theorem render_list {m : Matcher} {r : Replacement} (hbuild : s.build = .ok (m, r)) {text : List Char}
    {hits : List Hit} (hfound : m.findAll text = .ok hits) {h : Hit} (hh : h ∈ hits) {items : String}
    (hitems : h.named? "items" = some items) :
    ∃ gap rest : String, h.text = s.call ++ "(" ++ gap ++ "[" ++ items ++ "]" ++ rest ++ ")" ∧
      (∀ c ∈ gap.toList, isBlank c = true) ∧ h.named? "rest" = some rest ∧
      ((∃ e, r.render h = .error e) ↔ (∃ e ∈ listed items.toList, ∀ value, ¬ Literal value e) ∨
        (∀ e ∈ listed items.toList, s.Drops e) ∧ s.emptyReplacement = none) ∧
      ((∀ e ∈ listed items.toList, s.Drops e) → ∀ t, s.emptyReplacement = some t → r.render h = .ok t) ∧
      ((∀ e ∈ listed items.toList, ∃ value, Literal value e) → (∃ e ∈ listed items.toList, ¬ s.Drops e) →
        ∃ short : String, r.render h = .ok (s.call ++ "([" ++ short ++ "]" ++ rest ++ ")") ∧
          listed short.toList = (listed items.toList).filter (fun e => ¬ s.Drops e) ∧
          ∀ blanks, Trails short.toList blanks ↔ Trails items.toList blanks) := by
  obtain ⟨gap, rest, hvalid, hchars, hcall, hrest⟩ := exists_list_of_mem hbuild hfound hh hitems
  obtain ⟨-, -, -, -, rfl, -⟩ := build_spec hbuild
  have hrender : (Replacement.computed s.rewrite).render h = s.rewriteList h (String.ofList items.toList) := by
    rw [Replacement.render, rewrite, hitems, String.ofList_toList]
  have htext : h.text = s.call ++ "(" ++ String.ofList gap ++ "[" ++ items ++ "]" ++ String.ofList rest ++ ")" := by
    rw [← String.toList_inj, Hit.text, hchars]
    simp [Occurrence.text]
  refine ⟨String.ofList gap, String.ofList rest, htext, by simpa using hvalid.1, hrest, ⟨?fails, ?refused⟩, ?emptied,
    ?shortened⟩
  case fails =>
    rintro ⟨e, herror⟩
    rw [hrender] at herror
    by_contra hfine
    obtain ⟨hliteral, hsome⟩ := not_or.1 hfine
    by_cases hall : ∀ e ∈ listed items.toList, s.Drops e
    · rw [rewriteList_emptied h hall] at herror
      cases hempty : s.emptyReplacement with
      | none => exact hsome ⟨hall, hempty⟩
      | some t =>
        rw [hempty] at herror
        cases herror
    · obtain ⟨short, hok, -⟩ := rewriteList_shortened h (by simpa using hliteral) (by simpa using hall)
      cases hok.symm.trans herror
  case refused =>
    rw [hrender]
    rintro (hother | ⟨hall, hempty⟩)
    · exact rewriteList_other h hother
    · exact ⟨.listEmptied h.text, by rw [rewriteList_emptied h hall, hempty]⟩
  case emptied =>
    intro hall t ht
    rw [hrender, rewriteList_emptied h hall, ht]
  case shortened =>
    intro hliteral hstay
    obtain ⟨short, hok, hlisted, htrails⟩ := rewriteList_shortened h hliteral hstay
    rw [hcall, hrest] at hok
    refine ⟨String.ofList short, hrender.trans hok, ?_⟩
    rw [String.toList_ofList]
    exact ⟨hlisted, htrails⟩

/-- The letter goes, and the comma at the end stays. -/
theorem render_letters : ∃ hits, letters.rule.matcher.findAll "_(['x', 'a',])".toList = .ok hits ∧ ∃ h ∈ hits,
    h.named? "items" = some "'x', 'a'," ∧ ∃ short : String,
      letters.rule.replacement.render h = .ok ("_([" ++ short ++ "])") ∧
        listed short.toList = ["'a'".toList] ∧ Trails short.toList [] := by
  obtain ⟨hits, hfound, h, hh, hitems, hrest⟩ := exists_hit_of_occurs letters_plain (by simp [letters]) letters_occurs
  rw [String.ofList_toList] at hitems
  obtain ⟨gap, rest, -, -, hrest', -, -, hstays⟩ := render_list letters_build hfound hh hitems
  obtain rfl : "" = rest := Option.some.inj (hrest.symm.trans hrest')
  have hlisted : listed "'x', 'a',".toList = ["'x'".toList, "'a'".toList] := by decide
  rw [hlisted] at hstays
  have hx : Literal ['x'] "'x'".toList := by decide
  have ha : Literal ['a'] "'a'".toList := by decide
  have hstay : ¬ letters.Drops "'a'".toList := by decide
  have hliterals : ∀ e ∈ ["'x'".toList, "'a'".toList], ∃ value, Literal value e :=
    List.forall_mem_cons.2 ⟨⟨_, hx⟩, List.forall_mem_singleton.2 ⟨_, ha⟩⟩
  obtain ⟨short, hrender, hshort, htrails⟩ := hstays hliterals ⟨_, by simp, hstay⟩
  refine ⟨hits, hfound, h, hh, hitems, short, ?_, ?_, (htrails []).2 ⟨⟨"'x', 'a'".toList, rfl⟩, nofun⟩⟩
  · rw [hrender, Except.ok.injEq, ← String.toList_inj]
    simp [letters]
  · rw [hshort]
    decide

end

end Codemod.ClosedSet
