/-
What a relocation does to a text. The template puts the parts of an import around the target, whatever signs the
target has (`render_captured`), and the matches of the pattern are the imports of a pass over the text
(`splice_pass`). So a relocation that is built hits just the imports of its grammar, from left to right, and each
becomes its image (`build_relocates`).
-/
import Codemod.Proofs.Pattern.Compile
import Codemod.Proofs.Relocation.Reads
import Codemod.Proofs.Rule.Hits
import Codemod.Proofs.Rule.Template
import Codemod.Rule.Basic

namespace Codemod.Relocation

open Text Unicode Pattern

section

variable {r : Relocation} {o : Import} {cs : List Char} {c d : Cursor} {segments : List Segment}

/-! ## Building -/

/-- What is built of a relocation: its pattern, as it is read, and its template. -/
theorem build_spec {m : Matcher} {replacement : Replacement} (h : r.build = .ok (m, replacement)) :
    withoutSlashes r.source ≠ [] ∧ withoutSlashes r.target ≠ [] ∧ m = .regex ⟨r.pattern, r.node, groups⟩ ∧
      replacement = .template r.template := by
  unfold build at h
  cases hsource : (withoutSlashes r.source).isEmpty with
  | true =>
    rw [hsource] at h
    cases h
  | false =>
    cases htarget : (withoutSlashes r.target).isEmpty with
    | true =>
      rw [hsource, htarget] at h
      cases h
    | false =>
      rw [hsource, htarget] at h
      change ((MatchFlags.compile {} r.pattern).map .regex >>= fun m => pure (m, .template r.template))
        = Except.ok (m, replacement) at h
      cases hcompile : MatchFlags.compile {} r.pattern with
      | error e =>
        rw [hcompile] at h
        cases h
      | ok p =>
        rw [hcompile] at h
        obtain ⟨rfl, rfl⟩ := Prod.mk.inj (Except.ok.inj h)
        obtain ⟨x, names, hparse, rfl⟩ := compile_spec hcompile
        obtain ⟨rfl, rfl⟩ := parse_pattern hparse
        exact ⟨by simpa using hsource, by simpa using htarget, rfl, rfl⟩

/-- The rule that a relocation is built into. -/
def rule (r : Relocation) : Rule := ⟨"move", "", .regex ⟨r.pattern, r.node, groups⟩, .template r.template⟩

/-- A relocation whose pattern can be read is built. -/
theorem build_eq (hsource : withoutSlashes r.source ≠ []) (htarget : withoutSlashes r.target ≠ [])
    (hparse : ∃ x names, parse {} r.pattern.toList = .ok (x, names)) :
    r.build = .ok (r.rule.matcher, r.rule.replacement) := by
  obtain ⟨x, names, hparse⟩ := hparse
  obtain ⟨rfl, rfl⟩ := parse_pattern hparse
  have hcompile := compile_of_parse hparse r.simple_node r.nullable_node
  have hsome : (withoutSlashes r.source).isEmpty = false := by simpa using hsource
  have hsome' : (withoutSlashes r.target).isEmpty = false := by simpa using htarget
  unfold build
  rw [hsome, hsome']
  show ((MatchFlags.compile {} r.pattern).map Matcher.regex >>= fun m => pure (m, Replacement.template r.template)) = _
  rw [hcompile]
  rfl

/-! ## The template -/

/-- What stands for the way up in the template. -/
def dotsTemplate (r : Relocation) : List Char :=
  match r.targetDepth with
  | some depth => up depth
  | none => '$' :: '{' :: (['d', 'o', 't', 's'] ++ ['}'])

theorem toList_template (r : Relocation) : r.template.toList =
    '$' :: '{' :: (['k', 'w'] ++ '}' :: ('$' :: '{' :: (['q'] ++ '}' :: (r.dotsTemplate
      ++ (((withoutSlashes r.target).flatMap fun c => if c == '$' then ['$', '$'] else [c])
        ++ '$' :: '{' :: (['e', 'n', 'd'] ++ ['}'])))))) := by
  unfold template dotsTemplate
  rcases r.targetDepth with _ | _ | depth <;> simp [up]

/-- The parts of the way up in the template. -/
def dotsParts (r : Relocation) : List Template.Part :=
  match r.targetDepth with
  | some depth => (up depth).map .char
  | none => [.named "dots"]

theorem parts_dots (rest : List Char) :
    Template.parts 0 (r.dotsTemplate ++ rest) = r.dotsParts ++ Template.parts 0 rest := by
  unfold dotsTemplate dotsParts
  cases r.targetDepth with
  | none => exact Template.parts_reference ['d', 'o', 't', 's'] (by decide)
  | some depth => exact Template.parts_chars fun h => by rcases mem_up h with h | h <;> cases h

/-- Every sign of the target stands for itself, the dollar signs and braces among them. -/
theorem parts_template (r : Relocation) : Template.parts 0 r.template.toList =
    .named "kw" :: .named "q" :: (r.dotsParts ++ ((withoutSlashes r.target).map .char ++ [.named "end"])) := by
  rw [toList_template, Template.parts_reference _ (by decide), Template.parts_reference _ (by decide), parts_dots,
    Template.parts_doubled, Template.parts_reference _ (by decide)]
  rfl

/-- **A hit is rendered as the image of its import.** -/
theorem render_captured {m : Match} (h : o.Captured m.groups) (source : String) (x : Node) :
    Replacement.render (.template r.template) (.ofMatch ⟨source, x, groups⟩ m) = .ok (String.ofList (o.image r)) := by
  obtain ⟨a, b, c, d, e, f, hgroups, hkw, hq, hdots, hend⟩ := h
  have hnamed (name : String) (i : Nat) (hname : (groups.find? fun n => n.1 == name) = some (name, i)) :
      Template.Part.render ⟨m, groups⟩ (.named name) = ((m.group? i).getD "").toList := by
    rw [Template.Part.render, Captures.named?, hname]
    rfl
  have hchars (cs : List Char) : (cs.map Template.Part.char).flatMap (Template.Part.render ⟨m, groups⟩) = cs := by
    rw [List.flatMap_map]
    exact List.flatMap_singleton' cs
  have hup : r.dotsParts.flatMap (Template.Part.render ⟨m, groups⟩) = up (r.targetDepth.getD o.depth) := by
    unfold dotsParts
    cases r.targetDepth with
    | some depth => exact hchars _
    | none =>
      rw [List.flatMap_singleton, hnamed "dots" 3 rfl]
      simp [Match.group?, hgroups, hdots]
  have hparts : (Template.parts 0 r.template.toList).flatMap (Template.Part.render ⟨m, groups⟩) = o.image r := by
    rw [parts_template, List.flatMap_cons, List.flatMap_cons, List.flatMap_append, List.flatMap_append, hup, hchars,
      List.flatMap_singleton, hnamed "kw" 1 rfl, hnamed "q" 2 rfl, hnamed "end" 4 rfl]
    simp [Match.group?, hgroups, hkw, hq, hend, Import.image, Import.spelled]
  show Except.ok (Template.expand r.template ⟨m, groups⟩) = _
  rw [Template.expand, hparts]

/-! ## The pass that a rule makes -/

/-- The places between which the imports of a pass stand. -/
def places (r : Relocation) : Cursor → List Segment → List (Cursor × Cursor)
  | _, [] => []
  | c, .kept _ :: segments => places r (c.advance 1) segments
  | c, .moved o :: segments =>
    (c, c.advance (o.text r).length) :: places r (c.advance (o.text r).length) segments

/-- What the pattern does not match stays. -/
theorem pass_stretch (hsource : withoutSlashes r.source ≠ []) (hspans : c.Spans cs d)
    (hnone : ∀ e, c ≤ e → e < d → ¬ r.node.MatchesAt e) (h : Pass r d.before d.ahead segments) :
    Pass r c.before c.ahead (cs.map .kept ++ segments) := by
  induction cs generalizing c with
  | nil =>
    obtain rfl := hspans.unique (Cursor.spans_nil c)
    exact h
  | cons a cs ih =>
    obtain ⟨e, hone, hrest⟩ := hspans.split [a]
    have hlt : c < d := Cursor.lt_iff.2 ⟨hspans.le, by rw [hspans.left, List.length_cons]; omega⟩
    have hkept : ∀ o more, ¬ r.Occurs c.before o c.ahead more := fun o more ho =>
      hnone c (le_refl c) hlt (matchesAt_node hsource ho)
    have hbehind := ih hrest fun e' he' hlt' => hnone e' (hone.le.trans he') hlt'
    rw [show e.before = some a from hone.before] at hbehind
    rw [show c.ahead = a :: e.ahead from hone.ahead] at hkept ⊢
    exact hbehind.keep hkept

theorem places_stretch (hspans : c.Spans cs d) :
    places r c (cs.map .kept ++ segments) = places r d segments := by
  induction cs generalizing c with
  | nil =>
    obtain rfl := hspans.unique (Cursor.spans_nil c)
    rfl
  | cons a cs ih =>
    obtain ⟨e, hone, hrest⟩ := hspans.split [a]
    rw [← ih hrest, hone.eq_advance]
    rfl

/-- What a pass over the rest of a text tells of the hits there. -/
structure Made (r : Relocation) (c : Cursor) (hits : List Hit) (segments : List Segment) : Prop where
  pass : Pass r c.before c.ahead segments
  places : hits.map (fun h => (h.start, h.stop)) = places r c segments
  splice : Rule.splice (.template r.template) c hits = .ok (segments.flatMap (Segment.result r))
  count : hits.length = segments.countP Segment.isMoved

/-- Replacing the matches, from left to right, is a pass. -/
theorem exists_made (hsource : withoutSlashes r.source ≠ []) {ms : List Match} (h : Leftmost r.node c ms) :
    ∃ segments, Made r c (ms.map (Hit.ofMatch ⟨r.pattern, r.node, groups⟩)) segments := by
  induction h with
  | @nil c hnone =>
    obtain ⟨d, hspans, hend⟩ := Cursor.exists_spans (List.append_nil c.ahead).symm
    have hdone : Pass r d.before d.ahead [] := by
      rw [hend]
      exact .done
    refine ⟨_, pass_stretch hsource hspans (fun e he _ => hnone e he) hdone, ?_, ?_, ?_⟩
    · rw [places_stretch hspans]
      rfl
    · rw [List.append_nil, Segment.flatMap_kept]
      rfl
    · rw [List.append_nil, Segment.countP_kept]
      rfl
  | @cons c m ms hle hnone hleads _ ih =>
    obtain ⟨segments, hmade⟩ := ih
    obtain ⟨o, hoccurs, hspans, hcaptured⟩ := leads_node hsource hleads
    have hstretch : c.Spans (c.upTo m.start) m.start := ⟨hle, rfl⟩
    have hclosing : m.stop.before = some o.closing := by
      rw [hspans.before, Import.text, Import.spelled]
      simp [lastOr]
    have hpass : Pass r m.start.before m.start.ahead (.moved o :: segments) := by
      refine .move hoccurs ?_
      rw [← hclosing]
      exact hmade.pass
    refine ⟨_, pass_stretch hsource hstretch hnone hpass, ?_, ?_, ?_⟩
    · rw [places_stretch hstretch, places, ← hspans.eq_advance, ← hmade.places]
      rfl
    · rw [List.map_cons, Rule.splice, render_captured hcaptured]
      show (Rule.splice (.template r.template) m.stop _ >>= fun rest =>
        pure (c.upTo m.start ++ (String.ofList (o.image r)).toList ++ rest)) = _
      rw [hmade.splice, List.flatMap_append, Segment.flatMap_kept, String.toList_ofList]
      exact congrArg Except.ok (List.append_assoc ..)
    · rw [List.map_cons, List.length_cons, hmade.count, List.countP_append, Segment.countP_kept, Nat.zero_add,
        List.countP_cons_of_pos rfl]

/-- What a relocation does to a text that is cut into pieces. -/
structure Relocates (r : Relocation) (m : Matcher) (replacement : Replacement) (text : String)
    (segments : List Segment) : Prop where
  /-- From the left, the imports that can be are found, none of them within another. -/
  pass : Pass r none text.toList segments
  /-- The text can be cut in no other way. -/
  only : ∀ other, Pass r none text.toList other → other = segments
  /-- The hits are the imports. -/
  hits : ∃ hits, m.findAll text.toList = .ok hits ∧
    hits.map (fun h => (h.start, h.stop)) = places r (.start text.toList) segments
  /-- The imports become their images, and every other character stays. -/
  apply : ∀ id description, Rule.apply ⟨id, description, m, replacement⟩ text =
    .ok (if segments.countP Segment.isMoved = 0 then none
      else some (String.ofList (segments.flatMap (Segment.result r)), segments.countP Segment.isMoved))

/-- **A relocation hits exactly the imports of its grammar.** They are found from left to right, and each becomes
the import of the target with its own spacing, quote and closing sign; everything else in the text stays. -/
theorem build_relocates {m : Matcher} {replacement : Replacement} (h : r.build = .ok (m, replacement))
    (hdots : ¬ Dotted (withoutSlashes r.source)) (text : String) :
    ∃ segments, r.Relocates m replacement text segments := by
  obtain ⟨hsource, -, rfl, rfl⟩ := build_spec h
  obtain ⟨ms, hhits, hleftmost⟩ := Matcher.regexHits_leftmost (p := ⟨r.pattern, r.node, groups⟩) r.simple_node
    r.nullable_node text.toList
  obtain ⟨segments, hmade⟩ := exists_made hsource hleftmost
  generalize ms.map (Hit.ofMatch ⟨r.pattern, r.node, groups⟩) = hits at hhits hmade
  refine ⟨segments, hmade.pass, fun other hother => hother.unique hsource hdots hmade.pass, ⟨hits, hhits, hmade.places⟩,
    fun id description => ?_⟩
  have hfind : (Matcher.regex ⟨r.pattern, r.node, groups⟩).findAll text.toList = .ok hits := hhits
  rw [← hmade.count]
  cases hits with
  | nil =>
    simp only [Rule.apply, hfind]
    rfl
  | cons hit hits =>
    have happly : Rule.apply ⟨id, description, .regex ⟨r.pattern, r.node, groups⟩, .template r.template⟩ text
        = (Rule.splice (.template r.template) (.start text.toList) (hit :: hits) >>= fun content =>
          pure (some (String.ofList content, (hit :: hits).length))) := by
      rw [Rule.apply, hfind]
      rfl
    rw [happly, hmade.splice, if_neg (by simp)]
    rfl

/-- A module that moves to a name with a dollar sign in it. -/
def moduleMove : Relocation := { source := "a/", target := "$b" }

theorem moduleMove_build : moduleMove.build = .ok (moduleMove.rule.matcher, moduleMove.rule.replacement) :=
  build_eq (by decide) (by decide) (exists_parse (by decide) rfl)

theorem boundary_start : (Look.wordBoundary true).holds none (some 'f') = true := by
  refine startsWord ?_
  rw [isWord, if_pos rfl]
  exact words_lower (by decide)

theorem moduleMove_pass : Pass moduleMove none "from '../a'".toList [.moved ⟨[' '], '\'', 1, '\''⟩] :=
  .move ⟨⟨by simp [isBlank], rfl, .inl rfl, rfl⟩, boundary_start, by rfl⟩ .done

theorem build_relocates_module :
    moduleMove.build = .ok (moduleMove.rule.matcher, moduleMove.rule.replacement) ∧
    ¬ Dotted (withoutSlashes moduleMove.source) ∧
    moduleMove.rule.apply "from '../a'" = .ok (some ("from '../$b'", 1)) := by
  have hdots : ¬ Dotted (withoutSlashes moduleMove.source) := by
    rw [show withoutSlashes moduleMove.source = ['a'] by decide]
    simp [Dotted]
  obtain ⟨segments, hrelocates⟩ := build_relocates moduleMove_build hdots "from '../a'"
  refine ⟨moduleMove_build, hdots, (hrelocates.apply "move" "").trans ?_⟩
  rw [← hrelocates.only _ moduleMove_pass]
  decide

end

end Codemod.Relocation
