/-
One pass of a closed set over a text, as a relation between texts. `Pass s b cs out` goes from the left:
a character at which no occurrence stands is kept, and an occurrence gives way to its image, if it has one.
A rule that is built from the closed set makes of a text what the relation says (`apply_pass`).
-/
import Codemod.Proofs.ClosedSet.Finds
import Codemod.Proofs.ClosedSet.Items
import Codemod.Proofs.Pattern.Compile
import Codemod.Proofs.Rule.Hits
import Codemod.Rule.Basic

namespace Codemod.ClosedSet

open Text Unicode Pattern

/-- What an occurrence becomes. A list of which nothing stays, or that holds more than literals, need not
have an image. -/
def Occurrence.Image (s : ClosedSet) : Occurrence → List Char → Prop
  | list _ items rest, image =>
    (∃ short, s.Shortens items short ∧ image = (list [] short rest).text s) ∨
      (s.kept (elements items) = .ok [] ∧ ∃ text, s.emptyReplacement = some text ∧ image = text.toList)
  | fallback gap opening _ _, image =>
    ∃ value, s.default = some value ∧ image = (fallback gap opening value.toList opening).text s

/-- A pass over a text, with the character before it and what comes of it: nothing, where it gets to an
occurrence without an image. -/
inductive Pass (s : ClosedSet) : Option Char → List Char → Option (List Char) → Prop
  | done {before : Option Char} : Pass s before [] (some [])
  | keep {before : Option Char} {c : Char} {cs : List Char} {out : Option (List Char)} :
      (∀ o more, ¬ s.Occurs before o (c :: cs) more) → Pass s (some c) cs out →
      Pass s before (c :: cs) (out.map (c :: ·))
  | hit {before : Option Char} {o : Occurrence} {cs more image : List Char} {out : Option (List Char)} :
      s.Occurs before o cs more → o.Image s image → Pass s (lastOr before (o.text s)) more out →
      Pass s before cs (out.map (image ++ ·))
  | refused {before : Option Char} {o : Occurrence} {cs more : List Char} :
      s.Occurs before o cs more → (∀ image, ¬ o.Image s image) → Pass s before cs none

section

variable {s : ClosedSet} {o : Occurrence} {cs image image' : List Char} {out : Option (List Char)}
  {c d : Cursor}

theorem Occurrence.Image.unique (h : o.Image s image) (h' : o.Image s image') : image = image' := by
  cases o with
  | list gap items rest =>
    rcases h with ⟨short, ⟨k, ks, hkept, rfl⟩, rfl⟩ | ⟨hkept, t, ht, rfl⟩ <;>
    rcases h' with ⟨short', ⟨k', ks', hkept', rfl⟩, rfl⟩ | ⟨hkept', t', ht', rfl⟩
    · obtain ⟨rfl, rfl⟩ := List.cons.inj (Except.ok.inj (hkept.symm.trans hkept'))
      rfl
    · cases hkept.symm.trans hkept'
    · cases hkept.symm.trans hkept'
    · rw [Option.some.inj (ht.symm.trans ht')]
  | fallback gap opening value closing =>
    obtain ⟨d, hd, rfl⟩ := h
    obtain ⟨d', hd', rfl⟩ := h'
    rw [Option.some.inj (hd.symm.trans hd')]

/-! ## Building -/

/-- What is built of a closed set: its pattern, as it is read, and its way of rewriting. -/
theorem build_spec {m : Matcher} {r : Replacement} (h : s.build = .ok (m, r)) :
    s.call ≠ "" ∧ s.remove ≠ [] ∧ (∀ v ∈ s.remove, v ≠ "") ∧
      (s.fallbackContext.isSome = true → s.default.isSome = true) ∧ r = .computed s.rewrite ∧
      ∃ x names, m = .regex ⟨s.pattern, x, names⟩ ∧ parse {} s.pattern.toList = .ok (x, names) := by
  unfold build at h
  cases hcall : isBlankText s.call with
  | true =>
    rw [hcall] at h
    cases h
  | false =>
    cases hvalues : s.remove.isEmpty || s.remove.any (·.isEmpty) with
    | true =>
      rw [hcall, hvalues] at h
      cases h
    | false =>
      cases hcontext : s.fallbackContext.isSome && s.default.isNone with
      | true =>
        rw [hcall, hvalues, hcontext] at h
        cases h
      | false =>
        rw [hcall, hvalues, hcontext] at h
        change (((MatchFlags.compile {} s.pattern).map .regex) >>= fun m => pure (m, .computed s.rewrite))
          = Except.ok (m, r) at h
        cases hcompile : MatchFlags.compile {} s.pattern with
        | error e =>
          rw [hcompile] at h
          cases h
        | ok p =>
          rw [hcompile] at h
          obtain ⟨rfl, rfl⟩ := Prod.mk.inj (Except.ok.inj h)
          obtain ⟨x, names, hparse, rfl⟩ := compile_spec hcompile
          obtain ⟨hsome, hall⟩ := Bool.or_eq_false_iff.1 hvalues
          refine ⟨?_, by simpa using hsome, ?_, by simpa [Option.isNone_iff_eq_none, Option.isSome_iff_ne_none] using hcontext, rfl, x, names, rfl, hparse⟩
          · rintro hempty
            rw [hempty] at hcall
            cases hcall
          · rintro v hv rfl
            exact List.any_eq_false.1 hall "" hv rfl

/-! ## Rewriting a hit -/

theorem rewriteList_eq (h : Hit) (items : List Char) :
    s.rewriteList h (String.ofList items) = match s.kept (elements items) with
      | .error e => .error e
      | .ok [] => match s.emptyReplacement with
        | some text => .ok text
        | none => .error (.listEmptied h.text)
      | .ok (k :: ks) => .ok ((h.named? "call").getD s.call ++ "(["
          ++ String.ofList (joinItems (lead items) (k :: ks) (trailing? (splitItems items))) ++ "]"
          ++ (h.named? "rest").getD "" ++ ")") := by
  rw [rewriteList, String.toList_ofList]
  show (s.kept (elements items) >>= _) = _
  cases s.kept (elements items) with
  | error e => rfl
  | ok ks =>
    cases ks with
    | nil => cases s.emptyReplacement <;> rfl
    | cons k ks => rfl

theorem listGroups_isPrefix (s : ClosedSet) : listGroups <+: s.groups := by
  unfold groups
  split
  · exact List.prefix_refl _
  · exact ⟨[("or", 4), ("dq", 5)], rfl⟩

/-- The groups of a match by their names, where the first of them are those of a list. -/
theorem named_eq {p : Pattern} (hnames : listGroups <+: p.names) (m : Match) :
    (Hit.ofMatch p m).named? "call" = m.group? 1 ∧ (Hit.ofMatch p m).named? "items" = m.group? 2 ∧
      (Hit.ofMatch p m).named? "rest" = m.group? 3 := by
  obtain ⟨more, hnames⟩ := hnames
  simp [Hit.named?, Hit.ofMatch, Captures.named?, Captures.group?, ← hnames, listGroups]

/-- The groups of a match on a list, by their names. -/
theorem named_list {p : Pattern} {m : Match} (hnames : listGroups <+: p.names) {gap items rest : List Char}
    (h : (Occurrence.list gap items rest).Captured s m.groups) :
    (Hit.ofMatch p m).named? "call" = some s.call ∧
      (Hit.ofMatch p m).named? "items" = some (String.ofList items) ∧
      (Hit.ofMatch p m).named? "rest" = some (String.ofList rest) := by
  obtain ⟨a, b, c, d, e, f, hgroups, hcall, hitems, hrest⟩ := h
  obtain ⟨h1, h2, h3⟩ := named_eq hnames m
  rw [h1, h2, h3]
  simp [Match.group?, hgroups, hcall, hitems, hrest]

theorem named_fallback {p : Pattern} {m : Match} (hnames : p.names = s.groups)
    (hdefault : s.default.isSome = true) {gap value : List Char} {opening closing : Char}
    (h : (Occurrence.fallback gap opening value closing).Captured s m.groups) :
    (Hit.ofMatch p m).named? "items" = none ∧
      (Hit.ofMatch p m).named? "or" = some (String.ofList ('|' :: '|' :: gap)) ∧
      (Hit.ofMatch p m).named? "dq" = some (String.ofList [opening]) := by
  obtain ⟨a, b, c, d, hgroups, hor, hquote⟩ := h
  have hnames' : p.names = fallbackGroups := by
    rw [hnames, groups]
    split
    · next hnone => rw [hnone] at hdefault; cases hdefault
    · rfl
  simp [Hit.named?, Hit.ofMatch, Captures.named?, Captures.group?, hnames', fallbackGroups, Match.group?,
    hgroups, hor, hquote]

/-- A hit on an occurrence is rewritten to its image, or refused where there is none. -/
theorem rewrite_ofMatch {p : Pattern} {m : Match} (hnames : p.names = s.groups) (hvalid : o.Valid s)
    (hcaptured : o.Captured s m.groups) :
    (∃ text, s.rewrite (.ofMatch p m) = .ok text ∧ o.Image s text.toList) ∨
      ((∃ e, s.rewrite (.ofMatch p m) = .error e) ∧ ∀ image, ¬ o.Image s image) := by
  cases o with
  | list gap items rest =>
    obtain ⟨hcall, hitems, hrest⟩ := named_list (hnames ▸ s.listGroups_isPrefix) hcaptured
    have hrewrite : s.rewrite (.ofMatch p m) = s.rewriteList (.ofMatch p m) (String.ofList items) := by
      rw [rewrite, hitems]
    rw [hrewrite, rewriteList_eq, hcall, hrest]
    cases hkept : s.kept (elements items) with
    | error e =>
      refine .inr ⟨⟨e, rfl⟩, fun image h => ?_⟩
      rcases h with ⟨short, ⟨k, ks, hok, -⟩, -⟩ | ⟨hok, -⟩
      · cases hkept.symm.trans hok
      · cases hkept.symm.trans hok
    | ok ks =>
      cases ks with
      | nil =>
        cases hempty : s.emptyReplacement with
        | some text => exact .inl ⟨text, rfl, .inr ⟨hkept, text, hempty, rfl⟩⟩
        | none =>
          refine .inr ⟨⟨_, rfl⟩, fun image h => ?_⟩
          rcases h with ⟨short, ⟨k, ks, hok, -⟩, -⟩ | ⟨-, text, htext, -⟩
          · cases hkept.symm.trans hok
          · cases hempty.symm.trans htext
      | cons k ks =>
        refine .inl ⟨_, rfl, .inl ⟨_, ⟨k, ks, hkept, rfl⟩, ?_⟩⟩
        simp [Occurrence.text]
  | fallback gap opening value closing =>
    obtain ⟨hitems, hor, hquote⟩ := named_fallback hnames hvalid.1 hcaptured
    obtain ⟨d, hd⟩ := Option.isSome_iff_exists.1 hvalid.1
    refine .inl ⟨String.ofList ('|' :: '|' :: gap) ++ String.ofList [opening] ++ d ++ String.ofList [opening],
      ?_, d, hd, ?_⟩
    · rw [rewrite, hitems, hd, hor, hquote]
    · simp [Occurrence.text]

/-! ## The pass that a rule makes -/

/-- What the pattern does not match is kept. -/
theorem pass_stretch (hspans : c.Spans cs d) (hne : s.remove ≠ [])
    (hnone : ∀ e, c ≤ e → e < d → ¬ s.node.MatchesAt e) (h : Pass s d.before d.ahead out) :
    Pass s c.before c.ahead (out.map (cs ++ ·)) := by
  induction cs generalizing c with
  | nil =>
    obtain rfl := hspans.unique (Cursor.spans_nil c)
    simpa using h
  | cons a cs ih =>
    obtain ⟨e, hone, hrest⟩ := hspans.split [a]
    have hlt : c < d := Cursor.lt_iff.2 ⟨hspans.le, by rw [hspans.left, List.length_cons]; omega⟩
    have hkept : ∀ o more, ¬ s.Occurs c.before o c.ahead more := fun o more ho =>
      hnone c (le_refl c) hlt (matchesAt_node hne ho)
    have hbehind := ih hrest fun e' he' hlt' => hnone e' (hone.le.trans he') hlt'
    rw [show e.before = some a from hone.before] at hbehind
    rw [show c.ahead = a :: e.ahead from hone.ahead] at hkept ⊢
    have hpass := hbehind.keep hkept
    rwa [Option.map_map] at hpass

/-- Replacing the matches, from left to right, is a pass. -/
theorem splice_pass {p : Pattern} (hnames : p.names = s.groups) (hne : s.remove ≠ []) {ms : List Match}
    (h : Leftmost s.node c ms) :
    Pass s c.before c.ahead (Rule.splice (.computed s.rewrite) c (ms.map (Hit.ofMatch p))).toOption := by
  induction h with
  | @nil c hnone =>
    obtain ⟨d, hspans, hend⟩ := Cursor.exists_spans (List.append_nil c.ahead).symm
    have hdone : Pass s d.before d.ahead (some []) := by
      rw [hend]
      exact .done
    have hpass := pass_stretch hspans hne (fun e he _ => hnone e he) hdone
    rwa [Option.map_some, List.append_nil] at hpass
  | @cons c m ms hle hnone hleads _ ih =>
    obtain ⟨o, hvalid, hanchored, hspans, hcaptured⟩ := leads_node hne hleads
    have hoccurs : s.Occurs m.start.before o m.start.ahead m.stop.ahead := ⟨hvalid, hanchored, hspans.ahead⟩
    have hstretch : c.Spans (c.upTo m.start) m.start := ⟨hle, rfl⟩
    rw [hspans.before] at ih
    rw [List.map_cons, Rule.splice]
    rcases rewrite_ofMatch hnames hvalid hcaptured with ⟨text, hok, himage⟩ | ⟨⟨e, herror⟩, hrefused⟩
    · have hpass := pass_stretch hstretch hne hnone (.hit hoccurs himage ih)
      rw [Option.map_map] at hpass
      rw [Replacement.render, hok]
      show Pass s c.before c.ahead (Except.toOption
        (Rule.splice (.computed s.rewrite) m.stop (ms.map (Hit.ofMatch p)) >>= fun rest =>
          pure (c.upTo m.start ++ text.toList ++ rest)))
      cases hrest : Rule.splice (.computed s.rewrite) m.stop (ms.map (Hit.ofMatch p)) with
      | error e =>
        rw [hrest] at hpass
        exact hpass
      | ok rest =>
        rw [hrest] at hpass
        show Pass s c.before c.ahead (some (c.upTo m.start ++ text.toList ++ rest))
        rw [List.append_assoc]
        exact hpass
    · have hpass := pass_stretch hstretch hne hnone (.refused hoccurs hrefused)
      rw [Replacement.render, herror]
      exact hpass

/-- A rule that replaces the matches of the pattern makes a pass over a text. -/
theorem apply_pass {r : Rule} {p : Pattern} (hmatcher : r.matcher = .regex p)
    (hreplacement : r.replacement = .computed s.rewrite) (hnode : p.node = s.node)
    (hnames : p.names = s.groups) (hne : s.remove ≠ []) (text : String) :
    Pass s none text.toList
      ((r.apply text).toOption.map fun result => ((result.map (·.1)).getD text).toList) := by
  obtain ⟨ms, hhits, hleftmost⟩ :=
    Matcher.regexHits_leftmost (hnode ▸ simple_node hne) (hnode ▸ nullable_node) text.toList
  have hpass := splice_pass hnames hne (hnode ▸ hleftmost)
  have hfind : r.matcher.findAll text.toList = .ok (ms.map (Hit.ofMatch p)) := by
    rw [hmatcher]
    exact hhits
  generalize ms.map (Hit.ofMatch p) = hits at hfind hpass
  rw [← hreplacement] at hpass
  cases hits with
  | nil =>
    have happly : r.apply text = .ok none := by
      simp only [Rule.apply, hfind]
      rfl
    rw [happly]
    exact hpass
  | cons h hits =>
    have happly : r.apply text
        = (Rule.splice r.replacement (.start text.toList) (h :: hits) >>= fun content =>
          pure (some (String.ofList content, (h :: hits).length))) := by
      rw [Rule.apply, hfind]
      rfl
    rw [happly]
    cases hsplice : Rule.splice r.replacement (.start text.toList) (h :: hits) with
    | error e =>
      rw [hsplice] at hpass
      exact hpass
    | ok content =>
      rw [hsplice] at hpass
      show Pass s none text.toList (some (String.ofList content).toList)
      rw [String.toList_ofList]
      exact hpass

end

end Codemod.ClosedSet
