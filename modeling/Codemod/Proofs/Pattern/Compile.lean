/-
Compiling a pattern. A pattern that compiles is what its text is read as (`compile_spec`), and one that is read
and always moves on compiles (`compile_of_parse`). The groups of every compiled pattern have numbers
(`compile_grouped`). Names of groups in small letters can be read (`run_named`).
-/
import Codemod.Proofs.Pattern.Later
import Codemod.Proofs.Pattern.Search
import Codemod.Proofs.Unicode.Letters
import Codemod.Rule.Matcher

namespace Codemod.Pattern

open Text Unicode

/-! ## From the text to the pattern -/

/-- A pattern that compiles is what its text is read as. -/
theorem compile_spec {f : MatchFlags} {source : String} {p : Codemod.Pattern} (h : f.compile source = .ok p) :
    ∃ x names, parse f.toFlags source.toList = .ok (x, names) ∧ p = ⟨source, x, names⟩ := by
  unfold MatchFlags.compile Pattern.compile at h
  cases hparse : parse f.toFlags source.toList with
  | error e =>
    rw [hparse] at h
    cases h
  | ok out =>
    obtain ⟨x, names⟩ := out
    rw [hparse] at h
    refine ⟨x, names, rfl, ?_⟩
    change (if Pattern.isMatch ⟨source, x, names⟩ [] = true then Except.error (Refusal.matchesEmpty source)
      else .ok ⟨source, x, names⟩) = .ok p at h
    split at h
    · cases h
    · exact (Except.ok.inj h).symm

theorem compile_grouped {f : MatchFlags} {source : String} {p : Codemod.Pattern} (h : f.compile source = .ok p) :
    p.node.Grouped (0 < ·) := by
  obtain ⟨x, names, hparse, rfl⟩ := compile_spec h
  exact parse_grouped hparse

/-- A pattern that moves on matches nothing in the empty text. -/
theorem isMatch_nil {p : Pattern} (hsimple : p.node.simple = true) (hmoves : p.node.nullable = false) :
    p.isMatch [] = false := by
  unfold Pattern.isMatch Pattern.scan
  cases h : (p.node.scan []).find? (.start []) with
  | none => rfl
  | some m =>
    obtain ⟨hle, hleads, -⟩ := find?_some hsimple (le_refl _) h
    have hlt : m.stop.left < m.start.left := hleads.left_lt hmoves
    have hleft : m.start.left ≤ 0 := Cursor.left_le_of_le hle
    omega

theorem compile_of_parse {source : String} {x : Node} {names : Names} (hparse : parse {} source.toList = .ok (x, names))
    (hsimple : x.simple = true) (hmoves : x.nullable = false) :
    MatchFlags.compile {} source = .ok ⟨source, x, names⟩ := by
  have hmatch : Pattern.isMatch ⟨source, x, names⟩ [] = false := isMatch_nil hsimple hmoves
  unfold MatchFlags.compile Pattern.compile
  rw [show MatchFlags.toFlags {} = {} from rfl, hparse]
  show (if Pattern.isMatch ⟨source, x, names⟩ [] = true then Except.error (Refusal.matchesEmpty source)
    else .ok ⟨source, x, names⟩) = (.ok ⟨source, x, names⟩ : Except Refusal Codemod.Pattern)
  rw [hmatch]
  rfl

/-! ## Reading names -/

theorem readName_lower {name more : List Char} (hne : name ≠ [])
    (hname : ∀ c ∈ name, 0x61 ≤ c.toNat ∧ c.toNat ≤ 0x7A) :
    Reading.readName (name ++ '>' :: more) = some (String.ofList name, more) := by
  have hchar (first : Bool) (c : Char) (hc : c ∈ name) : Reading.isNameChar first c = true := by
    have halphabetic := alphabetic_lower (hname c hc)
    have halphanumeric : alphanumeric.contains c = true := CharSet.contains_unions (by simp) halphabetic
    unfold Reading.isNameChar
    split
    · rw [halphabetic, Bool.or_true]
    · rw [halphanumeric, Bool.or_true]
  have hopen : ∀ c ∈ name, (c != '>') = true := by
    intro c hc
    rw [bne_iff_ne]
    rintro rfl
    exact absurd (hname _ hc).1 (by decide)
  have hspan : (name ++ '>' :: more).span (· != '>') = (name, '>' :: more) := by
    rw [List.span_eq_takeWhile_dropWhile, List.takeWhile_append_of_pos hopen, List.dropWhile_append_of_pos hopen]
    simp
  obtain ⟨c, cs, rfl⟩ := List.exists_cons_of_ne_nil hne
  unfold Reading.readName
  rw [hspan]
  simp only [hchar true c List.mem_cons_self, Bool.true_and]
  rw [if_pos (List.all_eq_true.2 fun d hd => hchar false d (List.mem_cons_of_mem c hd))]

theorem run_named {name more : List Char} {choices items : List Piece} {frames : List Frame} {names : Names}
    (hne : name ≠ []) (hname : ∀ c ∈ name, 0x61 ≤ c.toNat ∧ c.toNat ≤ 0x7A)
    (hnew : ∀ n ∈ names, n.1 ≠ String.ofList name) (groups fuel : Nat) :
    Reading.run (fuel + 1) ⟨'(' :: '?' :: 'P' :: '<' :: (name ++ '>' :: more), {}, choices, items, frames, groups, names⟩
      = Reading.run fuel ⟨more, {}, [], [], ⟨choices, items, some (groups + 1), {}⟩ :: frames, groups + 1,
          names ++ [(String.ofList name, groups + 1)]⟩ := by
  have hany : names.any (·.1 == String.ofList name) = false := by
    rw [List.any_eq_false]
    intro n hn
    simpa using hnew n hn
  rw [Reading.run]
  simp only [Flags.skip, Bool.false_eq_true, if_false, Reading.step, Reading.readGroup, Reading.openNamed,
    readName_lower hne hname, Option.bind_eq_bind, Option.bind_some, hany]
  rfl

/-- A reading that comes to the end of a text, with all groups closed and room for what was read. -/
theorem parse_of_run {cs : List Char} {last : Reading}
    (hrun : Reading.run (2 * cs.length + 2) { rest := cs, flags := {} } = some last) (hframes : last.frames = [])
    (hdepth : last.body.depth ≤ nestingLimit) (hfits : fits last.body.node = true) :
    parse {} cs = .ok (last.body.node, last.names) := by
  have hclosed : (!last.frames.isEmpty || decide (last.body.depth > nestingLimit)) = false := by
    simpa [hframes] using hdepth
  unfold parse
  rw [hrun]
  simp only [hclosed, hfits, Bool.false_eq_true, if_false, if_true]

end Codemod.Pattern
