/-
What a relocation looks for in a text, as texts: `from`, blanks, a quote, the way up, the source, and a closing
sign. `Occurs r b o cs more` says that the import `o` stands at the front of `cs`, with `b` before it and `more`
behind it. A path that is not dotted does not go on with the way up to it (`up_append_inj`), so that at a place there
stands at most one (`Occurs.unique`). `Pass` cuts a text into the imports that move and the characters that stay, in
one way only (`Pass.unique`).
-/
import Codemod.Proofs.ClosedSet.Grammar
import Codemod.Proofs.Pattern.Spelling
import Codemod.Rule.Relocation

namespace Codemod.Relocation

open Text Unicode Pattern
open ClosedSet (isQuote plain_of_isQuote plain_of_isBlank split_unique)

/-- The way from a file up to the directory in which a path starts: `./`, or `../` once and again. -/
def up : Nat → List Char
  | 0 => ['.', '/']
  | n + 1 => (List.replicate (n + 1) ['.', '.', '/']).flatten

/-- A path whose first component is `.` or `..`. -/
def Dotted (path : List Char) : Prop :=
  path.takeWhile (· ≠ '/') = ['.'] ∨ path.takeWhile (· ≠ '/') = ['.', '.']

/-- An import by a relative path, without the path itself. -/
structure Import where
  gap : List Char
  opening : Char
  depth : Nat
  closing : Char

namespace Import

/-- An import of a path that starts so many directories up. -/
def spelled (o : Import) (depth : Nat) (path : List Char) : List Char :=
  ['f', 'r', 'o', 'm'] ++ (o.gap ++ o.opening :: (up depth ++ (path ++ [o.closing])))

/-- An import as it stands in a text. -/
def text (r : Relocation) (o : Import) : List Char := o.spelled o.depth (withoutSlashes r.source)

/-- What an import becomes. -/
def image (r : Relocation) (o : Import) : List Char :=
  o.spelled (r.targetDepth.getD o.depth) (withoutSlashes r.target)

/-- What the parts of an import have to be. The path of a directory goes on behind it. -/
structure Valid (r : Relocation) (o : Import) : Prop where
  gap : ∀ c ∈ o.gap, isBlank c = true
  opening : isQuote o.opening = true
  depth : r.depths = [] ∨ o.depth ∈ r.depths
  closing : if r.isDirectory then o.closing = '/' else isQuote o.closing = true

end Import

structure Occurs (r : Relocation) (before : Option Char) (o : Import) (cs more : List Char) : Prop where
  valid : o.Valid r
  boundary : (Look.wordBoundary true).holds before (some 'f') = true
  text : cs = o.text r ++ more

/-- A piece of a text: a character that stays, or an import that moves. -/
inductive Segment where
  | kept (c : Char)
  | moved (o : Import)

namespace Segment

def source (r : Relocation) : Segment → List Char
  | kept c => [c]
  | moved o => o.text r

def result (r : Relocation) : Segment → List Char
  | kept c => [c]
  | moved o => o.image r

def isMoved : Segment → Bool
  | kept _ => false
  | moved _ => true

theorem flatMap_kept (r : Relocation) (cs : List Char) : (cs.map kept).flatMap (result r) = cs := by
  rw [List.flatMap_map]
  exact List.flatMap_singleton' cs

theorem countP_kept (cs : List Char) : (cs.map kept).countP isMoved = 0 := by
  rw [List.countP_map, List.countP_eq_zero]
  exact fun _ _ => nofun

end Segment

/-- A text, behind a character, cut into pieces from the left: where an import stands, it moves. -/
inductive Pass (r : Relocation) : Option Char → List Char → List Segment → Prop
  | done {before : Option Char} : Pass r before [] []
  | keep {before : Option Char} {c : Char} {cs : List Char} {segments : List Segment} :
      (∀ o more, ¬ r.Occurs before o (c :: cs) more) → Pass r (some c) cs segments →
      Pass r before (c :: cs) (.kept c :: segments)
  | move {before : Option Char} {o : Import} {cs more : List Char} {segments : List Segment} :
      r.Occurs before o cs more → Pass r (some o.closing) more segments → Pass r before cs (.moved o :: segments)

/-! ## The way up -/

section

variable {as bs cs ds : List Char} {c d : Char}

theorem not_isPrefix_dots (has : as ≠ []) (hdots : ¬ Dotted as) (hc : c ≠ '.') :
    ¬ ['.', '.', '/'] <+: as ++ c :: cs := by
  intro h
  match as, has with
  | [a], _ =>
    simp only [List.singleton_append, List.cons_prefix_cons] at h
    exact hc h.2.1.symm
  | [a, b], _ =>
    simp only [List.cons_append, List.cons_prefix_cons] at h
    obtain ⟨rfl, rfl, -⟩ := h
    exact hdots (.inr rfl)
  | a :: b :: e :: more, _ =>
    simp only [List.cons_append, List.cons_prefix_cons] at h
    obtain ⟨rfl, rfl, rfl, -⟩ := h
    exact hdots (.inr rfl)

theorem replicate_append_inj {w : List Char} (has : ¬ w <+: as) (hbs : ¬ w <+: bs) {m n : Nat}
    (h : (List.replicate m w).flatten ++ as = (List.replicate n w).flatten ++ bs) : m = n ∧ as = bs := by
  induction m generalizing n with
  | zero =>
    cases n with
    | zero => exact ⟨rfl, h⟩
    | succ n =>
      rw [List.replicate_succ, List.flatten_cons, List.append_assoc] at h
      exact absurd ⟨_, h.symm⟩ has
  | succ m ih =>
    cases n with
    | zero =>
      rw [List.replicate_succ, List.flatten_cons, List.append_assoc] at h
      exact absurd ⟨_, h⟩ hbs
    | succ n =>
      rw [List.replicate_succ, List.replicate_succ, List.flatten_cons, List.flatten_cons, List.append_assoc,
        List.append_assoc] at h
      obtain ⟨rfl, rfl⟩ := ih (List.append_cancel_left h)
      exact ⟨rfl, rfl⟩

/-- The way up ends where a path that is not dotted starts. -/
theorem up_append_inj (has : as ≠ []) (hbs : bs ≠ []) (hdots : ¬ Dotted as) (hdots' : ¬ Dotted bs)
    (hc : c ≠ '.') (hd : d ≠ '.') {m n : Nat}
    (h : up m ++ (as ++ c :: cs) = up n ++ (bs ++ d :: ds)) : m = n ∧ as ++ c :: cs = bs ++ d :: ds := by
  cases m with
  | zero =>
    cases n with
    | zero => exact ⟨rfl, List.append_cancel_left h⟩
    | succ n => simp [up, List.replicate_succ] at h
  | succ m =>
    cases n with
    | zero => simp [up, List.replicate_succ] at h
    | succ n => exact replicate_append_inj (not_isPrefix_dots has hdots hc) (not_isPrefix_dots hbs hdots' hd) h

theorem mem_up {n : Nat} (h : c ∈ up n) : c = '.' ∨ c = '/' := by
  cases n with
  | zero => simpa [up] using h
  | succ n =>
    obtain ⟨w, hw, hc⟩ := List.mem_flatten.1 h
    obtain rfl := List.eq_of_mem_replicate hw
    simpa using hc

end

/-! ## One import at a place -/

section

variable {r : Relocation} {before before' : Option Char} {o o' : Import} {cs more more' : List Char}
  {segments segments' : List Segment}

theorem Import.Valid.closing_ne (h : o.Valid r) {c : Char} (hc : isQuote c = false) (hslash : c ≠ '/') :
    o.closing ≠ c := by
  have hclosing := h.closing
  split at hclosing
  · rw [hclosing]
    exact hslash.symm
  · rintro rfl
    rw [hc] at hclosing
    cases hclosing

theorem Import.Valid.not_quote_of_mem_gap (h : o.Valid r) : ∀ c ∈ o.gap, isQuote c = false :=
  fun c hc => (plain_of_isBlank (h.gap c hc)).1

/-- Two imports at one place have the same keyword and spacing, and the same quote. -/
theorem spelled_inj (h : o.Valid r) (h' : o'.Valid r) {m n : Nat} {as bs : List Char}
    (htext : o.spelled m as ++ more = o'.spelled n bs ++ more') :
    o.gap = o'.gap ∧ o.opening = o'.opening ∧
      up m ++ (as ++ o.closing :: more) = up n ++ (bs ++ o'.closing :: more') := by
  simp only [Import.spelled, List.append_assoc, List.cons_append, List.nil_append] at htext
  have hbehind := (List.cons.inj (List.cons.inj (List.cons.inj (List.cons.inj htext).2).2).2).2
  exact split_unique h.not_quote_of_mem_gap h.opening h'.not_quote_of_mem_gap h'.opening hbehind

/-- Every import begins with the keyword. -/
theorem Occurs.keyword (h : r.Occurs before o cs more) : ['f', 'r', 'o', 'm'] <+: cs := by
  rw [h.text, Import.text, Import.spelled, List.append_assoc]
  exact List.prefix_append _ _

theorem Occurs.unique (hsource : withoutSlashes r.source ≠ []) (hdots : ¬ Dotted (withoutSlashes r.source))
    (h : r.Occurs before o cs more) (h' : r.Occurs before' o' cs more') : o = o' ∧ more = more' := by
  obtain ⟨hgap, hopening, hpath⟩ := spelled_inj h.valid h'.valid (h.text.symm.trans h'.text)
  have hne (o : Import) (h : o.Valid r) : o.closing ≠ '.' := h.closing_ne (by decide) (by decide)
  obtain ⟨hdepth, hbehind⟩ := up_append_inj hsource hsource hdots hdots (hne o h.valid) (hne o' h'.valid) hpath
  obtain ⟨hclosing, rfl⟩ := List.cons.inj (List.append_cancel_left hbehind)
  obtain ⟨gap, opening, depth, closing⟩ := o
  obtain ⟨gap', opening', depth', closing'⟩ := o'
  simp only at hgap hopening hdepth hclosing
  exact ⟨by rw [hgap, hopening, hdepth, hclosing], rfl⟩

/-- **A text is cut into pieces in one way.** -/
theorem Pass.unique (hsource : withoutSlashes r.source ≠ []) (hdots : ¬ Dotted (withoutSlashes r.source))
    (h : Pass r before cs segments) (h' : Pass r before cs segments') : segments = segments' := by
  induction h generalizing segments' with
  | done =>
    cases h' with
    | done => rfl
    | move ho _ => simpa [Import.text, Import.spelled] using ho.text
  | keep hnone _ ih =>
    cases h' with
    | keep _ hrest => rw [ih hrest]
    | move ho _ => exact absurd ho (hnone _ _)
  | move ho _ ih =>
    cases h' with
    | done => simpa [Import.text, Import.spelled] using ho.text
    | keep hnone _ => exact absurd ho (hnone _ _)
    | move ho' hrest =>
      obtain ⟨rfl, rfl⟩ := ho.unique hsource hdots ho'
      rw [ih hrest]

/-- The pieces are those of the text. -/
theorem Pass.source (h : Pass r before cs segments) : segments.flatMap (Segment.source r) = cs := by
  induction h with
  | done => rfl
  | keep _ _ ih => exact congrArg _ ih
  | move ho _ ih =>
    rw [ho.text, ← ih]
    rfl

end

end Codemod.Relocation
