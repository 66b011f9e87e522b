/-
A relocation applied to what it has made. An import in the made text that does not start at an image was in the
text before (`Pass.kept_again`), and none starts inside an image (`free_behind`), so that all turns on whether an
image is an import again. The image of a whole specifier is none, or is its own image (`relocate_again`). The image
of a directory is one as soon as source and target lie one below the other (`relocate_directory_again_iff`): what
has moved from `a` to `a/b` moves once more (`directoryMove_again`).
-/
import Codemod.Proofs.ClosedSet.Idempotent
import Codemod.Proofs.Relocation.Moves

namespace Codemod

/-- What the rule makes of a text, it leaves as it is. -/
def Rule.Idempotent (r : Rule) : Prop := ∀ text, ∃ made, r.made? text = some made ∧ r.made? made = some made

namespace Relocation

open Text Unicode Pattern
open ClosedSet (isQuote split_unique append_cons_cases)

/-- A path without quotes that goes on behind the way up to it. -/
structure Plain (path : List Char) : Prop where
  unquoted : ∀ c ∈ path, isQuote c = false
  undotted : ¬ Dotted path

/-- Paths that cannot be taken for the parts of an import around them, and a target that holds no keyword. -/
structure Tame (r : Relocation) : Prop where
  source : Plain (withoutSlashes r.source)
  target : Plain (withoutSlashes r.target)
  keyword : ¬ ['f', 'r', 'o', 'm'] <:+: r.target.toList

/-- What is below a directory starts with its path and a slash. -/
def Below (path directory : List Char) : Prop := directory ++ ['/'] <+: path ++ ['/']

section

variable {r : Relocation} {before : Option Char} {o o' : Import} {cs more out front back : List Char}
  {segments : List Segment}

/-! ## Texts within texts -/

/-- What starts with a character that a front does not have stands behind it. -/
theorem infix_of_not_mem {a : Char} {w xs ys : List Char} (h : (a :: w) <:+: xs ++ ys) (ha : a ∉ xs) :
    (a :: w) <:+: ys := by
  obtain ⟨s, t, h⟩ := h
  rw [List.append_assoc] at h
  rcases List.append_eq_append_iff.1 h with ⟨l, rfl, hl⟩ | ⟨l, rfl, rfl⟩
  · cases l with
    | nil => exact ⟨[], t, hl⟩
    | cons b l =>
      obtain ⟨rfl, -⟩ := List.cons.inj hl
      simp at ha
  · exact ⟨l, t, List.append_assoc ..⟩

/-- What starts in front of a sign that it does not have ends there. -/
theorem prefix_of_not_mem {w xs ys : List Char} {c : Char} (h : w <+: xs ++ c :: ys) (hc : c ∉ w) : w <+: xs := by
  obtain ⟨t, h⟩ := h
  rcases List.append_eq_append_iff.1 h with ⟨l, rfl, -⟩ | ⟨l, rfl, hl⟩
  · exact List.prefix_append _ _
  · cases l with
    | nil => simp
    | cons b l =>
      obtain ⟨rfl, -⟩ := List.cons.inj hl
      simp at hc

theorem withoutSlashes_isPrefix (s : String) : withoutSlashes s <+: s.toList := by
  rw [withoutSlashes, ← List.reverse_suffix, List.reverse_reverse]
  exact List.dropWhile_suffix _

/-! ## Imports in what has been made -/

/-- The part of an import that its image shares with it. -/
def Import.start (o : Import) : List Char := ['f', 'r', 'o', 'm'] ++ (o.gap ++ [o.opening])

theorem spelled_eq (o : Import) (depth : Nat) (path : List Char) :
    o.spelled depth path = o.start ++ (up depth ++ (path ++ [o.closing])) := by
  simp [Import.spelled, Import.start]

theorem not_mem_of_isQuote {q : Char} {w : List Char} (hq : isQuote q = true) (hw : ∀ c ∈ w, isQuote c = false) :
    q ∉ w := fun hmem => by
  rw [hw q hmem] at hq
  cases hq

theorem not_quote_of_mem_up {n : Nat} : ∀ c ∈ up n, isQuote c = false := fun c hc => by
  rcases mem_up hc with rfl | rfl <;> decide

theorem not_quote_of_mem_keyword (h : o.Valid r) : ∀ c ∈ ['f', 'r', 'o', 'm'] ++ o.gap, isQuote c = false :=
  List.forall_mem_append.2 ⟨by simp [isQuote], h.not_quote_of_mem_gap⟩

/-- The keyword does not start once more before the quote. -/
theorem not_mem_behind (h : o.Valid r) : 'f' ∉ 'r' :: 'o' :: 'm' :: o.gap := by
  have hgap : 'f' ∉ o.gap := fun hf => by
    have hblank := h.gap _ hf
    cases hblank
  simpa using hgap

/-- An import in front of an image ends before the path of the image: it would have to have two opening quotes. -/
theorem isPrefix_of_overlap (hunquoted : ∀ c ∈ withoutSlashes r.source, isQuote c = false) (h : o.Valid r)
    (h' : o'.Valid r) (hfront : front ≠ []) (htext : o'.text r ++ more = front ++ (o.start ++ out)) :
    o'.text r <+: front ++ o.start := by
  have hahead : front ++ o.start <+: o'.text r ++ more := ⟨out, by rw [htext, List.append_assoc]⟩
  rcases List.prefix_or_prefix_of_prefix (List.prefix_append _ _) hahead with hle | ⟨w, hw⟩
  · exact hle
  · rcases List.eq_nil_or_concat' w with rfl | ⟨w, c, rfl⟩
    · rw [List.append_nil] at hw
      exact hw ▸ List.prefix_refl _
    · exfalso
      have hsplit : (front ++ (['f', 'r', 'o', 'm'] ++ o.gap)) ++ o.opening :: (w ++ [c])
          = (['f', 'r', 'o', 'm'] ++ o'.gap) ++ o'.opening :: ((up o'.depth ++ withoutSlashes r.source) ++ [o'.closing]) := by
        simpa [Import.text, Import.spelled, Import.start] using hw
      -- the quote of the image stands behind, at or before the opening quote of the import
      rcases append_cons_cases hsplit with ⟨l, -, hpath⟩ | ⟨hkeyword, -, -⟩ | ⟨l, hkeyword, -⟩
      · rw [← List.cons_append, ← List.append_assoc] at hpath
        have hinner : ∀ c ∈ up o'.depth ++ withoutSlashes r.source, isQuote c = false :=
          List.forall_mem_append.2 ⟨not_quote_of_mem_up, hunquoted⟩
        refine not_mem_of_isQuote h.opening hinner ?_
        rw [(List.append_inj' hpath rfl).1]
        simp
      · obtain ⟨a, front, rfl⟩ := List.exists_cons_of_ne_nil hfront
        have hbehind : front ++ (['f', 'r', 'o', 'm'] ++ o.gap) = 'r' :: 'o' :: 'm' :: o'.gap :=
          (List.cons.inj hkeyword).2
        refine not_mem_behind h' ?_
        rw [← hbehind]
        simp
      · refine not_mem_of_isQuote h.opening (not_quote_of_mem_keyword h') ?_
        rw [hkeyword]
        simp

/-- Up to the first import that moves, a pass keeps the text. -/
theorem Pass.first (h : Pass r before cs segments) :
    segments.flatMap (Segment.result r) = cs ∨
      ∃ (front : List Char) (o : Import) (back more : List Char), o.Valid r ∧ cs = front ++ (o.text r ++ more) ∧
        segments.flatMap (Segment.result r) = front ++ (o.image r ++ back) := by
  induction h with
  | done => exact .inl rfl
  | @keep before c cs segments _ _ ih =>
    rcases ih with ih | ⟨front, o, back, more, hvalid, rfl, hresult⟩
    · exact .inl (congrArg _ ih)
    · exact .inr ⟨c :: front, o, back, more, hvalid, rfl, congrArg _ hresult⟩
  | @move before o cs more segments ho _ _ =>
    exact .inr ⟨[], o, segments.flatMap (Segment.result r), more, ho.valid, ho.text, rfl⟩

/-- **Where no import stood, none stands in what has been made.** -/
theorem Pass.kept_again (hunquoted : ∀ c ∈ withoutSlashes r.source, isQuote c = false) {c : Char}
    (hnone : ∀ o more, ¬ r.Occurs before o (c :: cs) more) (h : Pass r (some c) cs segments) :
    ∀ o more, ¬ r.Occurs before o (c :: segments.flatMap (Segment.result r)) more := by
  intro o' more' h'
  rcases h.first with hsame | ⟨front, o, back, more, hvalid, hcs, hresult⟩
  · exact hnone o' more' (hsame ▸ h')
  · have htext := h'.text
    rw [hresult, Import.image, spelled_eq, List.append_assoc, ← List.cons_append] at htext
    have hle := isPrefix_of_overlap hunquoted hvalid h'.valid (List.cons_ne_nil c front) htext.symm
    obtain ⟨rest, hrest⟩ := hle.trans (List.prefix_append _ (up o.depth ++ (withoutSlashes r.source ++ [o.closing]) ++ more))
    refine hnone o' rest ⟨h'.valid, h'.boundary, ?_⟩
    rw [hcs, hrest, Import.text, spelled_eq]
    simp

/-- No import starts inside an image. -/
theorem free_behind (hkeyword : ¬ ['f', 'r', 'o', 'm'] <:+: withoutSlashes r.target) (h : o.Valid r)
    (himage : o.image r = front ++ back) (hfront : front ≠ []) (hback : back ≠ []) :
    ¬ r.Occurs before o' (back ++ out) more := by
  intro h'
  obtain ⟨back, c, rfl⟩ := (List.eq_nil_or_concat' back).resolve_left hback
  obtain ⟨a, front, rfl⟩ := List.exists_cons_of_ne_nil hfront
  have hletters : ['f', 'r', 'o', 'm'] ++ (o.gap ++ o.opening :: (up (r.targetDepth.getD o.depth)
      ++ withoutSlashes r.target)) ++ [o.closing] = a :: (front ++ back) ++ [c] := by
    rw [Import.image] at himage
    simpa [Import.spelled] using himage
  obtain ⟨hpath, hclosing⟩ := List.append_inj' hletters rfl
  obtain rfl : o.closing = c := by simpa using hclosing
  have hletter {a : Char} (ha : a ∈ ['f', 'r', 'o', 'm']) : o.closing ≠ a := by
    simp only [List.mem_cons, List.not_mem_nil, or_false] at ha
    rcases ha with rfl | rfl | rfl | rfl <;> exact h.closing_ne (by decide) (by decide)
  have hkey := h'.keyword
  rw [List.append_assoc] at hkey
  have hwithin : ['f', 'r', 'o', 'm'] <+: back := prefix_of_not_mem hkey fun hmem => hletter hmem rfl
  have hpath : ('r' :: 'o' :: 'm' :: o.gap ++ o.opening :: up (r.targetDepth.getD o.depth)) ++ withoutSlashes r.target
      = front ++ back := by
    refine Eq.trans ?_ (List.cons.inj hpath).2
    simp
  have hinfix : ['f', 'r', 'o', 'm'] <:+: front ++ back := hwithin.isInfix.trans (List.suffix_append front back).isInfix
  refine hkeyword (infix_of_not_mem (hpath ▸ hinfix) fun hmem => ?_)
  rcases List.mem_append.1 hmem with hmem | hmem
  · exact not_mem_behind h hmem
  · rcases List.mem_cons.1 hmem with heq | hup
    · have hquote := h.opening
      rw [← heq] at hquote
      cases hquote
    · rcases mem_up hup with heq | heq <;> cases heq

/-- A stretch in which no import starts is kept. -/
theorem Pass.through (h : Pass r (lastOr before front) cs segments)
    (hfree : ∀ head back, front = head ++ back → back ≠ [] →
      ∀ o more, ¬ r.Occurs (lastOr before head) o (back ++ cs) more) :
    Pass r before (front ++ cs) (front.map .kept ++ segments) := by
  induction front generalizing before with
  | nil => exact h
  | cons c front ih =>
    have hrest : Pass r (some c) (front ++ cs) (front.map .kept ++ segments) :=
      ih h fun head back heq => hfree (c :: head) back (congrArg _ heq)
    exact hrest.keep (hfree [] (c :: front) rfl (List.cons_ne_nil _ _))

theorem lastOr_spelled (depth : Nat) (path : List Char) :
    lastOr before (o.spelled depth path) = some o.closing := by
  rw [spelled_eq, ← List.append_assoc, ← List.append_assoc, lastOr_concat]

/-- An image is kept where no import starts at it. -/
theorem Pass.kept_image (hkeyword : ¬ ['f', 'r', 'o', 'm'] <:+: withoutSlashes r.target) (hvalid : o.Valid r)
    (hnone : ∀ o' more, ¬ r.Occurs before o' (o.image r ++ cs) more) (h : Pass r (some o.closing) cs segments) :
    Pass r before (o.image r ++ cs) ((o.image r).map .kept ++ segments) := by
  have hlast : lastOr before (o.image r) = some o.closing := lastOr_spelled _ _
  refine Pass.through (hlast ▸ h) fun head back hsplit hback o' more ho' => ?_
  cases head with
  | nil =>
    obtain rfl : o.image r = back := hsplit
    exact hnone o' more ho'
  | cons c head => exact free_behind hkeyword hvalid hsplit (List.cons_ne_nil c head) hback ho'

/-- An import found at an image has the image itself for its own. -/
def Stable (r : Relocation) : Prop :=
  ∀ (before : Option Char) (o o' : Import) (out more : List Char), o.Valid r →
    r.Occurs before o' (o.image r ++ out) more → o'.image r = o.image r ∧ more = out

/-- **A pass over what a pass has made changes nothing**, if no image becomes another one. -/
theorem Pass.again (htame : r.Tame) (hstable : r.Stable) (h : Pass r before cs segments) :
    ∃ others, Pass r before (segments.flatMap (Segment.result r)) others ∧
      others.flatMap (Segment.result r) = segments.flatMap (Segment.result r) := by
  have hkeyword : ¬ ['f', 'r', 'o', 'm'] <:+: withoutSlashes r.target := fun hwithin =>
    htame.keyword (hwithin.trans (withoutSlashes_isPrefix r.target).isInfix)
  induction h with
  | done => exact ⟨[], .done, rfl⟩
  | @keep before c cs segments hnone hrest ih =>
    obtain ⟨others, hpass, hsame⟩ := ih
    exact ⟨.kept c :: others, hpass.keep (hrest.kept_again htame.source.unquoted hnone), congrArg (c :: ·) hsame⟩
  | @move before o cs more segments ho _ ih =>
    obtain ⟨others, hpass, hsame⟩ := ih
    rw [List.flatMap_cons, Segment.result]
    by_cases hagain : ∃ o' more', r.Occurs before o' (o.image r ++ segments.flatMap (Segment.result r)) more'
    · obtain ⟨o', more', ho'⟩ := hagain
      obtain ⟨himage, rfl⟩ := hstable before o o' _ more' ho.valid ho'
      have hclosing : some o'.closing = some o.closing := by
        have hlast := congrArg (lastOr none) himage
        rwa [Import.image, Import.image, lastOr_spelled, lastOr_spelled] at hlast
      refine ⟨.moved o' :: others, .move ho' (hclosing ▸ hpass), ?_⟩
      rw [List.flatMap_cons, hsame]
      exact congrArg (· ++ _) himage
    · have hnone : ∀ o' more', ¬ r.Occurs before o' (o.image r ++ segments.flatMap (Segment.result r)) more' :=
        fun o' more' ho' => hagain ⟨o', more', ho'⟩
      refine ⟨(o.image r).map .kept ++ others, hpass.kept_image hkeyword ho.valid hnone, ?_⟩
      rw [List.flatMap_append, Segment.flatMap_kept, hsame]

/-! ## When an image is an import -/

/-- An import found at an image is spelled as the image is, up to its path. -/
theorem Occurs.at_image (hsource : withoutSlashes r.source ≠ []) (htarget : withoutSlashes r.target ≠ [])
    (htame : r.Tame) (hvalid : o.Valid r) (h : r.Occurs before o' (o.image r ++ out) more) :
    o'.gap = o.gap ∧ o'.opening = o.opening ∧ o'.depth = r.targetDepth.getD o.depth ∧
      withoutSlashes r.source ++ o'.closing :: more = withoutSlashes r.target ++ o.closing :: out := by
  obtain ⟨hgap, hopening, hpath⟩ := spelled_inj h.valid hvalid h.text.symm
  have hne (o : Import) (h : o.Valid r) : o.closing ≠ '.' := h.closing_ne (by decide) (by decide)
  obtain ⟨hdepth, hbehind⟩ := up_append_inj hsource htarget htame.source.undotted htame.target.undotted
    (hne o' h.valid) (hne o hvalid) hpath
  exact ⟨hgap, hopening, hdepth, hbehind⟩

theorem image_eq (hgap : o'.gap = o.gap) (hopening : o'.opening = o.opening) (hclosing : o'.closing = o.closing)
    (hdepth : o'.depth = r.targetDepth.getD o.depth) : o'.image r = o.image r := by
  have hsame : r.targetDepth.getD o'.depth = r.targetDepth.getD o.depth := by
    cases htarget : r.targetDepth with
    | none =>
      rw [hdepth, htarget]
      rfl
    | some depth => rfl
  rw [Import.image, Import.image, hsame, Import.spelled, Import.spelled, hgap, hopening, hclosing]

/-- The quote behind a path ends it. -/
theorem stable_of_file (hfile : r.isDirectory = false) (hsource : withoutSlashes r.source ≠ [])
    (htarget : withoutSlashes r.target ≠ []) (htame : r.Tame) : r.Stable := by
  intro before o o' out more hvalid h
  obtain ⟨hgap, hopening, hdepth, hbehind⟩ := h.at_image hsource htarget htame hvalid
  have hquote (o : Import) (h : o.Valid r) : isQuote o.closing = true := by
    have hclosing := h.closing
    rwa [hfile] at hclosing
  obtain ⟨-, hclosing, hmore⟩ := split_unique htame.source.unquoted (hquote o' h.valid) htame.target.unquoted
    (hquote o hvalid) hbehind
  exact ⟨image_eq hgap hopening hclosing hdepth, hmore⟩

/-- Once moved, the imports from a directory stay: their path does not change, neither path is below the other, or
the new depth is none of the list. -/
def Settled (r : Relocation) : Prop :=
  withoutSlashes r.source = withoutSlashes r.target ∨
    (¬ Below (withoutSlashes r.source) (withoutSlashes r.target) ∧
      ¬ Below (withoutSlashes r.target) (withoutSlashes r.source)) ∨
    ∃ depth, r.targetDepth = some depth ∧ r.depths ≠ [] ∧ depth ∉ r.depths

theorem Import.Valid.closing_slash (hdirectory : r.isDirectory = true) (h : o.Valid r) : o.closing = '/' := by
  have hclosing := h.closing
  rwa [hdirectory] at hclosing

theorem stable_of_settled (hdirectory : r.isDirectory = true) (hsource : withoutSlashes r.source ≠ [])
    (htarget : withoutSlashes r.target ≠ []) (htame : r.Tame) (hsettled : r.Settled) : r.Stable := by
  intro before o o' out more hvalid h
  obtain ⟨hgap, hopening, hdepth, hbehind⟩ := h.at_image hsource htarget htame hvalid
  have hclosing := hvalid.closing_slash hdirectory
  have hclosing' := h.valid.closing_slash hdirectory
  rw [hclosing, hclosing'] at hbehind
  rcases hsettled with hsame | ⟨hsource', htarget'⟩ | ⟨depth, hto, hlisted, hbarred⟩
  · rw [hsame] at hbehind
    obtain ⟨-, rfl⟩ := List.cons.inj (List.append_cancel_left hbehind)
    exact ⟨image_eq hgap hopening (hclosing'.trans hclosing.symm) hdepth, rfl⟩
  · rw [List.append_cons _ '/' more, List.append_cons _ '/' out] at hbehind
    rcases List.prefix_or_prefix_of_prefix (List.prefix_append _ more) (hbehind ▸ List.prefix_append _ out) with
      hle | hle
    · exact absurd hle htarget'
    · exact absurd hle hsource'
  · rw [hto, Option.getD_some] at hdepth
    exact absurd (hdepth ▸ h.valid.depth.resolve_left hlisted) hbarred

/-! ## The rule, applied to what it has made -/

variable {m : Matcher} {replacement : Replacement} {bs : List Char}

theorem Segment.result_of_stays (h : segments.countP isMoved = 0) :
    segments.flatMap (result r) = segments.flatMap (source r) := by
  refine List.flatMap_congr fun segment hsegment => ?_
  cases segment with
  | kept c => rfl
  | moved o => exact absurd rfl (List.countP_eq_zero.1 h _ hsegment)

/-- What a relocation makes of a text is what a pass makes of it. -/
theorem made?_of_pass (hbuild : r.build = .ok (m, replacement)) (hdots : ¬ Dotted (withoutSlashes r.source))
    (h : Pass r none cs segments) (id description : String) :
    (⟨id, description, m, replacement⟩ : Rule).made? (String.ofList cs)
      = some (String.ofList (segments.flatMap (Segment.result r))) := by
  obtain ⟨segments', hrelocates⟩ := build_relocates hbuild hdots (String.ofList cs)
  obtain rfl := hrelocates.only segments (by rwa [String.toList_ofList])
  rw [Rule.made?, hrelocates.apply]
  split
  · next hstays =>
    rw [Segment.result_of_stays hstays, h.source]
    rfl
  · rfl

theorem made_again (hbuild : r.build = .ok (m, replacement)) (htame : r.Tame) (hstable : r.Stable)
    (id description : String) : Rule.Idempotent ⟨id, description, m, replacement⟩ := by
  intro text
  obtain ⟨segments, hrelocates⟩ := build_relocates hbuild htame.source.undotted text
  have hfirst := made?_of_pass hbuild htame.source.undotted hrelocates.pass id description
  obtain ⟨others, hpass, hsame⟩ := hrelocates.pass.again htame hstable
  have hsecond := made?_of_pass hbuild htame.source.undotted hpass id description
  rw [String.ofList_toList] at hfirst
  rw [hsame] at hsecond
  exact ⟨_, hfirst, hsecond⟩

/-- **A module moves once.** What a relocation of whole specifiers makes of a text, it leaves as it is. -/
theorem relocate_again (hbuild : r.build = .ok (m, replacement)) (hfile : r.isDirectory = false) (htame : r.Tame)
    (id description : String) : Rule.Idempotent ⟨id, description, m, replacement⟩ := by
  obtain ⟨hsource, htarget, -, -⟩ := build_spec hbuild
  exact made_again hbuild htame (stable_of_file hfile hsource htarget htame) id description

theorem moduleMove_tame : moduleMove.Tame := by
  have hsource : withoutSlashes moduleMove.source = ['a'] := by decide
  have htarget : withoutSlashes moduleMove.target = ['$', 'b'] := by decide
  refine ⟨⟨?_, ?_⟩, ⟨?_, ?_⟩, by decide⟩
  · simp [hsource, isQuote]
  · simp [hsource, Dotted]
  · simp [htarget, isQuote]
  · simp [htarget, Dotted]

theorem relocate_again_module :
    moduleMove.build = .ok (moduleMove.rule.matcher, moduleMove.rule.replacement) ∧
    moduleMove.isDirectory = false ∧ moduleMove.Tame ∧ moduleMove.rule.Idempotent ∧
    moduleMove.rule.made? "from '../a'" = some "from '../$b'" := by
  have hmade := made?_of_pass moduleMove_build moduleMove_tame.source.undotted moduleMove_pass "move" ""
  exact ⟨moduleMove_build, rfl, moduleMove_tame, relocate_again moduleMove_build rfl moduleMove_tame "move" "",
    hmade.trans (by decide)⟩

/-- A text in which no import starts is kept. -/
theorem pass_kept (hfree : ∀ back, back <:+ cs → ∀ before o more, ¬ r.Occurs before o back more) :
    Pass r before cs (cs.map .kept) := by
  have hpass : Pass r before (cs ++ []) (cs.map .kept ++ []) := by
    refine Pass.through .done fun front back hsplit _ o more => ?_
    rw [List.append_nil]
    exact hfree back ⟨front, hsplit.symm⟩ _ o more
  rwa [List.append_nil, List.append_nil] at hpass

/-- Without quotes there is no import. -/
theorem pass_unquoted (h : ∀ c ∈ cs, isQuote c = false) : Pass r before cs (cs.map .kept) := by
  refine pass_kept fun back hback _ o more ho => ?_
  refine not_mem_of_isQuote ho.valid.opening (fun c hc => h c (hback.subset hc)) ?_
  rw [ho.text, Import.text, Import.spelled]
  simp

/-- An import below a directory, without blanks. -/
def Import.bare (depth : Nat) : Import := ⟨[], '\'', depth, '/'⟩

/-- A path below the source that is also one below the target moves twice, unless it stays where it is. -/
theorem eq_of_again (hbuild : r.build = .ok (m, replacement)) (hdirectory : r.isDirectory = true) (htame : r.Tame)
    {id description : String} (hagain : Rule.Idempotent ⟨id, description, m, replacement⟩)
    (hlisted : ∀ depth, r.targetDepth = some depth → r.depths = [] ∨ depth ∈ r.depths)
    (hmeet : withoutSlashes r.source ++ '/' :: bs = withoutSlashes r.target ++ '/' :: cs)
    (hbs : ∀ c ∈ bs, isQuote c = false) (hcs : ∀ c ∈ cs, isQuote c = false) :
    withoutSlashes r.source = withoutSlashes r.target := by
  obtain ⟨depth, hdepth⟩ : ∃ depth, r.depths = [] ∨ depth ∈ r.depths := by
    cases hdepths : r.depths with
    | nil => exact ⟨0, .inl rfl⟩
    | cons depth depths => exact ⟨depth, .inr List.mem_cons_self⟩
  have hdepth' : r.depths = [] ∨ r.targetDepth.getD depth ∈ r.depths := by
    cases htarget : r.targetDepth with
    | none => exact hdepth
    | some depth => exact hlisted depth htarget
  have hvalid {d : Nat} (hd : r.depths = [] ∨ d ∈ r.depths) : (Import.bare d).Valid r :=
    ⟨List.forall_mem_nil _, rfl, hd, by rw [if_pos hdirectory, Import.bare]⟩
  have hpass : Pass r none ((Import.bare depth).text r ++ cs) (.moved _ :: cs.map .kept) :=
    .move ⟨hvalid hdepth, boundary_start, rfl⟩ (pass_unquoted hcs)
  have himage : (Import.bare depth).image r ++ cs
      = (Import.bare (r.targetDepth.getD depth)).text r ++ bs := by
    simp [Import.image, Import.text, Import.spelled, Import.bare, hmeet]
  have hpass' : Pass r none ((Import.bare depth).image r ++ cs) (.moved _ :: bs.map .kept) :=
    .move ⟨hvalid hdepth', boundary_start, himage⟩ (pass_unquoted hbs)
  have hsame : (Import.bare (r.targetDepth.getD depth)).image r = (Import.bare depth).image r :=
    image_eq rfl rfl rfl rfl
  obtain ⟨made, hfirst, hsecond⟩ := hagain (String.ofList ((Import.bare depth).text r ++ cs))
  rw [made?_of_pass hbuild htame.source.undotted hpass, List.flatMap_cons, Segment.flatMap_kept] at hfirst
  obtain rfl := Option.some.inj hfirst
  rw [Segment.result, made?_of_pass hbuild htame.source.undotted hpass', List.flatMap_cons, Segment.flatMap_kept,
    Segment.result, hsame] at hsecond
  obtain rfl : bs = cs := List.append_cancel_left (String.ofList_injective (Option.some.inj hsecond))
  exact List.append_cancel_right hmeet

/-- **A directory moves once exactly if it is settled.** -/
theorem relocate_directory_again_iff (hbuild : r.build = .ok (m, replacement)) (hdirectory : r.isDirectory = true)
    (htame : r.Tame) (id description : String) :
    Rule.Idempotent ⟨id, description, m, replacement⟩ ↔ r.Settled := by
  obtain ⟨hsource, htarget, -, -⟩ := build_spec hbuild
  constructor
  · intro hagain
    by_contra hopen
    simp only [Settled, not_or, not_exists, not_and, not_not] at hopen
    obtain ⟨hne, hbelow, hbarred⟩ := hopen
    have hlisted (depth : Nat) (hto : r.targetDepth = some depth) : r.depths = [] ∨ depth ∈ r.depths :=
      or_iff_not_imp_left.2 (hbarred depth hto)
    have hunquoted {path : List Char} (hpath : Plain path) : ∀ c ∈ path ++ ['/'], isQuote c = false := by
      intro c hc
      rcases List.mem_append.1 hc with hc | hc
      · exact hpath.unquoted c hc
      · rw [List.mem_singleton.1 hc]
        rfl
    by_cases hle : Below (withoutSlashes r.source) (withoutSlashes r.target)
    · obtain ⟨rest, hrest⟩ := hle
      have hmeet : withoutSlashes r.source ++ '/' :: [] = withoutSlashes r.target ++ '/' :: rest := by
        rw [← hrest, List.append_assoc]
        rfl
      exact hne (eq_of_again hbuild hdirectory htame hagain hlisted hmeet (List.forall_mem_nil _)
        fun c hc => hunquoted htame.source c (hrest ▸ List.mem_append_right _ hc))
    · obtain ⟨rest, hrest⟩ := hbelow hle
      have hmeet : withoutSlashes r.source ++ '/' :: rest = withoutSlashes r.target ++ '/' :: [] := by
        rw [← hrest, List.append_assoc]
        rfl
      exact hne (eq_of_again hbuild hdirectory htame hagain hlisted hmeet
        (fun c hc => hunquoted htame.target c (hrest ▸ List.mem_append_right _ hc)) (List.forall_mem_nil _))
  · exact fun hsettled => made_again hbuild htame (stable_of_settled hdirectory hsource htarget htame hsettled) id
      description

/-- A directory that moves beside itself, or into itself. -/
def directoryMove (target : String) : Relocation := { source := "a", target := target, isDirectory := true }

theorem directoryMove_build (target : String) (h : withoutSlashes target ≠ []) :
    (directoryMove target).build = .ok ((directoryMove target).rule.matcher, (directoryMove target).rule.replacement) :=
  have hsource : withoutSlashes "a" = ['a'] := by decide
  build_eq (hsource ▸ List.cons_ne_nil _ _) h (exists_parse hsource rfl)

theorem directoryMove_tame {target : String} (htarget : Plain (withoutSlashes target))
    (hkeyword : ¬ ['f', 'r', 'o', 'm'] <:+: target.toList) : (directoryMove target).Tame where
  source := by
    have hsource : withoutSlashes "a" = ['a'] := by decide
    exact ⟨by simp [directoryMove, hsource, isQuote], by simp [directoryMove, hsource, Dotted]⟩
  target := htarget
  keyword := hkeyword

theorem directoryMove_beside_tame : (directoryMove "b").Tame := by
  have htarget : withoutSlashes "b" = ['b'] := by decide
  exact directoryMove_tame ⟨by simp [htarget, isQuote], by simp [htarget, Dotted]⟩ (by decide)

theorem directoryMove_into_tame : (directoryMove "a/b").Tame := by
  have htarget : withoutSlashes "a/b" = ['a', '/', 'b'] := by decide
  exact directoryMove_tame ⟨by simp [htarget, isQuote], by simp [htarget, Dotted]⟩ (by decide)

theorem relocate_directory_again_beside :
    (directoryMove "b").build = .ok ((directoryMove "b").rule.matcher, (directoryMove "b").rule.replacement) ∧
    (directoryMove "b").isDirectory = true ∧ (directoryMove "b").Tame ∧ (directoryMove "b").rule.Idempotent := by
  have hbuild := directoryMove_build "b" (by decide)
  have hsettled : (directoryMove "b").Settled := by
    refine .inr (.inl ?_)
    unfold Below
    decide
  exact ⟨hbuild, rfl, directoryMove_beside_tame,
    (relocate_directory_again_iff hbuild rfl directoryMove_beside_tame "move" "").2 hsettled⟩

theorem directoryMove_pass (rest : List Char) (h : 'f' ∉ rest) :
    Pass (directoryMove "a/b") none ("from '../a/".toList ++ rest)
      (.moved ⟨[' '], '\'', 1, '/'⟩ :: rest.map .kept) := by
  refine .move ⟨⟨by simp [isBlank], rfl, .inl rfl, rfl⟩, boundary_start, rfl⟩ ?_
  refine pass_kept fun back hback _ o more ho => ?_
  exact h (hback.subset (ho.keyword.subset List.mem_cons_self))

/-- What has moved into the directory moves once more. -/
theorem directoryMove_again :
    (directoryMove "a/b").build = .ok ((directoryMove "a/b").rule.matcher, (directoryMove "a/b").rule.replacement) ∧
    (directoryMove "a/b").isDirectory = true ∧ (directoryMove "a/b").Tame ∧
    (directoryMove "a/b").rule.made? "from '../a/x'" = some "from '../a/b/x'" ∧
    (directoryMove "a/b").rule.made? "from '../a/b/x'" = some "from '../a/b/b/x'" := by
  have hbuild := directoryMove_build "a/b" (by decide)
  have hdots := directoryMove_into_tame.source.undotted
  have hfirst := made?_of_pass hbuild hdots (directoryMove_pass ['x', '\''] (by decide)) "move" ""
  have hsecond := made?_of_pass hbuild hdots (directoryMove_pass ['b', '/', 'x', '\''] (by decide)) "move" ""
  exact ⟨hbuild, rfl, directoryMove_into_tame, hfirst.trans (by decide), hsecond.trans (by decide)⟩

end

end Relocation

end Codemod
