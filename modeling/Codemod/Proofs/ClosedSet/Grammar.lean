/-
What a closed set looks for in a text, as texts: a list that mentions a removed value, or a fallback to
one. `Occurs s b o cs more` says that `o` stands at the front of `cs`, with `b` before it and `more`
behind it. Where a setting is plain, the parentheses, brackets and quotes of an occurrence are its own, so
that at most one stands at a place (`Occurs.unique`), and no list starts inside another
(`list_not_inside`).
-/
import Mathlib.Data.List.Basic
import Codemod.Pattern.Course
import Codemod.Rule.ClosedSet

namespace Codemod.ClosedSet

open Text Unicode Pattern

def isQuote (c : Char) : Bool := c == '\'' || c == '"'

def isParen (c : Char) : Bool := c == '(' || c == ')'

def isBracket (c : Char) : Bool := c == '[' || c == ']'

/-- A piece of text that a closed set has something to say about. -/
inductive Occurrence where
  /-- The call, with what stands before its brackets, in them, and behind them in the parentheses. -/
  | list (gap items rest : List Char)
  /-- A fallback to a value, with what stands before the value, and its two quotes. -/
  | fallback (gap : List Char) (opening : Char) (value : List Char) (closing : Char)

/-- The removed values as they stand in a text. -/
def removed (s : ClosedSet) : List (List Char) := s.remove.map String.toList

/-- A removed value between quotes, which need not be the same. -/
def Mention (s : ClosedSet) (cs : List Char) : Prop :=
  ∃ opening value closing, isQuote opening = true ∧ value ∈ s.removed ∧ isQuote closing = true ∧
    cs = opening :: (value ++ [closing])

namespace Occurrence

def text (s : ClosedSet) : Occurrence → List Char
  | list gap items rest => s.call.toList ++ '(' :: (gap ++ '[' :: (items ++ ']' :: (rest ++ [')'])))
  | fallback gap opening value closing => '|' :: '|' :: (gap ++ opening :: (value ++ [closing]))

/-- What the parts of an occurrence have to be. There are fallbacks only where there is a default. -/
def Valid (s : ClosedSet) : Occurrence → Prop
  | list gap items rest =>
    (∀ c ∈ gap, isBlank c = true) ∧
    (∃ front value back, items = front ++ (value ++ back) ∧ Mention s value ∧
      (∀ c ∈ front, isBracket c = false) ∧ ∀ c ∈ back, isBracket c = false) ∧
    ∀ c ∈ rest, isParen c = false
  | fallback gap opening value closing =>
    s.default.isSome = true ∧ (∀ c ∈ gap, isBlank c = true) ∧ isQuote opening = true ∧ value ∈ s.removed ∧
      isQuote closing = true

/-- A call that starts with a letter starts a word. -/
def Anchored (s : ClosedSet) (before : Option Char) : Occurrence → Prop
  | list .. => ∀ c cs, s.call.toList = c :: cs → (alphanumeric.contains c || c == '_') = true →
      (Look.wordBoundary true).holds before (some c) = true
  | fallback .. => True

end Occurrence

structure Occurs (s : ClosedSet) (before : Option Char) (o : Occurrence) (cs more : List Char) : Prop where
  valid : o.Valid s
  anchored : o.Anchored s before
  text : cs = o.text s ++ more

/-- A text that is a call: its first parenthesis opens, and it ends with one that closes. It has no quotes,
no brackets and no bars. -/
structure IsCall (cs : List Char) : Prop where
  plain : ∀ c ∈ cs, isQuote c = false ∧ isBracket c = false ∧ c ≠ '|'
  form : ∃ name args, cs = name ++ '(' :: (args ++ [')']) ∧ ∀ c ∈ name, isParen c = false

/-- Settings without signs that could be taken for those around them. What a list becomes when nothing is left
of it is another call. -/
structure Plain (s : ClosedSet) : Prop where
  call : ∀ c ∈ s.call.toList, isQuote c = false ∧ isParen c = false
  removed : ∀ v ∈ s.removed, ∀ c ∈ v, isQuote c = false ∧ isParen c = false ∧ isBracket c = false
  default : ∀ d, s.default = some d → d ∉ s.remove ∧
    ∀ c ∈ d.toList, isQuote c = false ∧ isParen c = false ∧ isBracket c = false ∧ c ≠ '|'
  emptied : ∀ t, s.emptyReplacement = some t → IsCall t.toList
  context : s.fallbackContext = none

/-! ## Texts split at a sign -/

/-- The first character of a class is at one place. -/
theorem split_unique {p : Char → Bool} {as bs cs ds : List Char} {c d : Char}
    (has : ∀ a ∈ as, p a = false) (hc : p c = true) (hbs : ∀ b ∈ bs, p b = false) (hd : p d = true)
    (h : as ++ c :: cs = bs ++ d :: ds) : as = bs ∧ c = d ∧ cs = ds := by
  induction as generalizing bs with
  | nil =>
    cases bs with
    | nil =>
      obtain ⟨rfl, rfl⟩ := List.cons.inj h
      exact ⟨rfl, rfl, rfl⟩
    | cons b bs =>
      obtain ⟨rfl, -⟩ := List.cons.inj h
      rw [hbs c (by simp)] at hc
      cases hc
  | cons a as ih =>
    cases bs with
    | nil =>
      obtain ⟨rfl, -⟩ := List.cons.inj h
      rw [has a (by simp)] at hd
      cases hd
    | cons b bs =>
      obtain ⟨rfl, htail⟩ := List.cons.inj h
      obtain ⟨rfl, rfl, rfl⟩ := ih (fun a ha => has a (by simp [ha])) (fun b hb => hbs b (by simp [hb])) htail
      exact ⟨rfl, rfl, rfl⟩

/-- Two signs in one text: the first stands before the other, at it, or behind it. -/
theorem append_cons_cases {as bs cs ds : List Char} {c d : Char} (h : as ++ c :: cs = bs ++ d :: ds) :
    (∃ l, as = bs ++ d :: l ∧ ds = l ++ c :: cs) ∨ (as = bs ∧ c = d ∧ cs = ds) ∨
      ∃ l, bs = as ++ c :: l ∧ cs = l ++ d :: ds := by
  rcases List.append_eq_append_iff.1 h with ⟨l, hbs, hcs⟩ | ⟨l, has, hds⟩
  · cases l with
    | nil =>
      obtain ⟨rfl, rfl⟩ := List.cons.inj hcs
      exact .inr (.inl ⟨by simpa using hbs.symm, rfl, rfl⟩)
    | cons b l =>
      obtain ⟨rfl, rfl⟩ := List.cons.inj hcs
      exact .inr (.inr ⟨l, hbs, rfl⟩)
  · cases l with
    | nil =>
      obtain ⟨rfl, rfl⟩ := List.cons.inj hds
      exact .inr (.inl ⟨by simpa using has, rfl, rfl⟩)
    | cons b l =>
      obtain ⟨rfl, rfl⟩ := List.cons.inj hds
      exact .inl ⟨l, has, rfl⟩

/-- What begins a text with a sign in it ends before the sign or behind it. -/
theorem append_cases {as bs cs ds : List Char} {d : Char} (h : as ++ bs = cs ++ d :: ds) :
    (∃ l, cs = as ++ l ∧ bs = l ++ d :: ds) ∨ ∃ l, as = cs ++ d :: l ∧ ds = l ++ bs := by
  rcases List.append_eq_append_iff.1 h with h | ⟨l, has, hds⟩
  · exact .inl h
  · cases l with
    | nil => exact .inl ⟨[], by simpa using has.symm, hds.symm⟩
    | cons b l =>
      obtain ⟨rfl, rfl⟩ := List.cons.inj hds
      exact .inr ⟨l, has, rfl⟩

section

variable {s : ClosedSet} {cs more more' : List Char} {before : Option Char} {o o' : Occurrence}

/-! ## The signs of an occurrence -/

theorem isQuote_eq_true {c : Char} : isQuote c = true ↔ c = '\'' ∨ c = '"' := by simp [isQuote]

/-- Quotes are none of the other signs. -/
theorem plain_of_isQuote {c : Char} (h : isQuote c = true) :
    isBlank c = false ∧ isParen c = false ∧ isBracket c = false := by
  rcases isQuote_eq_true.1 h with rfl | rfl <;> decide

/-- Blanks are no signs. -/
theorem plain_of_isBlank {c : Char} (h : isBlank c = true) :
    isQuote c = false ∧ isParen c = false ∧ isBracket c = false ∧ c ≠ '|' := by
  have hne (d : Char) (hd : isBlank d = false) : c ≠ d := by
    rintro rfl
    rw [h] at hd
    cases hd
  simp [isQuote, isParen, isBracket, hne _ (show isBlank '\'' = false by decide),
    hne _ (show isBlank '"' = false by decide), hne _ (show isBlank '(' = false by decide),
    hne _ (show isBlank ')' = false by decide), hne _ (show isBlank '[' = false by decide),
    hne _ (show isBlank ']' = false by decide), hne _ (show isBlank '|' = false by decide)]

theorem Mention.plain (hp : s.Plain) (h : Mention s cs) :
    ∀ c ∈ cs, isParen c = false ∧ isBracket c = false := by
  obtain ⟨q, v, q', hq, hv, hq', rfl⟩ := h
  intro c hc
  simp only [List.mem_cons, List.mem_append, List.not_mem_nil, or_false] at hc
  rcases hc with rfl | hc | rfl
  · exact (plain_of_isQuote hq).2
  · exact (hp.removed v hv c hc).2
  · exact (plain_of_isQuote hq').2

/-- The items of a list hold no brackets. -/
theorem Occurrence.Valid.items_plain (hp : s.Plain) {gap items rest : List Char}
    (h : (Occurrence.list gap items rest).Valid s) : ∀ c ∈ items, isBracket c = false := by
  obtain ⟨-, ⟨front, value, back, rfl, hmention, hfront, hback⟩, -⟩ := h
  intro c hc
  simp only [List.mem_append] at hc
  rcases hc with hc | hc | hc
  · exact hfront c hc
  · exact (hmention.plain hp c hc).2
  · exact hback c hc

/-- A list mentions a removed value in its brackets. -/
theorem valid_list_iff (hp : s.Plain) {gap items rest : List Char} :
    (Occurrence.list gap items rest).Valid s ↔ (∀ c ∈ gap, isBlank c = true) ∧
      (∃ m, Mention s m ∧ m <:+: items) ∧ (∀ c ∈ items, isBracket c = false) ∧
      ∀ c ∈ rest, isParen c = false := by
  constructor
  · intro h
    have hitems := h.items_plain hp
    obtain ⟨hgap, ⟨front, value, back, rfl, hmention, -, -⟩, hrest⟩ := h
    exact ⟨hgap, ⟨value, hmention, front, back, List.append_assoc ..⟩, hitems, hrest⟩
  · rintro ⟨hgap, ⟨m, hm, front, back, rfl⟩, hitems, hrest⟩
    refine ⟨hgap, ⟨front, m, back, List.append_assoc .., hm, fun c hc => ?_, fun c hc => ?_⟩, hrest⟩
    · exact hitems c (by simp [hc])
    · exact hitems c (by simp [hc])

/-- A fallback mentions a removed value. -/
theorem Occurrence.Valid.fallback_mention {gap value : List Char} {opening closing : Char}
    (h : (Occurrence.fallback gap opening value closing).Valid s) :
    ∃ m, Mention s m ∧ m <:+: (Occurrence.fallback gap opening value closing).text s := by
  obtain ⟨-, -, hopening, hvalue, hclosing⟩ := h
  exact ⟨_, ⟨opening, value, closing, hopening, hvalue, hclosing, rfl⟩,
    (List.suffix_append ('|' :: '|' :: gap) _).isInfix⟩

/-- The bars of a fallback, with the blanks behind them. -/
theorem bars_plain {gap : List Char} (hgap : ∀ c ∈ gap, isBlank c = true) :
    ∀ c ∈ '|' :: '|' :: gap, isQuote c = false ∧ isParen c = false := by
  intro c hc
  simp only [List.mem_cons] at hc
  rcases hc with rfl | rfl | hc
  · decide
  · decide
  · exact ⟨(plain_of_isBlank (hgap c hc)).1, (plain_of_isBlank (hgap c hc)).2.1⟩

/-- A parenthesis behind no quotes is not a quote behind no parentheses. -/
theorem paren_ne_quote {name rest front behind : List Char} {q : Char} (hname : ∀ c ∈ name, isQuote c = false)
    (hfront : ∀ c ∈ front, isParen c = false) (hq : isQuote q = true) :
    name ++ '(' :: rest ≠ front ++ q :: behind := by
  intro h
  rcases append_cons_cases h with ⟨l, rfl, -⟩ | ⟨-, rfl, -⟩ | ⟨l, rfl, -⟩
  · rw [hname q (by simp)] at hq
    cases hq
  · cases hq
  · have hparen := hfront '(' (by simp)
    cases hparen

theorem fallback_text_eq (gap value : List Char) (opening closing : Char) :
    (Occurrence.fallback gap opening value closing).text s
      = ('|' :: '|' :: gap ++ opening :: value) ++ [closing] := by
  simp [Occurrence.text]

/-- A fallback has no parentheses and no brackets, whatever plain value it is to. -/
theorem fallback_plain {gap value : List Char} {opening closing : Char} (hgap : ∀ c ∈ gap, isBlank c = true)
    (hopening : isQuote opening = true) (hclosing : isQuote closing = true)
    (hvalue : ∀ c ∈ value, isParen c = false ∧ isBracket c = false) :
    ∀ c ∈ (Occurrence.fallback gap opening value closing).text s,
      isParen c = false ∧ isBracket c = false := by
  intro c hc
  simp only [Occurrence.text, List.mem_cons, List.mem_append, List.not_mem_nil, or_false] at hc
  rcases hc with rfl | rfl | hc | rfl | hc | rfl
  · decide
  · decide
  · exact ⟨(plain_of_isBlank (hgap c hc)).2.1, (plain_of_isBlank (hgap c hc)).2.2.1⟩
  · exact (plain_of_isQuote hopening).2
  · exact hvalue c hc
  · exact (plain_of_isQuote hclosing).2

/-! ## Calls -/

section

variable {gap behind name cs t u : List Char}

theorem IsCall.exists_concat (ht : IsCall t) : ∃ front, t = front ++ [')'] := by
  obtain ⟨name, args, rfl, -⟩ := ht.form
  exact ⟨name ++ '(' :: args, by simp⟩

/-- Between blanks and an opening bracket, no parenthesis closes. -/
theorem closing_ne_opening (hgap : ∀ c ∈ gap, isBlank c = true) (hu : ∀ c ∈ u, isBracket c = false) :
    u ++ ')' :: cs ≠ gap ++ '[' :: behind := by
  intro h
  rcases append_cons_cases h with ⟨l, rfl, -⟩ | ⟨-, hne, -⟩ | ⟨l, rfl, -⟩
  · have hbracket := hu '[' (by simp)
    cases hbracket
  · cases hne
  · have hblank := hgap ')' (by simp)
    cases hblank

/-- A call is no part of the blanks before a bracket. -/
theorem IsCall.not_gap (ht : IsCall t) (hgap : ∀ c ∈ gap, isBlank c = true) :
    ¬ t <+: gap ++ '[' :: behind := by
  obtain ⟨name, args, rfl, -⟩ := ht.form
  intro h
  obtain ⟨rest, h⟩ := h
  have hplain : ∀ c ∈ name ++ '(' :: args, isBracket c = false := fun c hc => by
    refine (ht.plain c ?_).2.1
    simp only [List.mem_append, List.mem_cons] at hc ⊢
    tauto
  exact closing_ne_opening hgap hplain (by simpa using h)

/-- A call is no part of the start of a list. -/
theorem IsCall.not_start (ht : IsCall t) (hname : ∀ c ∈ name, isParen c = false)
    (hgap : ∀ c ∈ gap, isBlank c = true) : ¬ t <+: name ++ '(' :: (gap ++ '[' :: behind) := by
  obtain ⟨name', args, rfl, hname'⟩ := ht.form
  intro h
  obtain ⟨rest, h⟩ := h
  rw [List.append_assoc] at h
  obtain ⟨-, -, h⟩ := split_unique hname' (by decide) hname (by decide) h
  refine closing_ne_opening hgap (fun c hc => (ht.plain c ?_).2.1) (by simpa using h)
  simp [hc]

/-- A call does not end where the first parenthesis closes. -/
theorem IsCall.not_rest (ht : IsCall t) (hcs : ∀ c ∈ cs, isParen c = false) :
    ¬ t <+: cs ++ ')' :: behind := by
  obtain ⟨name, args, rfl, hname⟩ := ht.form
  intro h
  obtain ⟨rest, h⟩ := h
  rw [List.append_assoc] at h
  obtain ⟨-, hne, -⟩ := split_unique hname (by decide) hcs (by decide) h
  cases hne

end

/-! ## One occurrence at a place -/

theorem list_text_inj {gap items rest gap' items' rest' : List Char}
    (hgap : ∀ c ∈ gap, isBlank c = true) (hgap' : ∀ c ∈ gap', isBlank c = true)
    (hitems : ∀ c ∈ items, isBracket c = false) (hitems' : ∀ c ∈ items', isBracket c = false)
    (hrest : ∀ c ∈ rest, isParen c = false) (hrest' : ∀ c ∈ rest', isParen c = false)
    (h : (Occurrence.list gap items rest).text s ++ more
      = (Occurrence.list gap' items' rest').text s ++ more') :
    gap = gap' ∧ items = items' ∧ rest = rest' ∧ more = more' := by
  simp only [Occurrence.text, List.append_assoc, List.cons_append, List.nil_append,
    List.append_cancel_left_eq, List.cons.injEq, true_and] at h
  obtain ⟨rfl, -, h⟩ := split_unique (fun c hc => (plain_of_isBlank (hgap c hc)).2.2.1) (by decide)
    (fun c hc => (plain_of_isBlank (hgap' c hc)).2.2.1) (by decide) h
  obtain ⟨rfl, -, h⟩ := split_unique hitems (by decide) hitems' (by decide) h
  obtain ⟨rfl, -, h⟩ := split_unique hrest (by decide) hrest' (by decide) h
  exact ⟨rfl, rfl, rfl, h⟩

theorem fallback_text_inj {gap value gap' value' : List Char} {q q₁ q' q₁' : Char}
    (hgap : ∀ c ∈ gap, isBlank c = true) (hgap' : ∀ c ∈ gap', isBlank c = true)
    (hq : isQuote q = true) (hq₁ : isQuote q₁ = true) (hq' : isQuote q' = true) (hq₁' : isQuote q₁' = true)
    (hvalue : ∀ c ∈ value, isQuote c = false) (hvalue' : ∀ c ∈ value', isQuote c = false)
    (h : (Occurrence.fallback gap q value q₁).text s ++ more
      = (Occurrence.fallback gap' q' value' q₁').text s ++ more') :
    gap = gap' ∧ q = q' ∧ value = value' ∧ q₁ = q₁' ∧ more = more' := by
  simp only [Occurrence.text, List.append_assoc, List.cons_append, List.nil_append, List.cons.injEq,
    true_and] at h
  obtain ⟨rfl, rfl, hbehind⟩ := split_unique (fun c hc => (plain_of_isBlank (hgap c hc)).1) hq
    (fun c hc => (plain_of_isBlank (hgap' c hc)).1) hq' h
  obtain ⟨rfl, rfl, hmore⟩ := split_unique hvalue hq₁ hvalue' hq₁' hbehind
  exact ⟨rfl, rfl, rfl, rfl, hmore⟩

/-- Behind a call stands a parenthesis, and behind the bars of a fallback a quote. -/
theorem list_ne_fallback (hp : s.Plain) {gap items rest gap' value : List Char} {q q' : Char}
    (hgap : ∀ c ∈ gap', isBlank c = true) (hq : isQuote q = true) :
    (Occurrence.list gap items rest).text s ++ more
      ≠ (Occurrence.fallback gap' q value q').text s ++ more' := by
  intro h
  simp only [Occurrence.text, List.append_assoc, List.cons_append, List.nil_append] at h
  exact paren_ne_quote (fun c hc => (hp.call c hc).1) (fun c hc => (bars_plain hgap c hc).2) hq h

theorem Occurs.unique (hp : s.Plain) (h : s.Occurs before o cs more) (h' : s.Occurs before o' cs more') :
    o = o' ∧ more = more' := by
  have htext := h.text.symm.trans h'.text
  cases o with
  | list gap items rest =>
    cases o' with
    | list gap' items' rest' =>
      obtain ⟨rfl, rfl, rfl, rfl⟩ := list_text_inj h.valid.1 h'.valid.1 (h.valid.items_plain hp)
        (h'.valid.items_plain hp) h.valid.2.2 h'.valid.2.2 htext
      exact ⟨rfl, rfl⟩
    | fallback gap' q value q' => exact absurd htext (list_ne_fallback hp h'.valid.2.1 h'.valid.2.2.1)
  | fallback gap q value q' =>
    cases o' with
    | list gap' items' rest' => exact absurd htext.symm (list_ne_fallback hp h.valid.2.1 h.valid.2.2.1)
    | fallback gap' q₁ value' q₁' =>
      obtain ⟨-, hgap, hq, hv, hq'⟩ := h.valid
      obtain ⟨-, hgap', hq₁, hv', hq₁'⟩ := h'.valid
      obtain ⟨rfl, rfl, rfl, rfl, rfl⟩ := fallback_text_inj (s := s) hgap hgap' hq hq' hq₁ hq₁'
        (fun c hc => (hp.removed _ hv c hc).1) (fun c hc => (hp.removed _ hv' c hc).1) htext
      exact ⟨rfl, rfl⟩

/-! ## No list inside another -/

/-- A list up to the parenthesis that closes it. -/
def listBody (s : ClosedSet) (gap items rest : List Char) : List Char :=
  s.call.toList ++ '(' :: (gap ++ '[' :: (items ++ ']' :: rest))

theorem list_text_eq (gap items rest : List Char) :
    (Occurrence.list gap items rest).text s = s.listBody gap items rest ++ [')'] := by
  simp [Occurrence.text, listBody]

/-- **No list starts inside another.** -/
theorem list_not_inside (hp : s.Plain) {gap items rest gap' items' rest' front back : List Char}
    (hgap : ∀ c ∈ gap, isBlank c = true) (hgap' : ∀ c ∈ gap', isBlank c = true)
    (hitems : ∀ c ∈ items, isBracket c = false) (hrest : ∀ c ∈ rest, isParen c = false)
    (hbody : s.listBody gap items rest = front ++ back) (hfront : front ≠ [])
    (h : (Occurrence.list gap' items' rest').text s <+: back ++ ')' :: more) : False := by
  have hcall (c : Char) (hc : isParen c = true) : c ∉ s.call.toList := fun hmem => by
    rw [(hp.call c hmem).2] at hc
    cases hc
  have hblank {gap : List Char} (hgap : ∀ c ∈ gap, isBlank c = true) {c : Char} (hc : isBlank c = false) :
      c ∉ gap := fun hmem => by
    rw [hgap c hmem] at hc
    cases hc
  obtain ⟨behind, hbehind⟩ := h
  simp only [Occurrence.text, List.append_assoc, List.cons_append, List.nil_append] at hbehind
  -- the call, the parenthesis and the bracket of the other list all stand in this one
  obtain ⟨l, hback⟩ : ∃ l, back = s.call.toList ++ '(' :: (gap' ++ '[' :: l) := by
    rcases append_cons_cases hbehind with ⟨l, hl, -⟩ | ⟨-, hne, -⟩ | ⟨l, rfl, hl⟩
    · exact (hcall ')' (by decide) (by rw [hl]; simp)).elim
    · cases hne
    · rcases append_cons_cases hl with ⟨m, hm, -⟩ | ⟨-, hne, -⟩ | ⟨m, rfl, -⟩
      · exact (hblank hgap' (c := ')') (by decide) (by rw [hm]; simp)).elim
      · cases hne
      · exact ⟨m, rfl⟩
  rw [hback, ← List.append_assoc, listBody] at hbody
  -- so its parenthesis is that of this one
  rcases append_cons_cases hbody with ⟨m, hm, -⟩ | ⟨heq, -, -⟩ | ⟨m, hm, hgapm⟩
  · exact hcall '(' (by decide) (by rw [hm]; simp)
  · exact hfront (by simpa using heq)
  · rcases append_cons_cases hgapm with ⟨n, hn, -⟩ | ⟨-, hne, -⟩ | ⟨n, rfl, hn⟩
    · exact hblank hgap (c := '(') (by decide) (by rw [hn]; simp)
    · cases hne
    · rcases append_cons_cases hn with ⟨k, hk, hgapk⟩ | ⟨-, hne, -⟩ | ⟨j, -, hj⟩
      · -- the first bracket behind it would be one that closes
        obtain ⟨-, hne, -⟩ := split_unique (fun c hc => (plain_of_isBlank (hgap' c hc)).2.2.1) (by decide)
          (fun c hc => hitems c (by rw [hk]; simp [hc])) (by decide) hgapk
        cases hne
      · cases hne
      · have hparen := hrest '(' (by rw [hj]; simp)
        cases hparen

end

end Codemod.ClosedSet
