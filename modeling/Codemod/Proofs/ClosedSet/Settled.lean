/-
A second pass changes nothing where the first has come to all there is. A list is looked at up to the
parenthesis that closes its call, so a fallback behind the brackets waits for the next pass; a list whose
brackets hold one that loses all its values waits too. Where a text is calm, nothing waits: what was kept
is kept again (`Calm.keep`), and an image holds no occurrence but itself (`emptied_free`, `default_free`,
`shortened_free`).
-/
import Codemod.Proofs.ClosedSet.Mends
import Codemod.Proofs.Unicode.Letters

namespace Codemod.ClosedSet

open Text Unicode Pattern

/-- Nothing in a text waits for a second pass: no fallback stands behind the brackets of a list, and no
emptied list in those of another call. -/
structure Calm (s : ClosedSet) (cs : List Char) : Prop where
  behind : ∀ gap items rest, (Occurrence.list gap items rest).Valid s →
    (Occurrence.list gap items rest).text s <:+: cs →
    ∀ gap' q v q', (Occurrence.fallback gap' q v q').Valid s →
      ¬ (Occurrence.fallback gap' q v q').text s <:+: rest
  nested : ¬ s.Nested cs

/-- No occurrence stands at the front of a text, whatever stands before it. -/
def Free (s : ClosedSet) (cs : List Char) : Prop := ∀ before o more, ¬ s.Occurs before o cs more

/-- Two places behind which words start alike. -/
def Alike (before before' : Option Char) : Prop := before.any (isWord true) = before'.any (isWord true)

section

variable {s : ClosedSet} {before before' : Option Char} {o : Occurrence} {cs more xs ys made back : List Char}

theorem Calm.within (h : s.Calm cs) {ds : List Char} (hds : ds <:+: cs) : s.Calm ds where
  behind gap items rest hvalid hin := h.behind gap items rest hvalid (hin.trans hds)
  nested := fun ⟨gap, items, gap', items', rest', hgap, hitems, hvalid, hkept, hin⟩ =>
    h.nested ⟨gap, items, gap', items', rest', hgap, hitems, hvalid, hkept, hin.trans hds⟩

theorem Alike.refl (before : Option Char) : Alike before before := Eq.refl _

/-- A quote is in no word. -/
theorem isWord_quote {c : Char} (hc : isQuote c = true) : isWord true c = false := by
  rw [Bool.eq_false_iff, isWord, if_pos rfl]
  intro hword
  have hbeyond := words_beyond hword
  rcases isQuote_eq_true.1 hc with rfl | rfl
  · exact absurd hbeyond (by decide)
  · exact absurd hbeyond (by decide)

/-- Words start alike behind all quotes, so that those of a fallback may differ. -/
theorem alike_quotes {q q' : Char} (hq : isQuote q = true) (hq' : isQuote q' = true) :
    Alike (some q) (some q') := by
  unfold Alike
  rw [Option.any_some, Option.any_some, isWord_quote hq, isWord_quote hq']

theorem Occurs.alike (h : s.Occurs before o cs more) (halike : Alike before before') :
    s.Occurs before' o cs more := by
  refine ⟨h.valid, ?_, h.text⟩
  cases o with
  | list gap items rest =>
    intro c ds hcall hword
    have hholds := h.anchored c ds hcall hword
    simp only [Look.holds] at hholds ⊢
    rwa [← show before.any (isWord true) = before'.any (isWord true) from halike]
  | fallback => trivial

/-- A text in which no occurrence starts is kept. -/
theorem Pass.through (h : Pass s (lastOr before xs) ys (some made))
    (hfree : ∀ back, back <:+ xs → back ≠ [] → s.Free (back ++ ys)) :
    Pass s before (xs ++ ys) (some (xs ++ made)) := by
  induction xs generalizing before with
  | nil => exact h
  | cons c xs ih =>
    have hrest : Pass s (some c) (xs ++ ys) (some (xs ++ made)) :=
      ih h fun back hback => hfree back (hback.trans (List.suffix_cons c xs))
    exact hrest.keep (hfree (c :: xs) (List.suffix_refl _) (List.cons_ne_nil _ _) before)

/-! ## Images -/

/-- A fallback ends before every parenthesis and every bracket. -/
theorem fallback_before (hp : s.Plain) {gap v : List Char} {q q' c : Char}
    (hvalid : (Occurrence.fallback gap q v q').Valid s) (hc : isParen c = true ∨ isBracket c = true)
    (h : (Occurrence.fallback gap q v q').text s <+: (xs ++ c :: ys) ++ more) :
    (Occurrence.fallback gap q v q').text s <+: xs := by
  obtain ⟨rest, h⟩ := h
  rw [List.append_assoc, List.cons_append] at h
  rcases append_cases h with ⟨l, rfl, -⟩ | ⟨l, htext, -⟩
  · exact List.prefix_append _ _
  · have hplain := removed_plain hp hvalid c (by simp [htext])
    rw [hplain.1, hplain.2] at hc
    simp at hc

/-- Without bars in a text, no fallback starts in it. -/
theorem Occurs.bar {gap v : List Char} {q q' : Char}
    (h : s.Occurs before (.fallback gap q v q') (back ++ ys) more) (hback : back ≠ []) : '|' ∈ back := by
  obtain ⟨c, back, rfl⟩ := List.exists_cons_of_ne_nil hback
  obtain ⟨rfl, -⟩ := List.cons.inj h.text
  exact List.mem_cons_self

/-- No occurrence starts in what an emptied list becomes. -/
theorem emptied_free (hp : s.Plain) {t : List Char} (ht : IsCall t) (hback : back <:+ t) (hne : back ≠ []) :
    s.Free (back ++ ys) := by
  intro before o more h
  cases o with
  | list gap items rest =>
    obtain ⟨front, rfl⟩ := ht.exists_concat
    obtain ⟨back, rfl, -⟩ := (List.suffix_concat_iff.1 hback).resolve_left hne
    have htext := h.text
    simp only [Occurrence.text, List.append_assoc, List.cons_append, List.nil_append] at htext
    rw [← List.cons_append, ← List.append_assoc] at htext
    -- The bracket of the list would come before the parenthesis that closes the call.
    rcases append_cons_cases htext with ⟨l, rfl, -⟩ | ⟨-, hsign, -⟩ | ⟨l, hl, -⟩
    · have hbracket := (ht.plain '[' (hback.subset (by simp))).2.1
      cases hbracket
    · cases hsign
    · have hmem : ')' ∈ s.call.toList ++ '(' :: gap := by simp [hl]
      simp only [List.mem_append, List.mem_cons] at hmem
      rcases hmem with hmem | hmem | hmem
      · have hparen := (hp.call _ hmem).2
        cases hparen
      · cases hmem
      · have hblank := h.valid.1 _ hmem
        cases hblank
  | fallback gap q v q' => exact (ht.plain '|' (hback.subset (h.bar hne))).2.2 rfl

/-- No occurrence starts in a fallback to the default. -/
theorem default_free (hp : s.Plain) {gap v : List Char} {q q' : Char} {d : String}
    (hvalid : (Occurrence.fallback gap q v q').Valid s) (hd : s.default = some d)
    (hback : back <:+ (Occurrence.fallback gap q d.toList q).text s) (hne : back ≠ []) :
    s.Free (back ++ ys) := by
  have hgap := hvalid.2.1
  have hq := hvalid.2.2.1
  obtain ⟨hnew, hplain⟩ := hp.default d hd
  intro before o more h
  cases o with
  | list gap' items rest =>
    have hsigns := default_plain hp hvalid hd
    rw [fallback_text_eq] at hback hsigns
    obtain ⟨back, rfl, -⟩ := (List.suffix_concat_iff.1 hback).resolve_left hne
    have htext := h.text
    simp only [Occurrence.text, List.append_assoc, List.cons_append, List.nil_append] at htext
    exact paren_ne_quote (fun c hc => (hp.call c hc).1)
      (fun c hc => (hsigns c (hback.subset (List.mem_append_left _ hc))).1) hq htext.symm
  | fallback gap' q₁ v' q₁' =>
    have hbar : '|' ∉ gap ++ q :: (d.toList ++ [q]) := by
      have hquote : q ≠ '|' := by
        rintro rfl
        cases hq
      simp only [List.mem_append, List.mem_cons, List.not_mem_nil, or_false, not_or]
      exact ⟨fun hmem => (plain_of_isBlank (hgap _ hmem)).2.2.2 rfl, hquote.symm,
        fun hmem => (hplain _ hmem).2.2.2 rfl, hquote.symm⟩
    obtain ⟨front, hfront⟩ := hback
    -- Two bars stand at the front only, and there stands the default.
    rcases front with _ | ⟨a, _ | ⟨b, front⟩⟩
    · obtain rfl : back = _ := hfront
      obtain ⟨-, hgap', hq₁, hv', hq₁'⟩ := h.valid
      obtain ⟨-, -, heq, -, -⟩ := fallback_text_inj hgap hgap' hq hq hq₁ hq₁' (fun c hc => (hplain c hc).1)
        (fun c hc => (hp.removed _ hv' c hc).1) h.text
      obtain ⟨w, hw, hwd⟩ := List.mem_map.1 hv'
      rw [← heq] at hwd
      exact hnew (String.toList_inj.1 hwd ▸ hw)
    · obtain ⟨-, rfl⟩ := List.cons.inj hfront
      have htext := h.text
      obtain ⟨c, cs, hcs⟩ := List.exists_cons_of_ne_nil (show gap ++ q :: (d.toList ++ [q]) ≠ [] by simp)
      simp only [Occurrence.text, List.cons_append, List.cons.injEq, true_and] at htext
      rw [hcs] at htext hbar
      exact hbar ((List.cons.inj htext).1 ▸ List.mem_cons_self)
    · obtain ⟨-, hfront⟩ := List.cons.inj hfront
      obtain ⟨-, hfront⟩ := List.cons.inj hfront
      exact hbar (hfront ▸ List.mem_append_right front (h.bar hne))

/-- No occurrence starts in a list that mentions no removed value and has no fallback behind its brackets. -/
theorem shortened_free (hp : s.Plain) {short rest : List Char} (hshort : ∀ c ∈ short, isBracket c = false)
    (hrest : ∀ c ∈ rest, isParen c = false) (hmention : ∀ m, Mention s m → ¬ m <:+: short)
    (hbehind : ∀ gap q v q', (Occurrence.fallback gap q v q').Valid s →
      ¬ (Occurrence.fallback gap q v q').text s <:+: rest)
    (hback : back <:+ (Occurrence.list [] short rest).text s) (hne : back ≠ []) : s.Free (back ++ ys) := by
  intro before o more h
  obtain ⟨front, hfront⟩ := hback
  cases o with
  | list gap items' rest' =>
    obtain ⟨hgap, ⟨m, hm, hin⟩, hitems, hrest'⟩ := (valid_list_iff hp).1 h.valid
    cases front with
    | nil =>
      obtain rfl : back = _ := hfront
      obtain ⟨-, rfl, -, -⟩ :=
        list_text_inj (List.forall_mem_nil _) hgap hshort hitems hrest hrest' h.text
      exact hmention m hm hin
    | cons c front =>
      rw [list_text_eq] at hfront
      obtain ⟨back, rfl, -⟩ := (List.suffix_concat_iff.1 ⟨_, hfront⟩).resolve_left hne
      rw [← List.append_assoc] at hfront
      have hbody := (List.append_cancel_right hfront).symm
      have hlist : (Occurrence.list gap items' rest').text s <+: back ++ ')' :: ys :=
        ⟨more, by rw [← h.text]; simp⟩
      exact list_not_inside hp (List.forall_mem_nil _) hgap hshort hrest hbody (List.cons_ne_nil c front)
        hlist
  | fallback gap q v q' =>
    obtain ⟨m, hm, hin⟩ := h.valid.fallback_mention
    have hprefix : (Occurrence.fallback gap q v q').text s <+: back ++ ys := ⟨more, h.text.symm⟩
    have hat {c : Char} {as bs : List Char} (hc : isParen c = true ∨ isBracket c = true)
        (hback : back = as ++ c :: bs) : (Occurrence.fallback gap q v q').text s <+: as :=
      fallback_before hp h.valid hc (hback ▸ hprefix)
    -- It would stand in one of the parts of the list.
    rcases append_cases hfront with ⟨l, hl, hb⟩ | ⟨l, -, hopen⟩
    · have hmem : q ∈ l := (hat (.inl (by decide)) hb).subset (by simp [Occurrence.text])
      have hquote := (hp.call q (by simp [hl, hmem])).1
      rw [h.valid.2.2.1] at hquote
      cases hquote
    · rcases append_cases (show l ++ back = [] ++ '[' :: _ from hopen.symm) with
        ⟨l', hl', hb⟩ | ⟨r, -, hclose⟩
      · have hmem : q ∈ l' := (hat (.inr (by decide)) hb).subset (by simp [Occurrence.text])
        simp [(List.append_eq_nil_iff.1 hl'.symm).2] at hmem
      · rcases append_cases hclose.symm with ⟨l', rfl, hb⟩ | ⟨r, -, hend⟩
        · have hstands := (hat (.inr (by decide)) hb).isInfix.trans (List.suffix_append r l').isInfix
          exact hmention m hm (hin.trans hstands)
        · rcases append_cases hend.symm with ⟨l', rfl, hb⟩ | ⟨_, -, hnil⟩
          · have hstands := (hat (.inl (by decide)) hb).isInfix.trans (List.suffix_append r l').isInfix
            exact hbehind gap q v q' h.valid hstands
          · exact hne (List.append_eq_nil_iff.1 hnil.symm).2

/-! ## The second pass -/

/-- Where no occurrence stood, none stands in what a pass has made. -/
theorem Calm.keep (hp : s.Plain) {c : Char} (hcalm : s.Calm (c :: cs)) (halike : Alike before before')
    (hnone : ∀ o more, ¬ s.Occurs before o (c :: cs) more) (h : Pass s (some c) cs (some made))
    (o : Occurrence) (more : List Char) : ¬ s.Occurs before' o (c :: made) more := by
  intro ho
  cases o with
  | fallback gap q v q' =>
    obtain ⟨more', htext⟩ := h.back_fallback hp ho.valid ho.text
    exact hnone _ _ ⟨ho.valid, trivial, htext⟩
  | list gap items rest =>
    obtain ⟨hgap, ⟨m, hm, hin⟩, hitems, hrest⟩ := (valid_list_iff hp).1 ho.valid
    obtain ⟨items', rest', more', htext, hitems', hrest'⟩ :=
      h.back_list hp hcalm.nested hgap hitems hrest ho.text
    have hmention : ∃ m, Mention s m ∧ m <:+: items' := by
      rcases hitems'.eq_or_mention with rfl | hmention
      · exact ⟨m, hm, hin⟩
      · exact hmention
    have hvalid : (Occurrence.list gap items' rest').Valid s := (valid_list_iff hp).2
      ⟨hgap, hmention, hitems'.without hp (.inr rfl) hitems, hrest'.without hp (.inl rfl) hrest⟩
    have hstood : s.Occurs before' (.list gap items' rest') (c :: cs) more' := ⟨hvalid, ho.anchored, htext⟩
    exact hnone _ _ (hstood.alike halike.symm)

/-- A pass over what an image has given way to gets past the image, and changes nothing in it. -/
theorem Occurs.pass_image (hp : s.Plain) (hcalm : s.Calm cs) {image : List Char}
    (ho : s.Occurs before o cs more) (himage : o.Image s image) (halike : Alike before before')
    (h : ∀ after, Alike (lastOr before (o.text s)) after → Pass s after made (some made)) :
    Pass s before' (image ++ made) (some (image ++ made)) := by
  have hstarts : o.text s <:+: cs := by
    rw [ho.text]
    exact (List.prefix_append _ _).isInfix
  cases o with
  | list gap items rest =>
    obtain ⟨hgap, -, hitems, hrest⟩ := (valid_list_iff hp).1 ho.valid
    rw [list_text_eq, lastOr_concat] at h
    rcases himage with ⟨short, hshort, rfl⟩ | ⟨-, t, ht, rfl⟩
    · have hshort' : ∀ c ∈ short, isBracket c = false := fun c hc => by
        rcases hshort.mem hc with hmem | rfl
        · exact hitems c hmem
        · rfl
      have hmade : Pass s (lastOr before' ((Occurrence.list [] short rest).text s)) made (some made) := by
        rw [list_text_eq, lastOr_concat]
        exact h _ (.refl _)
      by_cases hmention : ∃ m, Mention s m ∧ m <:+: short
      · -- A removed value in what is left is no item of its own: the list is made into itself.
        have hvalid : (Occurrence.list [] short rest).Valid s :=
          (valid_list_iff hp).2 ⟨List.forall_mem_nil _, hmention, hshort', hrest⟩
        exact Pass.hit ⟨hvalid, (ho.alike halike).anchored, rfl⟩ (.inl ⟨short, hshort.again, rfl⟩) hmade
      · refine hmade.through fun back hback hne => shortened_free hp hshort' hrest ?_ ?_ hback hne
        · exact fun m hm hin => hmention ⟨m, hm, hin⟩
        · exact hcalm.behind gap items rest ho.valid hstarts
    · have hcall := hp.emptied t ht
      obtain ⟨front, hfront⟩ := hcall.exists_concat
      have hmade : Pass s (lastOr before' t.toList) made (some made) := by
        rw [hfront, lastOr_concat]
        exact h _ (.refl _)
      exact hmade.through fun back hback hne => emptied_free hp hcall hback hne
  | fallback gap q v q' =>
    obtain ⟨d, hd, rfl⟩ := himage
    rw [fallback_text_eq, lastOr_concat] at h
    have hmade :
        Pass s (lastOr before' ((Occurrence.fallback gap q d.toList q).text s)) made (some made) := by
      rw [fallback_text_eq, lastOr_concat]
      exact h _ (alike_quotes ho.valid.2.2.2.2 ho.valid.2.2.1)
    exact hmade.through fun back hback hne => default_free hp ho.valid hd hback hne

/-- **A second pass over a calm text changes nothing.** -/
theorem Pass.again (hp : s.Plain) (hcalm : s.Calm cs) (h : Pass s before cs (some made)) :
    Pass s before made (some made) := by
  suffices hall : ∀ before', Alike before before' → Pass s before' made (some made) from hall before (.refl _)
  revert hcalm
  refine h.some_induction (motive := fun before cs made => s.Calm cs → ∀ before', Alike before before' →
    Pass s before' made (some made)) ?done ?keep ?hit
  case done => exact fun _ _ _ _ => .done
  case keep =>
    intro before c cs made hnone hpass ih hcalm before' halike
    have hrest := ih (hcalm.within (List.suffix_cons c cs).isInfix) (some c) (.refl _)
    exact hrest.keep (hcalm.keep hp halike hnone hpass)
  case hit =>
    intro before o cs more image made ho himage _ ih hcalm before' halike
    have hmore : more <:+: cs := by
      rw [ho.text]
      exact (List.suffix_append _ _).isInfix
    exact ho.pass_image hp hcalm himage halike (ih (hcalm.within hmore))

end

end Codemod.ClosedSet
