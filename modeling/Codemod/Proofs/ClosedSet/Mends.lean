/-
Going back from what a pass makes to the text that it was made of. Up to a parenthesis that closes, a pass
changes fallbacks only, unless a list stands there (`Pass.mends`). So an occurrence that begins with a
character that was kept stood there before (`Pass.back_fallback`, `Pass.back_list`): where its items have
changed, they mentioned a removed value too.
-/
import Codemod.Proofs.ClosedSet.Passes

namespace Codemod.ClosedSet

open Text Unicode Pattern

section

variable {s : ClosedSet} {before : Option Char} {cs ds as bs made : List Char} {out out' : Option (List Char)}

theorem Occurs.ne_nil {o : Occurrence} {more : List Char} (h : s.Occurs before o cs more) : cs ≠ [] := by
  rw [h.text]
  cases o <;> simp [Occurrence.text]

/-- A pass comes to one end. -/
theorem Pass.unique (hp : s.Plain) (h : Pass s before cs out) (h' : Pass s before cs out') : out = out' := by
  induction h generalizing out' with
  | done =>
    cases h' with
    | done => rfl
    | hit ho => exact absurd rfl ho.ne_nil
    | refused ho => exact absurd rfl ho.ne_nil
  | keep hnone _ ih =>
    cases h' with
    | keep _ hrest => rw [ih hrest]
    | hit ho => exact absurd ho (hnone _ _)
    | refused ho => exact absurd ho (hnone _ _)
  | hit ho himage _ ih =>
    cases h' with
    | done => exact absurd rfl ho.ne_nil
    | keep hnone => exact absurd ho (hnone _ _)
    | hit ho' himage' hrest =>
      obtain ⟨rfl, rfl⟩ := ho.unique hp ho'
      rw [ih hrest, himage.unique himage']
    | refused ho' hrefused =>
      obtain ⟨rfl, rfl⟩ := ho.unique hp ho'
      exact absurd himage (hrefused _)
  | refused ho hrefused =>
    cases h' with
    | done => exact absurd rfl ho.ne_nil
    | keep hnone => exact absurd ho (hnone _ _)
    | hit ho' himage' =>
      obtain ⟨rfl, rfl⟩ := ho.unique hp ho'
      exact absurd himage' (hrefused _)
    | refused => rfl

/-- Induction along a pass that gets to the end. -/
theorem Pass.some_induction {motive : Option Char → List Char → List Char → Prop}
    (done : ∀ before, motive before [] [])
    (keep : ∀ before c cs made, (∀ o more, ¬ s.Occurs before o (c :: cs) more) →
      Pass s (some c) cs (some made) → motive (some c) cs made → motive before (c :: cs) (c :: made))
    (hit : ∀ before o cs more image made, s.Occurs before o cs more → o.Image s image →
      Pass s (lastOr before (o.text s)) more (some made) → motive (lastOr before (o.text s)) more made →
      motive before cs (image ++ made))
    (h : Pass s before cs (some made)) : motive before cs made := by
  generalize hout : some made = out at h
  induction h generalizing made with
  | done =>
    obtain rfl := Option.some.inj hout
    exact done _
  | keep hnone hrest ih =>
    obtain ⟨rest, rfl, rfl⟩ := Option.map_eq_some_iff.1 hout.symm
    exact keep _ _ _ _ hnone hrest (ih rfl)
  | hit ho himage hrest ih =>
    obtain ⟨rest, rfl, rfl⟩ := Option.map_eq_some_iff.1 hout.symm
    exact hit _ _ _ _ _ _ ho himage hrest (ih rfl)
  | refused => cases hout

/-! ## Fallbacks -/

/-- Up to its first quote, what a pass makes is the text, where no parenthesis stands before it. Behind the
quote the pass goes on, unless it is the first one of a fallback. -/
theorem Pass.up_to_quote (hp : s.Plain) (h : Pass s before cs (some made)) {front behind : List Char}
    {q : Char} (hmade : made = front ++ q :: behind)
    (hfront : ∀ c ∈ front, isQuote c = false ∧ isParen c = false) (hq : isQuote q = true) :
    ∃ rest, cs = front ++ q :: rest ∧ (Pass s (some q) rest (some behind) ∨
      ∃ start gap, front = start ++ '|' :: '|' :: gap ∧ ∀ c ∈ gap, isBlank c = true) := by
  revert front
  refine h.some_induction (motive := fun _ cs made => ∀ {front}, made = front ++ q :: behind →
    (∀ c ∈ front, isQuote c = false ∧ isParen c = false) → ∃ rest, cs = front ++ q :: rest ∧
      (Pass s (some q) rest (some behind) ∨
        ∃ start gap, front = start ++ '|' :: '|' :: gap ∧ ∀ c ∈ gap, isBlank c = true)) ?done ?keep ?hit
  case done =>
    intro _ front hmade _
    simp at hmade
  case keep =>
    intro _ c cs made hnone hrest ih front hmade hfront
    cases front with
    | nil =>
      obtain ⟨rfl, rfl⟩ := List.cons.inj hmade
      exact ⟨cs, rfl, .inl hrest⟩
    | cons a front =>
      obtain ⟨rfl, htail⟩ := List.cons.inj hmade
      obtain ⟨rest, rfl, hbehind⟩ := ih htail fun b hb => hfront b (List.mem_cons_of_mem _ hb)
      refine ⟨rest, rfl, hbehind.imp_right ?_⟩
      rintro ⟨start, gap, rfl, hgap⟩
      exact ⟨c :: start, gap, rfl, hgap⟩
  case hit =>
    intro _ o cs more image made ho himage _ _ front hmade hfront
    -- A list, and what an emptied list becomes, have a parenthesis before all quotes.
    have hopen {name rest : List Char} (hname : ∀ c ∈ name, isQuote c = false) :
        name ++ '(' :: rest ≠ front ++ q :: behind := paren_ne_quote hname (fun c hc => (hfront c hc).2) hq
    cases o with
    | list gap items rest =>
      rcases himage with ⟨short, -, rfl⟩ | ⟨-, t, ht, rfl⟩
      · simp only [Occurrence.text, List.append_assoc, List.cons_append] at hmade
        exact (hopen (fun c hc => (hp.call c hc).1) hmade).elim
      · obtain ⟨name, args, hform, -⟩ := (hp.emptied t ht).form
        have hplain := (hp.emptied t ht).plain
        rw [hform] at hmade hplain
        rw [List.append_assoc, List.cons_append] at hmade
        exact (hopen (fun c hc => (hplain c (by simp [hc])).1) hmade).elim
    | fallback gap q' v q'' =>
      obtain ⟨d, -, rfl⟩ := himage
      obtain ⟨-, hgap, hq', -, -⟩ := ho.valid
      simp only [Occurrence.text, List.append_assoc, List.cons_append, List.nil_append] at hmade
      obtain ⟨rfl, rfl, -⟩ := split_unique (fun c hc => (bars_plain hgap c hc).1) hq'
        (fun c hc => (hfront c hc).1) hq hmade
      refine ⟨v ++ q'' :: more, ?_, .inr ⟨[], gap, rfl, hgap⟩⟩
      rw [ho.text]
      simp [Occurrence.text]

/-- A fallback that begins with a character that was kept stood there before. -/
theorem Pass.back_fallback (hp : s.Plain) {c : Char} (h : Pass s (some c) cs (some made))
    {gap v more : List Char} {q q' : Char} (hvalid : (Occurrence.fallback gap q v q').Valid s)
    (hmade : c :: made = (Occurrence.fallback gap q v q').text s ++ more) :
    ∃ more', c :: cs = (Occurrence.fallback gap q v q').text s ++ more' := by
  obtain ⟨-, hgap, hq, hv, hq'⟩ := hvalid
  simp only [Occurrence.text, List.append_assoc, List.cons_append, List.nil_append, List.cons.injEq] at hmade
  obtain ⟨rfl, hmade⟩ := hmade
  obtain ⟨rest, rfl, hrest⟩ := h.up_to_quote hp (show made = ('|' :: gap) ++ q :: _ from hmade)
    (fun c hc => bars_plain hgap c (List.mem_cons_of_mem _ hc)) hq
  rcases hrest with hrest | ⟨start, gap', heq, -⟩
  · obtain ⟨rest', rfl, -⟩ := hrest.up_to_quote hp rfl
      (fun c hc => ⟨(hp.removed v hv c hc).1, (hp.removed v hv c hc).2.1⟩) hq'
    exact ⟨rest', by simp [Occurrence.text]⟩
  · -- There is no second bar before the quote.
    cases start with
    | nil =>
      obtain ⟨-, rfl⟩ := List.cons.inj heq
      exact absurd (hgap '|' (by simp)) (by decide)
    | cons a start =>
      obtain ⟨-, rfl⟩ := List.cons.inj heq
      exact absurd (hgap '|' (by simp)) (by decide)

/-! ## Texts in which fallbacks have changed -/

/-- A text in which a pass has changed fallbacks only. -/
inductive Mends (s : ClosedSet) : List Char → List Char → Prop
  | nil : Mends s [] []
  | same {c : Char} {cs ds : List Char} : Mends s cs ds → Mends s (c :: cs) (c :: ds)
  | swap {gap v cs ds : List Char} {q q' : Char} {d : String} : (Occurrence.fallback gap q v q').Valid s →
      s.default = some d → Mends s cs ds →
      Mends s ((Occurrence.fallback gap q v q').text s ++ cs)
        ((Occurrence.fallback gap q d.toList q).text s ++ ds)

/-- The signs of a fallback to the default. -/
theorem default_plain (hp : s.Plain) {gap v : List Char} {q q' : Char} {d : String}
    (hvalid : (Occurrence.fallback gap q v q').Valid s) (hd : s.default = some d) :
    ∀ c ∈ (Occurrence.fallback gap q d.toList q).text s, isParen c = false ∧ isBracket c = false :=
  fallback_plain hvalid.2.1 hvalid.2.2.1 hvalid.2.2.1 fun c hc =>
    ⟨((hp.default d hd).2 c hc).2.1, ((hp.default d hd).2 c hc).2.2.1⟩

theorem removed_plain (hp : s.Plain) {gap v : List Char} {q q' : Char}
    (hvalid : (Occurrence.fallback gap q v q').Valid s) :
    ∀ c ∈ (Occurrence.fallback gap q v q').text s, isParen c = false ∧ isBracket c = false :=
  fallback_plain hvalid.2.1 hvalid.2.2.1 hvalid.2.2.2.2 fun c hc => (hp.removed v hvalid.2.2.2.1 c hc).2

/-- A parenthesis or a bracket is where it was. -/
theorem Mends.split (hp : s.Plain) {c : Char} (hc : isParen c = true ∨ isBracket c = true)
    (h : Mends s cs (as ++ c :: bs)) : ∃ as' bs', cs = as' ++ c :: bs' ∧ Mends s as' as ∧ Mends s bs' bs := by
  generalize hds : as ++ c :: bs = ds at h
  induction h generalizing as with
  | nil => simp at hds
  | @same a cs ds hrest ih =>
    cases as with
    | nil =>
      obtain ⟨rfl, rfl⟩ := List.cons.inj hds
      exact ⟨[], cs, rfl, .nil, hrest⟩
    | cons b as =>
      obtain ⟨rfl, htail⟩ := List.cons.inj hds
      obtain ⟨as', bs', rfl, has, hbs⟩ := ih htail
      exact ⟨b :: as', bs', rfl, .same has, hbs⟩
  | @swap gap v cs ds q q' d hvalid hd hrest ih =>
    rcases append_cases hds.symm with ⟨l, rfl, htail⟩ | ⟨l, himage, -⟩
    · obtain ⟨as', bs', rfl, has, hbs⟩ := ih htail.symm
      exact ⟨(Occurrence.fallback gap q v q').text s ++ as', bs', by simp, .swap hvalid hd has, hbs⟩
    · have hplain := default_plain hp hvalid hd c (by simp [himage])
      rw [hplain.1, hplain.2] at hc
      simp at hc

/-- Without quotes there was no fallback. -/
theorem Mends.eq_of_plain (h : Mends s cs ds) (hds : ∀ c ∈ ds, isQuote c = false) : cs = ds := by
  induction h with
  | nil => rfl
  | same _ ih => rw [ih fun c hc => hds c (List.mem_cons_of_mem _ hc)]
  | @swap gap v cs ds q q' d hvalid hd _ _ =>
    have hquote := hds q (by simp [Occurrence.text])
    rw [hvalid.2.2.1] at hquote
    cases hquote

/-- Where there are no parentheses, there were none, and the same for brackets. -/
theorem Mends.without (hp : s.Plain) {p : Char → Bool} (hsign : p = isParen ∨ p = isBracket)
    (h : Mends s cs ds) (hds : ∀ c ∈ ds, p c = false) : ∀ c ∈ cs, p c = false := by
  induction h with
  | nil => exact hds
  | same _ ih =>
    obtain ⟨hc, hds⟩ := List.forall_mem_cons.1 hds
    exact List.forall_mem_cons.2 ⟨hc, ih hds⟩
  | @swap gap v cs ds q q' d hvalid hd _ ih =>
    intro c hc
    rcases List.mem_append.1 hc with hc | hc
    · have hplain := removed_plain hp hvalid c hc
      rcases hsign with rfl | rfl
      · exact hplain.1
      · exact hplain.2
    · exact ih (fun b hb => hds b (List.mem_append_right _ hb)) c hc

/-- Where something has changed, a removed value was mentioned. -/
theorem Mends.eq_or_mention (h : Mends s cs ds) : cs = ds ∨ ∃ m, Mention s m ∧ m <:+: cs := by
  induction h with
  | nil => exact .inl rfl
  | same _ ih =>
    rcases ih with rfl | ⟨m, hm, hin⟩
    · exact .inl rfl
    · exact .inr ⟨m, hm, hin.trans (List.suffix_cons _ _).isInfix⟩
  | swap hvalid _ _ _ =>
    obtain ⟨m, hm, hin⟩ := hvalid.fallback_mention
    exact .inr ⟨m, hm, hin.trans (List.prefix_append _ _).isInfix⟩

/-- The start of a list, up to some of its items, is what it was but for fallbacks in the items. -/
theorem Mends.start (hp : s.Plain) {gap : List Char} (hgap : ∀ c ∈ gap, isBlank c = true)
    (h : Mends s cs (s.call.toList ++ '(' :: (gap ++ '[' :: ds))) :
    ∃ ds', cs = s.call.toList ++ '(' :: (gap ++ '[' :: ds') ∧ Mends s ds' ds := by
  obtain ⟨call, cs', rfl, hcall, h⟩ := h.split hp (.inl (by decide))
  obtain ⟨gap', ds', rfl, hgap', h⟩ := h.split hp (.inr (by decide))
  rw [hcall.eq_of_plain fun c hc => (hp.call c hc).1,
    hgap'.eq_of_plain fun c hc => (plain_of_isBlank (hgap c hc)).1]
  exact ⟨ds', rfl, h⟩

/-! ## Lists -/

/-- Up to the parenthesis that closes a call, a pass has changed fallbacks only, where no list starts and no
list has been emptied. -/
theorem Pass.mends (hp : s.Plain) (h : Pass s before cs (some made)) {body behind : List Char}
    (hmade : made = body ++ ')' :: behind)
    (hlists : ∀ back, back <:+ body → ∀ items rest,
      ¬ (Occurrence.list [] items rest).text s <+: back ++ ')' :: behind)
    (hemptied : ∀ front front' back gap items rest t, Mends s front front' → body = front' ++ back →
      (Occurrence.list gap items rest).Valid s → s.kept (elements items) = .ok [] →
      s.emptyReplacement = some t → front ++ (Occurrence.list gap items rest).text s <+: cs →
      ¬ t.toList <+: back ++ ')' :: behind) :
    ∃ body' rest, cs = body' ++ ')' :: rest ∧ Mends s body' body := by
  revert body
  refine h.some_induction (motive := fun _ cs made => ∀ {body}, made = body ++ ')' :: behind →
    (∀ back, back <:+ body → ∀ items rest,
      ¬ (Occurrence.list [] items rest).text s <+: back ++ ')' :: behind) →
    (∀ front front' back gap items rest t, Mends s front front' → body = front' ++ back →
      (Occurrence.list gap items rest).Valid s → s.kept (elements items) = .ok [] →
      s.emptyReplacement = some t → front ++ (Occurrence.list gap items rest).text s <+: cs →
      ¬ t.toList <+: back ++ ')' :: behind) →
    ∃ body' rest, cs = body' ++ ')' :: rest ∧ Mends s body' body) ?done ?keep ?hit
  case done =>
    intro _ body hmade _ _
    simp at hmade
  case keep =>
    intro _ c cs made _ _ ih body hmade hlists hemptied
    cases body with
    | nil =>
      obtain ⟨rfl, rfl⟩ := List.cons.inj hmade
      exact ⟨[], cs, rfl, .nil⟩
    | cons a body =>
      obtain ⟨rfl, htail⟩ := List.cons.inj hmade
      obtain ⟨body', rest, rfl, hmends⟩ := ih htail
        (fun back hback => hlists back (hback.trans (List.suffix_cons c body)))
        (fun front front' back gap items rest t hfront hbody hvalid hkept ht hcs =>
          hemptied (c :: front) (c :: front') back gap items rest t (.same hfront) (by rw [hbody]; rfl)
            hvalid hkept ht ((List.prefix_cons_inj c).2 hcs))
      exact ⟨c :: body', rest, rfl, .same hmends⟩
  case hit =>
    intro _ o cs more image made ho himage _ ih body hmade hlists hemptied
    cases o with
    | list gap items rest =>
      rcases himage with ⟨short, -, rfl⟩ | ⟨hkept, t, ht, rfl⟩
      · exact absurd ⟨made, hmade⟩ (hlists body (List.suffix_refl body) short rest)
      · exact absurd ⟨made, hmade⟩
          (hemptied [] [] body gap items rest t .nil rfl ho.valid hkept ht ⟨more, ho.text.symm⟩)
    | fallback gap q v q' =>
      obtain ⟨d, hd, rfl⟩ := himage
      have hswap {as bs : List Char} (h : Mends s as bs) := Mends.swap ho.valid hd h
      -- The image of a fallback has no parenthesis, so it ends before that of the call.
      rcases append_cases hmade with ⟨l, rfl, htail⟩ | ⟨l, hl, -⟩
      · obtain ⟨body', rest, rfl, hmends⟩ := ih htail
          (fun back hback => hlists back (hback.trans (List.suffix_append _ _)))
          (fun front front' back gap' items rest t hfront hbody hvalid hkept ht hcs =>
            hemptied _ _ back gap' items rest t (hswap hfront) (by rw [hbody, List.append_assoc]) hvalid
              hkept ht (by rw [ho.text, List.append_assoc]; exact (List.prefix_append_right_inj _).2 hcs))
        refine ⟨(Occurrence.fallback gap q v q').text s ++ body', rest, ?_, hswap hmends⟩
        rw [ho.text, List.append_assoc]
      · have hparen := (default_plain hp ho.valid hd ')' (by simp [hl])).1
        cases hparen

/-- A list that loses all its values stands in the brackets of another call. -/
def Nested (s : ClosedSet) (cs : List Char) : Prop :=
  ∃ gap items gap' items' rest', (∀ c ∈ gap, isBlank c = true) ∧ (∀ c ∈ items, isBracket c = false) ∧
    (Occurrence.list gap' items' rest').Valid s ∧ s.kept (elements items') = .ok [] ∧
    s.call.toList ++ '(' :: (gap ++ '[' :: (items ++ (Occurrence.list gap' items' rest').text s)) <:+: cs

/-- A list that begins with a character that was kept stood there before, but for fallbacks in it. -/
theorem Pass.back_list (hp : s.Plain) {c : Char} (h : Pass s (some c) cs (some made))
    (hnested : ¬ s.Nested (c :: cs)) {gap items rest more : List Char} (hgap : ∀ c ∈ gap, isBlank c = true)
    (hitems : ∀ c ∈ items, isBracket c = false) (hrest : ∀ c ∈ rest, isParen c = false)
    (hmade : c :: made = (Occurrence.list gap items rest).text s ++ more) :
    ∃ items' rest' more', c :: cs = (Occurrence.list gap items' rest').text s ++ more' ∧
      Mends s items' items ∧ Mends s rest' rest := by
  have hform : c :: made = s.listBody gap items rest ++ ')' :: more := by
    rw [hmade, list_text_eq, List.append_assoc]
    rfl
  obtain ⟨body, hbody⟩ : ∃ body, s.listBody gap items rest = c :: body := by
    cases hbody : s.listBody gap items rest with
    | nil => simp [listBody] at hbody
    | cons a body =>
      rw [hbody] at hform
      exact ⟨body, by rw [(List.cons.inj hform).1]⟩
  rw [hbody] at hform
  have hlists : ∀ back, back <:+ body → ∀ items rest,
      ¬ (Occurrence.list [] items rest).text s <+: back ++ ')' :: more := by
    intro back hback items' rest' hlist
    obtain ⟨front, rfl⟩ := hback
    exact list_not_inside hp hgap (List.forall_mem_nil _) hitems hrest hbody (List.cons_ne_nil c front) hlist
  -- What an emptied list becomes could only stand in the brackets.
  have hemptied : ∀ front front' back gap' items' rest' t, Mends s front front' → body = front' ++ back →
      (Occurrence.list gap' items' rest').Valid s → s.kept (elements items') = .ok [] →
      s.emptyReplacement = some t → front ++ (Occurrence.list gap' items' rest').text s <+: cs →
      ¬ t.toList <+: back ++ ')' :: more := by
    intro front front' back gap' items' rest' t hfront hback hvalid hkept ht hcs hprefix
    have hcall := hp.emptied t ht
    have hwhole : (c :: front') ++ back = s.call.toList ++ '(' :: (gap ++ '[' :: (items ++ ']' :: rest)) := by
      rw [List.cons_append, ← hback, ← hbody, listBody]
    rcases append_cases hwhole with ⟨l, hl, rfl⟩ | ⟨l, hl, hopen⟩
    · rw [List.append_assoc, List.cons_append, List.append_assoc, List.cons_append] at hprefix
      exact hcall.not_start (fun a ha => (hp.call a (by simp [hl, ha])).2) hgap hprefix
    · rcases append_cases hopen.symm with ⟨l', rfl, rfl⟩ | ⟨m, rfl, hclose⟩
      · rw [List.append_assoc, List.cons_append] at hprefix
        exact hcall.not_gap (fun a ha => hgap a (List.mem_append_right _ ha)) hprefix
      · rcases append_cases hclose.symm with ⟨l', rfl, rfl⟩ | ⟨r, rfl, rfl⟩
        · obtain ⟨m', hm', hmends⟩ := Mends.start hp hgap (hl ▸ hfront.same)
          refine hnested
            ⟨gap, m', gap', items', rest', hgap, hmends.without hp (.inr rfl) ?_, hvalid, hkept, ?_⟩
          · exact fun a ha => hitems a (List.mem_append_left _ ha)
          · have hin : c :: front ++ (Occurrence.list gap' items' rest').text s <+: c :: cs :=
              (List.prefix_cons_inj c).2 hcs
            rw [hm'] at hin
            simpa using hin.isInfix
        · exact hcall.not_rest (fun a ha => hrest a (List.mem_append_right _ ha)) hprefix
  obtain ⟨body', behind, rfl, hmends⟩ := h.mends hp (List.cons.inj hform).2 hlists hemptied
  obtain ⟨ds, hds, hmends⟩ := Mends.start hp hgap (hbody ▸ hmends.same)
  obtain ⟨items', rest', rfl, hitems', hrest'⟩ := hmends.split hp (.inr (by decide))
  refine ⟨items', rest', behind, ?_, hitems', hrest'⟩
  rw [← List.cons_append, hds]
  simp [Occurrence.text]

end

end Codemod.ClosedSet
