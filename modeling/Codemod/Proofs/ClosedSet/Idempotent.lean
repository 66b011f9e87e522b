/-
The rule of a closed set, applied to what it has made. Over a calm text it changes nothing more
(`apply_again`); a fallback behind the brackets of a list is what a second pass is for
(`apply_again_behind`).
-/
import Codemod.Proofs.ClosedSet.Settled
import Codemod.Proofs.Unicode.CharSet

namespace Codemod

/-- The text that a rule makes of a text, where it does not refuse to. -/
def Rule.made? (r : Rule) (text : String) : Option String :=
  (r.apply text).toOption.map fun result => (result.map (·.1)).getD text

namespace ClosedSet

open Text Unicode CharSet Pattern

/-- The rule that a closed set is built into. -/
def rule (s : ClosedSet) : Rule := ⟨s.call, "", .regex ⟨s.pattern, s.node, s.groups⟩, .computed s.rewrite⟩

section

variable {s : ClosedSet} {text made : String}

/-- A closed set that is built is built into its rule. -/
theorem eq_rule_of_build (hcontext : s.fallbackContext = none) {m : Matcher} {r : Replacement}
    (h : s.build = .ok (m, r)) : m = s.rule.matcher ∧ r = s.rule.replacement := by
  obtain ⟨hcall, hne, hvalues, -, rfl, x, names, rfl, hparse⟩ := build_spec h
  obtain ⟨rfl, rfl⟩ := parse_pattern hcontext hcall hne hvalues hparse
  exact ⟨rfl, rfl⟩

theorem pass_made? (hne : s.remove ≠ []) (text : String) :
    Pass s none text.toList ((s.rule.made? text).map String.toList) := by
  have h := apply_pass (r := s.rule) rfl rfl rfl rfl hne text
  rwa [Rule.made?, Option.map_map]

/-- What a rule makes of a text is what a pass makes of it. -/
theorem made?_eq_some_iff (hp : s.Plain) (hne : s.remove ≠ []) :
    s.rule.made? text = some made ↔ Pass s none text.toList (some made.toList) := by
  have hpass := pass_made? hne text
  constructor
  · intro h
    rwa [h] at hpass
  · intro h
    obtain ⟨other, hother, heq⟩ := Option.map_eq_some_iff.1 (hpass.unique hp h)
    rw [hother, String.toList_inj.1 heq]

/-! ## A set for which both happen -/

/-- The underscore is one of the signs that connect words. -/
theorem isWord_underscore : isWord true '_' = true := by
  have hconnector : (CharSet.ofTable "5F 203F-2040 2054 FE33-FE34 FE4D-FE4F FF3F").contains '_' = true := by
    rw [contains, ofTable, memRanges_ofRanges]
    exact ⟨(0x5F, 0x5F), by decide, by decide⟩
  have hcategories : (joinCategories ["mn", "mc", "me", "nd", "pc"]).contains '_' = true :=
    contains_unions (List.mem_filterMap.2 ⟨"pc", by simp, rfl⟩) hconnector
  rw [isWord, if_pos rfl]
  unfold words
  exact contains_unions (by simp) hcategories

def sample : ClosedSet where
  call := "_"
  remove := ["felixmix"]
  default := some "worldpav"
  emptyReplacement := some "z.never()"

theorem sample_call : sample.call.toList = ['_'] := rfl

theorem sample_removed : sample.removed = [['f', 'e', 'l', 'i', 'x', 'm', 'i', 'x']] := rfl

theorem sample_plain : sample.Plain where
  call := by
    rw [sample_call]
    simp [isQuote, isParen]
  removed := by
    rw [sample_removed]
    simp [isQuote, isParen, isBracket]
  default d hd := by
    obtain rfl := Option.some.inj hd
    rw [show "worldpav".toList = ['w', 'o', 'r', 'l', 'd', 'p', 'a', 'v'] from rfl]
    simp [sample, isQuote, isParen, isBracket]
  emptied t ht := by
    obtain rfl := Option.some.inj ht
    rw [show "z.never()".toList = ['z', '.', 'n', 'e', 'v', 'e', 'r', '(', ')'] from rfl]
    exact ⟨by simp [isQuote, isBracket], ['z', '.', 'n', 'e', 'v', 'e', 'r'], [], rfl, by simp [isParen]⟩
  context := rfl

/-- An occurrence of the sample begins with the call or with a bar. -/
theorem sample_free {c : Char} {cs : List Char} (hcall : c ≠ '_') (hbar : c ≠ '|') :
    sample.Free (c :: cs) := by
  intro before o more h
  have htext := h.text
  cases o with
  | list =>
    rw [Occurrence.text, sample_call] at htext
    exact hcall (List.cons.inj htext).1
  | fallback => exact hbar (List.cons.inj htext).1

theorem sample_fallback (before : Option Char) (more : List Char) :
    sample.Occurs before (.fallback [' '] '\'' ['f', 'e', 'l', 'i', 'x', 'm', 'i', 'x'] '\'')
      ("|| 'felixmix'".toList ++ more) more where
  valid := ⟨rfl, by simp [isBlank], rfl, by simp [sample_removed], rfl⟩
  anchored := trivial
  text := rfl

/-- A list of the sample at the start of a text. -/
theorem sample_list {rest : List Char} (more : List Char) (hrest : ∀ c ∈ rest, isParen c = false) :
    sample.Occurs none (.list [] "'a', 'felixmix'".toList rest)
      ("_(['a', 'felixmix']".toList ++ (rest ++ ')' :: more)) more where
  valid := (valid_list_iff sample_plain).2 ⟨List.forall_mem_nil _,
    ⟨"'felixmix'".toList, ⟨'\'', "felixmix".toList, '\'', rfl, by simp [sample_removed], rfl, rfl⟩,
      "'a', ".toList, [], rfl⟩, by simp [isBracket], hrest⟩
  anchored c cs hcall _ := by
    rw [sample_call] at hcall
    obtain ⟨rfl, -⟩ := List.cons.inj hcall
    exact startsWord isWord_underscore
  text := by simp [Occurrence.text, sample_call]

theorem sample_shortens : sample.Shortens "'a', 'felixmix'".toList "'a'".toList :=
  ⟨"'a'".toList, [], by rfl, by rfl⟩

/-- Without its removed value, the list is none that the sample looks for. -/
theorem sample_shortened {rest : List Char} (hrest : ∀ c ∈ rest, isParen c = false) (before : Option Char)
    (o : Occurrence) (more : List Char) :
    ¬ sample.Occurs before o ("_(['a']".toList ++ (rest ++ [')'])) more := by
  intro h
  have htext : "_(['a']".toList ++ (rest ++ [')'])
      = (Occurrence.list [] "'a'".toList rest).text sample ++ [] := by simp [Occurrence.text, sample_call]
  have htext := htext.symm.trans h.text
  cases o with
  | list gap items rest' =>
    obtain ⟨hgap, ⟨m, ⟨q, v, q', -, hv, -, rfl⟩, hin⟩, hitems, hrest'⟩ :=
      (valid_list_iff sample_plain).1 h.valid
    obtain ⟨-, rfl, -, -⟩ :=
      list_text_inj (List.forall_mem_nil _) hgap (by simp [isBracket]) hitems hrest hrest' htext
    have hlength := hin.length_le
    rw [sample_removed, List.mem_singleton] at hv
    simp [hv] at hlength
  | fallback gap q v q' =>
    exact list_ne_fallback sample_plain h.valid.2.1 h.valid.2.2.1 htext

theorem sample_calm : sample.Calm "_(['a', 'felixmix']) || 'felixmix'".toList where
  behind gap items rest hvalid hin gap' q v q' hvalid' hrest := by
    have hbar : '|' ∈ rest := hrest.subset List.mem_cons_self
    obtain ⟨front, back, hcs⟩ := hin
    have hsplit : (front ++ sample.listBody gap items rest) ++ ')' :: back
        = "_(['a', 'felixmix']".toList ++ ')' :: " || 'felixmix'".toList := by
      rw [list_text_eq] at hcs
      calc (front ++ sample.listBody gap items rest) ++ ')' :: back
        _ = front ++ (sample.listBody gap items rest ++ [')']) ++ back := by simp
        _ = "_(['a', 'felixmix']) || 'felixmix'".toList := hcs
        _ = "_(['a', 'felixmix']".toList ++ ')' :: " || 'felixmix'".toList := rfl
    rcases append_cons_cases hsplit with ⟨l, -, hpost⟩ | ⟨hpre, -, -⟩ | ⟨l, hpre, -⟩
    · have hmem : ')' ∈ " || 'felixmix'".toList := by simp [hpost]
      simp at hmem
    · have hmem : '|' ∈ "_(['a', 'felixmix']".toList := by simp [← hpre, listBody, hbar]
      simp at hmem
    · have hmem : ')' ∈ "_(['a', 'felixmix']".toList := by simp [hpre]
      simp at hmem
  nested := by
    rintro ⟨gap, items, gap', items', rest', -, -, -, -, hin⟩
    have hcount := hin.sublist.count_le '['
    simp [Occurrence.text] at hcount
    omega

theorem sample_made :
    sample.rule.made? "_(['a', 'felixmix']) || 'felixmix'" = some "_(['a']) || 'worldpav'" := by
  refine (made?_eq_some_iff sample_plain (by simp [sample])).2 ?_
  have hfallback : Pass sample (some ' ') "|| 'felixmix'".toList (some "|| 'worldpav'".toList) :=
    Pass.hit (sample_fallback _ []) ⟨"worldpav", rfl, rfl⟩ .done
  have hrest : Pass sample (some ')') " || 'felixmix'".toList (some " || 'worldpav'".toList) :=
    hfallback.keep (sample_free (by simp) (by simp) _)
  exact Pass.hit (sample_list _ (List.forall_mem_nil _)) (.inl ⟨_, sample_shortens, rfl⟩) hrest

/-! ## Applying the rule again -/

/-- **The rule of a closed set changes nothing in what it has made of a calm text.** -/
theorem apply_again (hp : s.Plain) (hne : s.remove ≠ []) (hcalm : s.Calm text.toList)
    (h : s.rule.made? text = some made) :
    (∀ m r, s.build = .ok (m, r) → m = s.rule.matcher ∧ r = s.rule.replacement) ∧
      s.rule.made? made = some made :=
  ⟨fun _ _ hbuild => eq_rule_of_build hp.context hbuild,
    (made?_eq_some_iff hp hne).2 (((made?_eq_some_iff hp hne).1 h).again hp hcalm)⟩

theorem apply_again_sample : sample.Plain ∧ sample.remove ≠ [] ∧
    sample.Calm "_(['a', 'felixmix']) || 'felixmix'".toList ∧
    sample.rule.made? "_(['a', 'felixmix']) || 'felixmix'" = some "_(['a']) || 'worldpav'" ∧
    sample.rule.made? "_(['a']) || 'worldpav'" = some "_(['a']) || 'worldpav'" :=
  ⟨sample_plain, by simp [sample], sample_calm, sample_made,
    (apply_again sample_plain (by simp [sample]) sample_calm sample_made).2⟩

/-- A fallback behind the brackets of a list is left to a second pass. -/
theorem apply_again_behind :
    sample.rule.made? "_(['a', 'felixmix'], x || 'felixmix')" = some "_(['a'], x || 'felixmix')" ∧
      sample.rule.made? "_(['a'], x || 'felixmix')" = some "_(['a'], x || 'worldpav')" := by
  have hrest : ∀ c ∈ ", x || 'felixmix'".toList, isParen c = false := by simp [isParen]
  constructor
  · refine (made?_eq_some_iff sample_plain (by simp [sample])).2 ?_
    exact Pass.hit (sample_list [] hrest) (.inl ⟨_, sample_shortens, rfl⟩) .done
  · refine (made?_eq_some_iff sample_plain (by simp [sample])).2 ?_
    have hclose : Pass sample (some '\'') [')'] (some [')']) :=
      Pass.done.keep (sample_free (by simp) (by simp) _)
    have hfallback : Pass sample (some ' ') "|| 'felixmix')".toList (some "|| 'worldpav')".toList) :=
      Pass.hit (sample_fallback _ [')']) ⟨"worldpav", rfl, rfl⟩ hclose
    have hbehind : Pass sample (some '_') "(['a'], x || 'felixmix')".toList
        (some "(['a'], x || 'worldpav')".toList) := by
      show Pass sample _ ("(['a'], x ".toList ++ "|| 'felixmix')".toList) (some ("(['a'], x ".toList ++ _))
      refine hfallback.through fun back hback hne => ?_
      obtain ⟨c, back, rfl⟩ := List.exists_cons_of_ne_nil hne
      have hmem := hback.subset List.mem_cons_self
      refine sample_free ?_ ?_
      · rintro rfl
        simp at hmem
      · rintro rfl
        simp at hmem
    exact hbehind.keep (sample_shortened hrest none)

end

end ClosedSet

end Codemod
