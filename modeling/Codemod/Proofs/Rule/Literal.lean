/-
A literal rule is textual replacement. `Replaced` says what that is without the places that the rule
works with: the leftmost occurrence goes, then the leftmost one of what is left, until there is none.
Occurrences may overlap each other, so which of them go depends on the order; `Replaced.unique` says that
the order leaves no choice. `occurrences_replaced` follows the search one character at a time.
-/
import Codemod.Proofs.Rule.Chain
import Codemod.Proofs.Rule.Hits

namespace Codemod

open Text Pattern

namespace Text

/-- Replacing the leftmost occurrence of a text, then the leftmost one behind it, and so on. The number is
that of the occurrences replaced. -/
inductive Replaced (needle new : List Char) : List Char → Nat → List Char → Prop
  | done {text : List Char} : ¬ needle <:+: text → Replaced needle new text 0 text
  | next {text front rest result : List Char} {n : Nat} :
      text = front ++ needle ++ rest →
      (∀ before behind, text = before ++ needle ++ behind → front.length ≤ before.length) →
      Replaced needle new rest n result → Replaced needle new text (n + 1) (front ++ new ++ result)

namespace Replaced

variable {needle new text rest result result' : List Char} {m n : Nat} {a : Char}

theorem unique (h : Replaced needle new text m result) (h' : Replaced needle new text n result') :
    m = n ∧ result = result' := by
  induction h generalizing n result' with
  | done hnone =>
    cases h' with
    | done => exact ⟨rfl, rfl⟩
    | next heq _ _ => exact absurd ⟨_, _, heq.symm⟩ hnone
  | @next text front rest result m heq hleast _ ih =>
    cases h' with
    | done hnone => exact absurd ⟨_, _, heq.symm⟩ hnone
    | @next _ front' rest' result' n heq' hleast' hrest' =>
      -- each of the two is the leftmost occurrence, so they are one
      have hlen : front.length = front'.length :=
        Nat.le_antisymm (hleast _ _ heq') (hleast' _ _ heq)
      rw [heq, List.append_assoc, List.append_assoc] at heq'
      obtain ⟨rfl, htail⟩ := List.append_inj heq' hlen
      obtain rfl := List.append_cancel_left htail
      obtain ⟨rfl, rfl⟩ := ih hrest'
      exact ⟨rfl, rfl⟩

/-- An occurrence at the start is the leftmost one. -/
theorem here (h : Replaced needle new rest n result) :
    Replaced needle new (needle ++ rest) (n + 1) (new ++ result) := by
  have hsplit : needle ++ rest = [] ++ needle ++ rest := rfl
  exact .next hsplit (fun _ _ _ => Nat.zero_le _) h

/-- A character at which no occurrence starts stays. -/
theorem skip (hnot : ¬ needle <+: a :: text) (h : Replaced needle new text n result) :
    Replaced needle new (a :: text) n (a :: result) := by
  cases h with
  | done hnone =>
    refine .done fun hinfix => ?_
    rcases List.infix_cons_iff.1 hinfix with hprefix | hinfix
    · exact hnot hprefix
    · exact hnone hinfix
  | @next _ front rest result n heq hleast hrest =>
    have hsplit : a :: text = (a :: front) ++ needle ++ rest := by rw [heq]; rfl
    refine .next hsplit (fun before behind hsplit => ?_) hrest
    cases before with
    | nil => exact absurd ⟨behind, hsplit.symm⟩ hnot
    | cons b before =>
      obtain ⟨rfl, htail⟩ := List.cons.inj hsplit
      exact Nat.succ_le_succ (hleast before behind htail)

end Replaced

theorem Cursor.upTo_of_next? {c d e : Cursor} {a : Char} (hnext : c.next? = some (a, d)) (hle : d ≤ e) :
    c.upTo e = a :: d.upTo e := by
  have hone : c.Spans [a] d := Cursor.spans_iff.2 ⟨le_of_next? hnext, ahead_of_next? hnext⟩
  have hrest : d.Spans (d.upTo e) e := ⟨hle, rfl⟩
  exact (hone.append hrest).upTo

end Text

/-! ## Splicing the occurrences -/

/-- A character before the first hit stays. -/
theorem Rule.splice_of_next? {replacement : Replacement} {c d : Cursor} {a : Char} {hits : List Hit}
    (hnext : c.next? = some (a, d)) (hs : Spread d hits) :
    splice replacement c hits = (splice replacement d hits).map (a :: ·) := by
  cases hs with
  | nil =>
    rw [splice, splice, Cursor.ahead_of_next? hnext]
    rfl
  | @cons _ h hits hstart _ _ =>
    simp only [splice, Cursor.upTo_of_next? hnext hstart]
    cases replacement.render h with
    | error e => rfl
    | ok text => cases splice replacement h.stop hits <;> rfl

namespace Matcher

theorem occurrences_replaced {needle : List Char} (hne : needle ≠ []) (new : String) (c : Cursor) :
    ∃ result, Rule.splice (.literal new) c (occurrences needle c) = .ok result ∧
      Replaced needle new.toList c.ahead (occurrences needle c).length result := by
  fun_induction occurrences needle c with
  | case1 c hprefix stop hlt ih =>
    obtain ⟨result, hsplice, hrest⟩ := ih
    have hspans : c.Spans needle stop := Cursor.spans_advance (List.isPrefixOf_iff_prefix.1 hprefix)
    refine ⟨new.toList ++ result, ?_, hspans.ahead ▸ hrest.here⟩
    have hnone : c.upTo c = [] := (Cursor.spans_nil c).upTo
    simp only [Rule.splice, Replacement.render, hsplice, hnone]
    rfl
  | case2 c hprefix stop hnlt =>
    have hspans : c.Spans needle stop := Cursor.spans_advance (List.isPrefixOf_iff_prefix.1 hprefix)
    have hleft := hspans.left
    have hpos := List.length_pos_of_ne_nil hne
    omega
  | case3 c hnot a d hnext ih =>
    obtain ⟨result, hsplice, hrest⟩ := ih
    refine ⟨a :: result, ?_, ?_⟩
    · rw [Rule.splice_of_next? hnext (occurrences_spread needle d), hsplice]
      rfl
    · rw [Cursor.ahead_of_next? hnext] at hnot ⊢
      exact hrest.skip (by rwa [← List.isPrefixOf_iff_prefix])
  | case4 c hnot hnext =>
    refine ⟨c.ahead, rfl, .done fun hinfix => hne ?_⟩
    rw [Cursor.next?_eq_none.1 hnext] at hinfix
    exact List.infix_nil.1 hinfix

end Matcher

namespace Rule

/-- What a literal rule says of a text. -/
theorem apply_literal {r : Rule} {needle new : String} (hmatcher : r.matcher = .literal needle)
    (hnew : r.replacement = .literal new) (hne : needle.toList ≠ []) (text : String) :
    ∃ n result, Replaced needle.toList new.toList text.toList n result ∧
      r.apply text = .ok (if n = 0 then none else some (String.ofList result, n)) := by
  obtain ⟨result, hsplice, hreplaced⟩ :=
    Matcher.occurrences_replaced hne new (.start text.toList)
  refine ⟨_, result, hreplaced, ?_⟩
  rw [← hnew] at hsplice
  simp only [apply, hmatcher, Matcher.findAll, hsplice, bind, Except.bind, pure, Except.pure]
  cases Matcher.occurrences needle.toList (.start text.toList) <;> simp

end Rule

namespace RuleSet

/-- **A literal rule replaces its needle and does nothing else.** Every needle that is not empty makes a
matcher, a rule under any id that is not blank, and a set of that one rule. On every text the set leaves
what replacing the leftmost occurrence after the leftmost occurrence leaves, which is determined; it
counts the occurrences replaced, under no id if there are none; and it records no failure. -/
theorem apply_replaced {needle id : String} (hneedle : needle ≠ "") (hid : isBlankText id = false)
    (new description text : String) :
    ∃ m r s, Matcher.literal? needle = .ok m ∧ Rule.create id m (.literal new) description = .ok r ∧
      ofRules [r] = .ok s ∧
      ∃ n result, Replaced needle.toList new.toList text.toList n result.toList ∧
        (∀ n' result', Replaced needle.toList new.toList text.toList n' result' →
          n' = n ∧ result' = result.toList) ∧
        s.apply text = ⟨result, if n = 0 then [] else [(id, n)], []⟩ := by
  have hmatcher : Matcher.literal? needle = .ok (.literal needle) := by
    simp [Matcher.literal?, hneedle]
  have hrule : Rule.create id (.literal needle) (.literal new) description =
      .ok ⟨id, description, .literal needle, .literal new⟩ := by
    simp [Rule.create, hid, Replacement.needsCaptures]
  refine ⟨_, _, _, hmatcher, hrule, rfl, ?_⟩
  obtain ⟨n, result, hreplaced, happly⟩ := Rule.apply_literal
    (r := ⟨id, description, .literal needle, .literal new⟩) rfl rfl (by simpa using hneedle) text
  refine ⟨n, String.ofList result, by simpa using hreplaced, fun n' result' h => ?_, ?_⟩
  · simpa using h.unique hreplaced
  · simp only [apply, List.foldl, applyRule, happly]
    cases hreplaced with
    | done => simp
    | next => simp [HitCounts.set]

/-- Of two occurrences that overlap each other, the first goes and the second is left. -/
theorem apply_replaced_overlapping :
    ("aa" ≠ "" ∧ isBlankText "r" = false) ∧
    ∃ m r s, Matcher.literal? "aa" = .ok m ∧ Rule.create "r" m (.literal "b") "" = .ok r ∧
      ofRules [r] = .ok s ∧ s.apply "aaa" = ⟨"ba", [("r", 1)], []⟩ := by
  have hneedle : "aa" ≠ "" := by decide
  have hid : isBlankText "r" = false := by decide
  obtain ⟨m, r, s, hm, hr, hs, n, result, -, hunique, happly⟩ := apply_replaced hneedle hid "b" "" "aaa"
  have hrest : Replaced ['a', 'a'] ['b'] ['a'] 0 ['a'] := .done (by decide)
  obtain ⟨rfl, hresult⟩ := hunique 1 ['b', 'a'] hrest.here
  have hba : result = "ba" := String.toList_inj.1 (hresult.symm.trans (by decide))
  rw [hba] at happly
  exact ⟨⟨hneedle, hid⟩, m, r, s, hm, hr, hs, happly⟩

end RuleSet

end Codemod
