/-
What a rule makes of a text. `findAll_apply` says it for every matcher and every replacement: the hits
are ranges of the text's bytes in rising order, and the result is the text with the bytes of each range
replaced by what the hit is rendered as, or a refusal and no text at all.
-/
import Mathlib.Data.List.Forall2
import Codemod.Proofs.Rule.Hits
import Codemod.Proofs.Text.Bytes
import Codemod.Rule.Basic

namespace Codemod

open Text Pattern

namespace Hit

/-- A hit as a range of the bytes of a text: it begins and ends between characters, is not empty, and
its own text is what stands there. -/
structure RangeOf (text : String) (h : Hit) : Prop where
  start : (⟨h.start.offset⟩ : String.Pos.Raw).IsValid text
  stop : (⟨h.stop.offset⟩ : String.Pos.Raw).IsValid text
  lt : h.start.offset < h.stop.offset
  text_eq : h.text.toUTF8 = text.toUTF8.extract h.start.offset h.stop.offset

/-- Bytes from `last` on with the range of each hit replaced by a text. -/
def replaceIn (bytes : ByteArray) (last : Nat) : List (Hit × String) → ByteArray
  | [] => bytes.extract last bytes.size
  | (h, text) :: rest =>
    bytes.extract last h.start.offset ++ text.toUTF8 ++ replaceIn bytes h.stop.offset rest

end Hit

/-! ## Ranges -/

theorem Spread.rangeOf {text : String} {c : Cursor} {hits : List Hit}
    (hc : .start text.toList ≤ c) (hs : Spread c hits) : ∀ h ∈ hits, h.RangeOf text := by
  induction hs with
  | nil => simp
  | @cons c h hits hstart hne hrest ih =>
    have h1 := hc.trans hstart
    have h2 := h1.trans hne.le
    refine List.forall_mem_cons.2 ⟨?_, ih h2⟩
    exact {
      start := Cursor.isValid_offset h1
      stop := Cursor.isValid_offset h2
      lt := Cursor.offset_lt_of_lt hne
      text_eq := by rw [Cursor.extract_offset h1 hne.le, Hit.text, toUTF8_ofList, Hit.chars] }

theorem Spread.offset_le {c : Cursor} {hits : List Hit} (hs : Spread c hits) :
    ∀ h ∈ hits, c.offset ≤ h.start.offset := by
  induction hs with
  | nil => simp
  | @cons c h hits hstart hne hrest ih =>
    have h1 := Cursor.offset_le_of_le hstart
    have h2 := Cursor.offset_lt_of_lt hne
    refine List.forall_mem_cons.2 ⟨h1, fun k hk => ?_⟩
    have := ih k hk
    omega

theorem Spread.pairwise {c : Cursor} {hits : List Hit} (hs : Spread c hits) :
    hits.Pairwise fun h k => h.stop.offset ≤ k.start.offset := by
  induction hs with
  | nil => exact .nil
  | cons hstart hne hrest ih => exact .cons hrest.offset_le ih

/-! ## Splicing -/

namespace Rule

theorem splice_ok {replacement : Replacement} {text : String} {c : Cursor} {hits : List Hit}
    (hc : .start text.toList ≤ c) (hs : Spread c hits) {texts : List String}
    (hr : List.Forall₂ (fun h t => replacement.render h = .ok t) hits texts) :
    ∃ cs, splice replacement c hits = .ok cs ∧
      cs.utf8Encode = Hit.replaceIn text.toUTF8 c.offset (hits.zip texts) := by
  induction hr generalizing c with
  | nil =>
    exact ⟨c.ahead, rfl, (Cursor.extract_ahead hc).symm⟩
  | @cons h t hits texts hrender _ ih =>
    cases hs with
    | cons hstart hne hrest =>
      obtain ⟨cs, hcs, hbytes⟩ := ih ((hc.trans hstart).trans hne.le) hrest
      refine ⟨c.upTo h.start ++ t.toList ++ cs, ?_, ?_⟩
      · simp only [splice, hrender, hcs]
        rfl
      · rw [List.utf8Encode_append, List.utf8Encode_append, hbytes, ← toUTF8_eq,
          ← Cursor.extract_offset hc hstart, List.zip_cons_cons, Hit.replaceIn]

theorem splice_error {replacement : Replacement} {h : Hit} {e : Refusal}
    (he : replacement.render h = .error e) {c : Cursor} {hits : List Hit} (hmem : h ∈ hits) :
    ∃ e', splice replacement c hits = .error e' := by
  induction hits generalizing c with
  | nil => simp at hmem
  | cons k hits ih =>
    cases hk : replacement.render k with
    | error e' => exact ⟨e', by simp only [splice, hk]; rfl⟩
    | ok t =>
      rcases List.mem_cons.1 hmem with rfl | hmem
      · rw [he] at hk
        cases hk
      · obtain ⟨e', he'⟩ := ih (c := k.stop) hmem
        exact ⟨e', by simp only [splice, hk, he']; rfl⟩

/-- **A rule replaces exactly its hits.** Where the matcher refuses, so does the rule. Else the hits
are ranges of the text that are not empty and come one behind the other, and the rule has no result
exactly if there are none; it refuses if one of them cannot be rendered, and gives the text with
each range replaced, and how many there were, if all can. -/
theorem findAll_apply (r : Rule) (text : String) :
    (∀ e, r.matcher.findAll text.toList = .error e → r.apply text = .error e) ∧
    ∀ hits, r.matcher.findAll text.toList = .ok hits →
      (∀ h ∈ hits, h.RangeOf text) ∧
      hits.Pairwise (fun h k => h.stop.offset ≤ k.start.offset) ∧
      (r.apply text = .ok none ↔ hits = []) ∧
      (∀ h ∈ hits, ∀ e, r.replacement.render h = .error e → ∃ e', r.apply text = .error e') ∧
      (hits ≠ [] → ∀ texts, List.Forall₂ (fun h t => r.replacement.render h = .ok t) hits texts →
        ∃ result, r.apply text = .ok (some (result, hits.length)) ∧
          result.toUTF8 = Hit.replaceIn text.toUTF8 0 (hits.zip texts)) := by
  refine ⟨fun e he => by simp only [apply, he]; rfl, fun hits hhits => ?_⟩
  have hspread := Matcher.findAll_spread hhits
  refine ⟨hspread.rangeOf (le_refl _), hspread.pairwise, ?_, ?_, ?_⟩
  · cases hits with
    | nil => exact ⟨fun _ => rfl, fun _ => by simp only [apply, hhits]; rfl⟩
    | cons h hits =>
      refine ⟨fun hnone => ?_, fun hnil => by cases hnil⟩
      simp only [apply, hhits] at hnone
      cases hs : splice r.replacement (.start text.toList) (h :: hits) <;>
        simp [hs, bind, Except.bind, pure, Except.pure] at hnone
  · intro h hmem e he
    obtain ⟨e', he'⟩ := splice_error he (c := .start text.toList) hmem
    refine ⟨e', ?_⟩
    cases hits with
    | nil => simp at hmem
    | cons k hits => simp [apply, hhits, he', bind, Except.bind]
  · intro hne texts hr
    obtain ⟨cs, hcs, hbytes⟩ := splice_ok (le_refl _) hspread hr
    refine ⟨String.ofList cs, ?_, by rw [toUTF8_ofList, hbytes, Cursor.offset_start]⟩
    cases hits with
    | nil => exact absurd rfl hne
    | cons k hits => simp [apply, hhits, hcs, bind, Except.bind, pure, Except.pure]

end Rule

end Codemod
