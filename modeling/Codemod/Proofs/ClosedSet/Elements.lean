/-
The elements of a list: the pieces between commas, without the blanks around them and without those that are
blank. Taking the removed values out is refused on an element that is no literal (`kept_error`), and else
leaves a list that has just the elements with other values, in their order, and its trailing comma
(`listed_joinItems`, `trailing?_joinItems`).
-/
import Codemod.Proofs.ClosedSet.Grammar
import Codemod.Proofs.ClosedSet.Items

namespace Codemod.ClosedSet

open Text

/-- The elements of a list. -/
def listed (items : List Char) : List (List Char) := ((splitItems items).map trim).filter (!·.isEmpty)

/-- A literal: a quote, a value without that quote, and the quote again. -/
def Literal (value element : List Char) : Prop :=
  ∃ quote, isQuote quote = true ∧ quote ∉ value ∧ element = quote :: (value ++ [quote])

/-- A literal with a removed value. -/
def Drops (s : ClosedSet) (element : List Char) : Prop := ∃ value ∈ s.removed, Literal value element

/-- The items end in a comma with blanks behind it. -/
def Trails (items blanks : List Char) : Prop := ',' :: blanks <:+ items ∧ ∀ c ∈ blanks, isBlank c = true

section

variable {s : ClosedSet} {items piece element value cs ds t : List Char} {pieces ks : List (List Char)}

/-! ## Literals -/

theorem quotedValue?_eq_some_iff : quotedValue? element = some value ↔ Literal value element := by
  constructor
  · intro h
    unfold quotedValue? at h
    split at h
    · next q rest =>
      split at h
      · cases h
      · next hq =>
        split at h
        · next hclose =>
          simp only [Bool.and_eq_true, beq_iff_eq, Bool.not_eq_true', List.contains_eq_mem,
            decide_eq_false_iff_not] at hclose
          obtain ⟨hlast, hnot⟩ := hclose
          obtain rfl := Option.some.inj h
          refine ⟨q, ?_, hnot, ?_⟩
          · rw [isQuote_eq_true]
            simpa [or_iff_not_imp_left] using hq
          · rw [List.dropLast_append_getLast? q hlast]
        · cases h
    · cases h
  · rintro ⟨q, hq, hnot, rfl⟩
    have hquote : (q != '\'' && q != '"') = false := by
      rcases isQuote_eq_true.1 hq with rfl | rfl <;> rfl
    simp [quotedValue?, hquote, hnot]

/-- A literal is one with a single value. -/
theorem Literal.unique {value' : List Char} (h : Literal value element) (h' : Literal value' element) :
    value = value' :=
  Option.some.inj ((quotedValue?_eq_some_iff.2 h).symm.trans (quotedValue?_eq_some_iff.2 h'))

instance (value element : List Char) : Decidable (Literal value element) :=
  decidable_of_iff _ quotedValue?_eq_some_iff

instance (s : ClosedSet) (element : List Char) : Decidable (s.Drops element) :=
  inferInstanceAs (Decidable (∃ value ∈ s.removed, Literal value element))

theorem Drops.exists_literal (h : s.Drops element) : ∃ value, Literal value element := by
  obtain ⟨value, -, hliteral⟩ := h
  exact ⟨value, hliteral⟩

theorem Literal.drops_iff (h : Literal value element) :
    s.Drops element ↔ s.remove.contains (String.ofList value) = true := by
  rw [List.contains_iff_mem]
  constructor
  · rintro ⟨v, hv, hliteral⟩
    obtain rfl := h.unique hliteral
    obtain ⟨w, hw, rfl⟩ := List.mem_map.1 hv
    rwa [String.ofList_toList]
  · intro hmem
    exact ⟨value, List.mem_map.2 ⟨_, hmem, String.toList_ofList⟩, h⟩

/-! ## Pieces and elements -/

theorem exists_splitItems (cs : List Char) : ∃ p ps, splitItems cs = p :: ps ∧ cs = p ++ ps.flatMap (',' :: ·) := by
  induction cs with
  | nil => exact ⟨[], [], rfl, rfl⟩
  | cons c cs ih =>
    obtain ⟨p, ps, hsplit, hcs⟩ := ih
    by_cases hc : c = ','
    · refine ⟨[], p :: ps, by simp [splitItems, hc, hsplit], ?_⟩
      rw [List.flatMap_cons, List.nil_append, List.cons_append, ← hcs, hc]
    · exact ⟨c :: p, ps, by simp [splitItems, hc, hsplit], by rw [List.cons_append, ← hcs]⟩

theorem splitItems_concat (cs : List Char) (ht : ',' ∉ t) : splitItems (cs ++ ',' :: t) = splitItems cs ++ [t] := by
  obtain ⟨p, ps, hsplit, hcs⟩ := exists_splitItems cs
  have hmem {q : List Char} (hq : q ∈ p :: ps) : ',' ∉ q := notMem_of_mem_splitItems (hsplit ▸ hq)
  have hjoin : cs ++ ',' :: t = p ++ (ps ++ [t]).flatMap (',' :: ·) := by
    rw [hcs, List.flatMap_append]
    simp
  rw [hjoin, hsplit, splitItems_join (hmem List.mem_cons_self), List.cons_append]
  intro q hq
  rcases List.mem_append.1 hq with hq | hq
  · exact hmem (List.mem_cons_of_mem _ hq)
  · rwa [List.mem_singleton.1 hq]

/-- What is told apart as following a trailing comma is what does. -/
theorem trailing?_eq_some_iff : trailing? (splitItems items) = some t ↔ Trails items t := by
  constructor
  · intro h
    obtain ⟨hlast, hblank⟩ := trailing?_eq_some h
    obtain ⟨p, ps, hsplit, hitems⟩ := exists_splitItems items
    rw [hsplit] at h hlast
    refine ⟨?_, List.all_eq_true.1 hblank⟩
    rcases List.eq_nil_or_concat ps with rfl | ⟨front, q, rfl⟩
    · simp [trailing?] at h
    · rw [List.concat_eq_append, ← List.cons_append, List.getLast?_concat] at hlast
      obtain rfl := Option.some.inj hlast
      exact ⟨p ++ front.flatMap (',' :: ·), by rw [hitems, List.concat_eq_append]; simp⟩
  · rintro ⟨⟨front, rfl⟩, hblank⟩
    have hcomma : ',' ∉ t := fun hmem => absurd (hblank _ hmem) (by decide)
    obtain ⟨p, ps, hsplit, -⟩ := exists_splitItems front
    rw [splitItems_concat front hcomma, hsplit, trailing?, if_pos (by simp), List.cons_append,
      ← List.cons_append, List.getLast?_concat, Option.filter_some, if_pos (List.all_eq_true.2 hblank)]

theorem trim_eq_nil (h : piece.all isBlank = true) : trim piece = [] := by
  rw [trim, trimStart, List.dropWhile_eq_nil_iff.2 (List.all_eq_true.1 h)]
  rfl

/-- What follows a trailing comma is no element. -/
theorem listed_eq (items : List Char) : listed items = ((elements items).map trim).filter (!·.isEmpty) := by
  unfold listed elements
  cases h : trailing? (splitItems items) with
  | none => rfl
  | some t =>
    obtain ⟨hlast, hblank⟩ := trailing?_eq_some h
    obtain ⟨front, hfront⟩ : ∃ front, splitItems items = front ++ [t] :=
      ⟨_, (List.dropLast_append_getLast? t hlast).symm⟩
    simp [hfront, trim_eq_nil hblank]

/-- The pieces that hold an element are those that are not blank. -/
theorem mem_listed : element ∈ listed items ↔ element ≠ [] ∧ ∃ p ∈ elements items, trim p = element := by
  rw [listed_eq, List.mem_filter, List.mem_map, and_comm]
  simp

/-! ## What is kept -/

theorem kept_blank (h : trim piece = []) : s.kept (piece :: pieces) = s.kept pieces := by
  rw [kept]
  simp [h]

theorem Literal.ne_nil (h : Literal value element) : element ≠ [] := by
  obtain ⟨q, -, -, rfl⟩ := h
  exact List.cons_ne_nil _ _

theorem kept_literal (h : Literal value (trim piece)) :
    s.kept (piece :: pieces)
      = if s.Drops (trim piece) then s.kept pieces else (s.kept pieces).map (piece :: ·) := by
  rw [kept]
  simp only [List.isEmpty_iff, h.ne_nil, if_false, quotedValue?_eq_some_iff.2 h, h.drops_iff]

theorem kept_other (hne : trim piece ≠ []) (h : ∀ value, ¬ Literal value (trim piece)) :
    ∃ e, s.kept (piece :: pieces) = .error e := by
  have hnone : quotedValue? (trim piece) = none := by
    rw [Option.eq_none_iff_forall_ne_some]
    exact fun value hvalue => h value (quotedValue?_eq_some_iff.1 hvalue)
  exact ⟨.notLiteral (String.ofList (trim piece)) s.call, by rw [kept]; simp [hne, hnone]⟩

/-- An element that is no literal is refused. -/
theorem kept_error (h : ∃ p ∈ pieces, trim p ≠ [] ∧ ∀ value, ¬ Literal value (trim p)) :
    ∃ e, s.kept pieces = .error e := by
  induction pieces with
  | nil =>
    obtain ⟨p, hp, -⟩ := h
    cases hp
  | cons p pieces ih =>
    by_cases hempty : trim p = []
    · rw [kept_blank hempty]
      simp only [List.exists_mem_cons_iff, hempty, ne_eq, not_true_eq_false, false_and, false_or] at h
      exact ih h
    · by_cases hliteral : ∃ value, Literal value (trim p)
      · obtain ⟨value, hliteral⟩ := hliteral
        obtain ⟨q, hq, hne, hnot⟩ := h
        rcases List.mem_cons.1 hq with rfl | hq
        · exact absurd hliteral (hnot value)
        · obtain ⟨e, he⟩ := ih ⟨q, hq, hne, hnot⟩
          rw [kept_literal hliteral, he]
          split
          · exact ⟨e, rfl⟩
          · exact ⟨e, rfl⟩
      · exact kept_other hempty fun value hvalue => hliteral ⟨value, hvalue⟩

/-- Of literals, those with other values are kept. -/
theorem kept_ok (h : ∀ p ∈ pieces, trim p ≠ [] → ∃ value, Literal value (trim p)) :
    s.kept pieces = .ok (pieces.filter fun p => trim p ≠ [] ∧ ¬ s.Drops (trim p)) := by
  induction pieces with
  | nil => rfl
  | cons p pieces ih =>
    obtain ⟨hp, hpieces⟩ := List.forall_mem_cons.1 h
    by_cases hempty : trim p = []
    · rw [kept_blank hempty, ih hpieces, List.filter_cons_of_neg (by simp [hempty])]
    · obtain ⟨value, hliteral⟩ := hp hempty
      rw [kept_literal hliteral, ih hpieces]
      by_cases hdrops : s.Drops (trim p)
      · rw [if_pos hdrops, List.filter_cons_of_neg (by simp [hdrops])]
      · rw [if_neg hdrops, List.filter_cons_of_pos (by simp [hempty, hdrops])]
        rfl

/-- The elements of the pieces that stay. -/
theorem listed_joinItems {k : List Char} (hkept : s.kept (elements items) = .ok (k :: ks))
    (h : ∀ e ∈ listed items, ∃ value, Literal value e) :
    listed (joinItems (lead items) (k :: ks) (trailing? (splitItems items)))
      = (listed items).filter fun e => ¬ s.Drops e := by
  have hall : ∀ p ∈ elements items, trim p ≠ [] → ∃ value, Literal value (trim p) := fun p hp hne =>
    h _ (mem_listed.2 ⟨hne, p, hp, rfl⟩)
  have hstay : ∀ p ∈ k :: ks, (!(trim p).isEmpty) = true := by
    intro p hp
    simpa using ((kept_spec hkept).2 p hp).nonempty
  have hfirst : trim (lead items ++ trimStart k) = trim k := by
    rw [trim, trim, trimStart_append blank_of_mem_lead, trimStart_trimStart]
  calc listed (joinItems (lead items) (k :: ks) (trailing? (splitItems items)))
    _ = ((k :: ks).map trim).filter (!·.isEmpty) := by
      rw [listed_eq, elements_joinItems hkept, List.map_cons, List.map_cons, hfirst]
    _ = (k :: ks).map trim := List.filter_eq_self.2 (List.forall_mem_map.2 hstay)
    _ = ((elements items).filter fun p => trim p ≠ [] ∧ ¬ s.Drops (trim p)).map trim := by
      rw [Except.ok.inj (hkept.symm.trans (kept_ok hall))]
    _ = (listed items).filter fun e => ¬ s.Drops e := by
      rw [listed_eq, List.filter_filter, List.filter_map]
      congr 2
      funext p
      by_cases hp : trim p = []
      · simp [hp]
      · simp [hp]

end

end Codemod.ClosedSet
