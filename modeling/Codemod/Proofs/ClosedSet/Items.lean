/-
Rewriting the items of a list. What is left of them are the pieces that stay, with the blanks that the
list began with and what followed a trailing comma; taking the removed values out once more changes
nothing (`Shortens.again`).
-/
import Mathlib.Data.List.TakeWhile
import Codemod.Rule.ClosedSet

namespace Codemod.ClosedSet

open Text

/-- The pieces of a list, without what follows a trailing comma. -/
def elements (items : List Char) : List (List Char) :=
  if (trailing? (splitItems items)).isSome then (splitItems items).dropLast else splitItems items

/-- The blanks that a list begins with. -/
def lead (items : List Char) : List Char := ((elements items).head?.getD []).takeWhile isBlank

/-- A piece of a list that stays: a literal with another value than the removed ones. -/
structure Stays (s : ClosedSet) (piece : List Char) : Prop where
  nonempty : trim piece ≠ []
  literal : ∃ value, quotedValue? (trim piece) = some value ∧ s.remove.contains (String.ofList value) = false

/-- What the items are made into where some of them stay. -/
def Shortens (s : ClosedSet) (items short : List Char) : Prop :=
  ∃ k ks, s.kept (elements items) = .ok (k :: ks) ∧
    short = joinItems (lead items) (k :: ks) (trailing? (splitItems items))

variable {s : ClosedSet} {items piece cs : List Char} {pieces ks : List (List Char)}

/-! ## Splitting and joining -/

theorem splitItems_of_notMem (h : ',' ∉ cs) : splitItems cs = [cs] := by
  induction cs with
  | nil => rfl
  | cons c cs ih =>
    simp only [List.mem_cons, not_or] at h
    have hc : (c == ',') = false := by simpa using Ne.symm h.1
    simp [splitItems, hc, ih h.2]

theorem splitItems_cons (h : ',' ∉ piece) (rest : List Char) :
    splitItems (piece ++ ',' :: rest) = piece :: splitItems rest := by
  induction piece with
  | nil => simp [splitItems]
  | cons c piece ih =>
    simp only [List.mem_cons, not_or] at h
    have hc : (c == ',') = false := by simpa using Ne.symm h.1
    simp [splitItems, hc, ih h.2]

/-- Pieces without commas come out as they were put together. -/
theorem splitItems_join (hpiece : ',' ∉ piece) (hpieces : ∀ p ∈ pieces, ',' ∉ p) :
    splitItems (piece ++ pieces.flatMap (',' :: ·)) = piece :: pieces := by
  induction pieces generalizing piece with
  | nil => simpa using splitItems_of_notMem hpiece
  | cons p pieces ih =>
    obtain ⟨hp, hpieces⟩ := List.forall_mem_cons.1 hpieces
    rw [List.flatMap_cons, List.cons_append, splitItems_cons hpiece, ih hp hpieces]

theorem notMem_of_mem_splitItems (h : piece ∈ splitItems cs) : ',' ∉ piece := by
  induction cs generalizing piece with
  | nil =>
    rw [splitItems, List.mem_singleton] at h
    simp [h]
  | cons c cs ih =>
    rw [splitItems] at h
    split at h
    · rcases List.mem_cons.1 h with rfl | h
      · simp
      · exact ih h
    · next hc =>
      have hc : ',' ≠ c := by simpa using Ne.symm (by simpa using hc)
      split at h
      · next p ps hsplit =>
        rcases List.mem_cons.1 h with rfl | h
        · simp [hc, ih (hsplit ▸ List.mem_cons_self)]
        · exact ih (hsplit ▸ List.mem_cons_of_mem _ h)
      · rw [List.mem_singleton] at h
        simp [h, hc]

theorem subset_of_mem_splitItems (h : piece ∈ splitItems cs) : piece ⊆ cs := by
  induction cs generalizing piece with
  | nil =>
    rw [splitItems, List.mem_singleton] at h
    simp [h]
  | cons c cs ih =>
    rw [splitItems] at h
    split at h
    · rcases List.mem_cons.1 h with rfl | h
      · simp
      · exact List.subset_cons_of_subset c (ih h)
    · split at h
      · next p ps hsplit =>
        rcases List.mem_cons.1 h with rfl | h
        · exact List.cons_subset_cons c (ih (hsplit ▸ List.mem_cons_self))
        · exact List.subset_cons_of_subset c (ih (hsplit ▸ List.mem_cons_of_mem _ h))
      · rw [List.mem_singleton] at h
        simp [h]

/-! ## The pieces that stay -/

theorem kept_spec (h : s.kept pieces = .ok ks) : ks.Sublist pieces ∧ ∀ k ∈ ks, s.Stays k := by
  induction pieces generalizing ks with
  | nil =>
    obtain rfl := Except.ok.inj h
    exact ⟨.slnil, nofun⟩
  | cons p pieces ih =>
    unfold kept at h
    simp only at h
    split at h
    · exact ⟨(ih h).1.cons _, (ih h).2⟩
    · next hempty =>
      split at h
      · cases h
      · next value hvalue =>
        split at h
        · exact ⟨(ih h).1.cons _, (ih h).2⟩
        · next hremoved =>
          cases hrest : s.kept pieces with
          | error e => rw [hrest] at h; cases h
          | ok rest =>
            rw [hrest] at h
            obtain rfl := Except.ok.inj h
            obtain ⟨hsub, hstays⟩ := ih hrest
            have hstay : s.Stays p := ⟨by simpa using hempty, value, hvalue, by simpa using hremoved⟩
            exact ⟨hsub.cons_cons _, List.forall_mem_cons.2 ⟨hstay, hstays⟩⟩

theorem kept_of_stays (h : ∀ p ∈ pieces, s.Stays p) : s.kept pieces = .ok pieces := by
  induction pieces with
  | nil => rfl
  | cons p pieces ih =>
    obtain ⟨⟨hne, value, hvalue, hremoved⟩, hpieces⟩ := List.forall_mem_cons.1 h
    rw [kept]
    simp only [List.isEmpty_iff, hne, if_false, hvalue, hremoved, Bool.false_eq_true, ih hpieces]
    rfl

/-! ## Blanks around a piece -/

theorem trimStart_append {blanks : List Char} (h : ∀ c ∈ blanks, isBlank c = true) (cs : List Char) :
    trimStart (blanks ++ cs) = trimStart cs := List.dropWhile_append_of_pos h

theorem trimStart_trimStart (cs : List Char) : trimStart (trimStart cs) = trimStart cs := by
  induction cs with
  | nil => rfl
  | cons c cs ih =>
    by_cases hc : isBlank c = true
    · rw [show trimStart (c :: cs) = trimStart cs from List.dropWhile_cons_of_pos hc, ih]
    · have h : trimStart (c :: cs) = c :: cs := List.dropWhile_cons_of_neg hc
      rw [h, h]

theorem takeWhile_trimStart (cs : List Char) : (trimStart cs).takeWhile isBlank = [] := by
  induction cs with
  | nil => rfl
  | cons c cs ih =>
    by_cases hc : isBlank c = true
    · rw [show trimStart (c :: cs) = trimStart cs from List.dropWhile_cons_of_pos hc, ih]
    · rw [show trimStart (c :: cs) = c :: cs from List.dropWhile_cons_of_neg hc,
        List.takeWhile_cons_of_neg hc]

theorem blank_of_mem_lead : ∀ c ∈ lead items, isBlank c = true := fun _ hc => List.mem_takeWhile_imp hc

/-- Other blanks before a piece leave it what it is. -/
theorem Stays.lead (h : s.Stays piece) {blanks : List Char} (hblanks : ∀ c ∈ blanks, isBlank c = true) :
    s.Stays (blanks ++ trimStart piece) := by
  have htrim : trim (blanks ++ trimStart piece) = trim piece := by
    rw [trim, trim, trimStart_append hblanks, trimStart_trimStart]
  exact ⟨htrim ▸ h.nonempty, htrim ▸ h.literal⟩

theorem Stays.not_blank (h : s.Stays piece) : piece.all isBlank = false := by
  rw [Bool.eq_false_iff]
  intro hall
  refine h.nonempty ?_
  rw [trim, trimStart, List.dropWhile_eq_nil_iff.2 (List.all_eq_true.1 hall)]
  rfl

theorem trailing?_eq_some {t : List Char} (h : trailing? pieces = some t) :
    pieces.getLast? = some t ∧ t.all isBlank = true := by
  unfold trailing? at h
  split at h
  · exact Option.filter_eq_some_iff.1 h
  · cases h

theorem joinItems_eq (lead k : List Char) (ks : List (List Char)) (trailing : Option (List Char)) :
    joinItems lead (k :: ks) trailing
      = lead ++ trimStart k ++ (ks ++ trailing.toList).flatMap (',' :: ·) := by
  cases trailing <;> simp [joinItems]

theorem subset_of_mem_elements (h : piece ∈ elements items) : piece ⊆ items := by
  unfold elements at h
  split at h
  · exact subset_of_mem_splitItems ((List.dropLast_sublist _).subset h)
  · exact subset_of_mem_splitItems h

theorem lead_subset : lead items ⊆ items := by
  intro c hc
  have hmem : c ∈ (elements items).head?.getD [] := (List.takeWhile_sublist _).subset hc
  cases helements : (elements items).head? with
  | none => simp [helements] at hmem
  | some p =>
    rw [helements] at hmem
    exact subset_of_mem_elements (List.mem_of_head? helements) hmem

/-- There is nothing in the items then that was not in them before, but commas. -/
theorem Shortens.mem {short : List Char} (h : s.Shortens items short) {c : Char} (hc : c ∈ short) :
    c ∈ items ∨ c = ',' := by
  obtain ⟨k, ks, hkept, rfl⟩ := h
  have hsub := (kept_spec hkept).1.subset
  simp only [joinItems_eq, List.mem_append, List.mem_flatMap, List.mem_cons] at hc
  rcases hc with (hc | hc) | ⟨p, hp | hp, rfl | hc⟩
  · exact .inl (lead_subset hc)
  · exact .inl (subset_of_mem_elements (hsub List.mem_cons_self) ((List.dropWhile_sublist _).subset hc))
  · exact .inr rfl
  · exact .inl (subset_of_mem_elements (hsub (List.mem_cons_of_mem _ hp)) hc)
  · exact .inr rfl
  · have hlast := (trailing?_eq_some (Option.mem_toList.1 hp)).1
    exact .inl (subset_of_mem_splitItems (List.mem_of_getLast? hlast) hc)

/-! ## The pieces of what is left -/

section

variable {k : List Char} (hkept : s.kept (elements items) = .ok (k :: ks))
include hkept

/-- The pieces that stay, the first one behind the blanks that the list began with. -/
theorem stays_joinItems : ∀ p ∈ (lead items ++ trimStart k) :: ks, s.Stays p := by
  obtain ⟨hk, hks⟩ := List.forall_mem_cons.1 (kept_spec hkept).2
  exact List.forall_mem_cons.2 ⟨hk.lead blank_of_mem_lead, hks⟩

theorem splitItems_joinItems :
    splitItems (joinItems (lead items) (k :: ks) (trailing? (splitItems items)))
      = (lead items ++ trimStart k) :: (ks ++ (trailing? (splitItems items)).toList) := by
  have hsub := (kept_spec hkept).1.subset
  have hpieces : ∀ p ∈ elements items, ',' ∉ p := fun p hp => by
    unfold elements at hp
    split at hp
    · exact notMem_of_mem_splitItems ((List.dropLast_sublist _).subset hp)
    · exact notMem_of_mem_splitItems hp
  have hfirst : ',' ∉ lead items ++ trimStart k := by
    rw [List.mem_append, not_or]
    refine ⟨fun hmem => ?_, fun hmem => ?_⟩
    · exact absurd (blank_of_mem_lead _ hmem) (by decide)
    · exact hpieces k (hsub List.mem_cons_self) (List.dropWhile_sublist _ |>.subset hmem)
  have hothers : ∀ p ∈ ks ++ (trailing? (splitItems items)).toList, ',' ∉ p := by
    intro p hp
    rcases List.mem_append.1 hp with hp | hp
    · exact hpieces p (hsub (List.mem_cons_of_mem _ hp))
    · have hlast := (trailing?_eq_some (Option.mem_toList.1 hp)).1
      exact notMem_of_mem_splitItems (List.mem_of_getLast? hlast)
  rw [joinItems_eq, splitItems_join hfirst hothers]

/-- A comma at the end stays, with what follows it. -/
theorem trailing?_joinItems :
    trailing? (splitItems (joinItems (lead items) (k :: ks) (trailing? (splitItems items))))
      = trailing? (splitItems items) := by
  rw [splitItems_joinItems hkept]
  cases htrailing : trailing? (splitItems items) with
  | some t =>
    have hlast := trailing?_eq_some htrailing
    rw [Option.toList_some, ← List.cons_append, trailing?, if_pos (by simp), List.getLast?_concat,
      Option.filter_some, hlast.2]
    rfl
  | none =>
    rw [Option.toList_none, List.append_nil]
    unfold trailing?
    split
    · obtain ⟨p, hp⟩ : ∃ p, ((lead items ++ trimStart k) :: ks).getLast? = some p :=
        ⟨_, List.getLast?_eq_some_getLast (List.cons_ne_nil _ _)⟩
      have hblank := (stays_joinItems hkept p (List.mem_of_getLast? hp)).not_blank
      rw [hp, Option.filter_some, hblank]
      rfl
    · rfl

theorem elements_joinItems :
    elements (joinItems (lead items) (k :: ks) (trailing? (splitItems items)))
      = (lead items ++ trimStart k) :: ks := by
  unfold elements
  rw [trailing?_joinItems hkept, splitItems_joinItems hkept]
  cases trailing? (splitItems items) with
  | some t => rw [Option.toList_some, ← List.cons_append, List.dropLast_concat]; rfl
  | none => simp

end

/-- **Taking the removed values out once more changes nothing.** -/
theorem Shortens.again {short : List Char} (h : s.Shortens items short) : s.Shortens short short := by
  obtain ⟨k, ks, hkept, rfl⟩ := h
  have hlead : lead (joinItems (lead items) (k :: ks) (trailing? (splitItems items))) = lead items := by
    rw [lead, elements_joinItems hkept]
    show (lead items ++ trimStart k).takeWhile isBlank = lead items
    rw [List.takeWhile_append_of_pos blank_of_mem_lead, takeWhile_trimStart, List.append_nil]
  refine ⟨lead items ++ trimStart k, ks, ?_, ?_⟩
  · rw [elements_joinItems hkept]
    exact kept_of_stays (stays_joinItems hkept)
  · rw [hlead, trailing?_joinItems hkept, joinItems_eq, joinItems_eq, trimStart_append blank_of_mem_lead,
      trimStart_trimStart]

end Codemod.ClosedSet
