/-
The hits of all four kinds of matchers lie one behind the other on the text they were found in, and
none is empty (`findAll_spread`). Each kind has a loop of its own; what they share is that a hit starts
at or behind the place the loop has come to, ends behind its own start, and is where the loop goes on.
-/
import Codemod.Proofs.Pattern.Span
import Codemod.Proofs.Pattern.Spelling
import Codemod.Rule.Matcher

namespace Codemod

open Text Pattern

/-- Hits that are not empty and lie one behind the other from a place on. -/
inductive Spread : Cursor → List Hit → Prop
  | nil {c : Cursor} : Spread c []
  | cons {c : Cursor} {h : Hit} {hits : List Hit} :
      c ≤ h.start → h.start < h.stop → Spread h.stop hits → Spread c (h :: hits)

theorem Spread.of_le {c d : Cursor} {hits : List Hit} (hle : c ≤ d) (h : Spread d hits) :
    Spread c hits := by
  cases h with
  | nil => exact .nil
  | cons hstart hne hrest => exact .cons (hle.trans hstart) hne hrest

theorem Spread.nonempty {c : Cursor} {hits : List Hit} (hs : Spread c hits) :
    ∀ h ∈ hits, h.start.offset < h.stop.offset := by
  induction hs with
  | nil => simp
  | cons hstart hne hrest ih => exact List.forall_mem_cons.2 ⟨Cursor.offset_lt_of_lt hne, ih⟩

theorem Except.map_eq_ok {ε α β : Type} {f : α → β} {x : Except ε α} {b : β} :
    x.map f = .ok b ↔ ∃ a, x = .ok a ∧ f a = b := by
  cases x with
  | error e => simp [Except.map]
  | ok a => simp [Except.map]

namespace Matcher

/-! ## Occurrences of a text -/

theorem occurrences_spread (needle : List Char) (c : Cursor) :
    Spread c (occurrences needle c) := by
  fun_induction occurrences needle c with
  | case1 c hp stop hlt ih =>
    exact .cons (le_refl c) (Cursor.lt_iff.2 ⟨Cursor.le_advance _ _, hlt⟩) ih
  | case2 c hp stop hlt => exact .nil
  | case3 c hp a d hd ih => exact ih.of_le (Cursor.le_of_next? hd)
  | case4 c hp hd => exact .nil

/-! ## Matches of a pattern -/

/-- A match that does not move on starts and ends at the place itself. -/
theorem isEmpty_of_not_lt {s : Scan} {c : Cursor} {barred : Bool} {m : Match}
    (hm : s.search? c barred = some m) (hlt : ¬ m.stop.left < c.left) : m.isEmpty = true := by
  obtain ⟨hc, hle⟩ := search?_le hm
  have h1 := Cursor.left_le_of_le hc
  have h2 := Cursor.left_le_of_le hle
  simp only [Match.isEmpty, beq_iff_eq]
  omega

theorem searchAll_spread (p : Pattern) (s : Scan) (c : Cursor) (barred : Bool)
    (h : ∀ m ∈ s.searchAll c barred, m.isEmpty = false) :
    Spread c ((s.searchAll c barred).map (Hit.ofMatch p)) := by
  fun_induction Scan.searchAll s c barred with
  | case1 c barred hm => exact .nil
  | case2 c barred m hm hlt ih =>
    simp only [List.mem_cons, forall_eq_or_imp] at h
    obtain ⟨hc, hle⟩ := search?_le hm
    have hne : m.start ≠ m.stop := by
      rw [Ne, ← Match.isEmpty_iff hle]
      simp [h.1]
    exact .cons hc (lt_of_le_of_ne hle hne) (ih h.2)
  | case3 c m hlt hm =>
    have hempty := isEmpty_of_not_lt hm hlt
    simp [hempty] at h
  | case4 c barred m hm hlt _ ih =>
    have hempty := isEmpty_of_not_lt hm hlt
    simp [hempty] at h

theorem regexHits_spread {p : Pattern} {text : List Char} {hits : List Hit}
    (h : regexHits p text = .ok hits) : Spread (.start text) hits := by
  simp only [regexHits] at h
  split at h
  · simp at h
  · rename_i hnone
    simp only [Except.ok.injEq] at h
    subst h
    refine searchAll_spread p _ _ _ fun m hm => ?_
    simpa using List.find?_eq_none.1 hnone m hm

/-- A pattern whose first match is empty is refused for it. -/
theorem regexHits_of_empty {p : Pattern} {text : List Char} {m : Match}
    (hm : (p.scan text).find? (.start text) = some m) (hempty : m.isEmpty = true) :
    regexHits p text = .error (.emptyMatch p.source m.start.offset) := by
  have hsearch : (p.scan text).search? (.start text) false = some m := by
    simp only [Scan.search?, hm, Bool.false_and, Bool.false_eq_true, if_false]
  obtain ⟨ms, hms⟩ : ∃ ms, (p.scan text).findAll (.start text) = m :: ms := by
    rw [Scan.findAll, Scan.searchAll, hsearch]
    dsimp only
    split
    · exact ⟨_, rfl⟩
    · exact ⟨_, rfl⟩
  simp only [regexHits, hms, List.find?_cons_of_pos hempty]

/-- A pattern that moves on hits its leftmost matches, and is never refused. -/
theorem regexHits_leftmost {p : Pattern} (hsimple : p.node.simple = true) (hne : p.node.nullable = false)
    (text : List Char) :
    ∃ ms, regexHits p text = .ok (ms.map (Hit.ofMatch p)) ∧ Leftmost p.node (.start text) ms := by
  have h : Leftmost p.node (.start text) ((p.scan text).findAll (.start text)) :=
    searchAll_leftmost hsimple hne (le_refl _) false
  refine ⟨_, ?_, h⟩
  have hnone : ((p.scan text).findAll (.start text)).find? (·.isEmpty) = none := by
    rw [List.find?_eq_none]
    intro m hm
    simp [h.isEmpty_eq_false hne m hm]
  simp only [regexHits, hnone]

/-! ## Blocks -/

theorem balancedEnd_lt {opening closing : Char} {depth : Nat} {c d : Cursor}
    (h : balancedEnd opening closing depth c = some d) : c < d := by
  fun_induction balancedEnd opening closing depth c with
  | case1 depth c hc => simp at h
  | case2 depth c a e hc ha ih => exact (Cursor.le_of_next? hc).trans_lt (ih h)
  | case3 depth c a e hc ha hb hdepth h1 =>
    simp only [Option.some.injEq] at h
    subst h
    exact Cursor.lt_iff.2 ⟨Cursor.le_of_next? hc, Cursor.left_lt_of_next? hc⟩
  | case4 depth c a e hc ha hb hdepth h1 => simp at h
  | case5 depth c a e hc ha hb hdepth ih => exact (Cursor.le_of_next? hc).trans_lt (ih h)
  | case6 depth c a e hc ha hb ih => exact (Cursor.le_of_next? hc).trans_lt (ih h)

theorem blocks_spread {start : Pattern} {scan : Scan} {opening closing : Char} {whole c : Cursor}
    {hits : List Hit} (h : blocks start scan opening closing whole c = .ok hits) : Spread c hits := by
  fun_induction blocks start scan opening closing whole c generalizing hits with
  | case1 c hm =>
    simp only [Except.ok.injEq] at h
    exact h ▸ .nil
  | case2 c m hm body hend => simp at h
  | case3 c m hm body hopen stop hend hlt =>
    rename_i ih
    obtain ⟨rest, hrest, rfl⟩ := Except.map_eq_ok.1 h
    obtain ⟨hc, hle⟩ := find?_le hm
    have hbody : m.start ≤ body := hle.trans (Cursor.le_skipWhile _ _)
    exact .cons hc (hbody.trans_lt (balancedEnd_lt hend)) (ih hrest)
  | case4 c m hm body hopen stop hend =>
    simp only [Except.ok.injEq] at h
    exact h ▸ .nil
  | case5 c m hm body hopen behind =>
    simp only [Except.ok.injEq] at h
    exact h ▸ .nil
  | case6 c m hm body hopen behind d hbehind hlt =>
    rename_i ih
    refine (ih h).of_le ?_
    obtain ⟨hc, hle⟩ := find?_le hm
    refine (hc.trans hle).trans ?_
    revert hbehind
    simp only [behind]
    split
    · intro hd
      simp only [Option.map_eq_some_iff] at hd
      obtain ⟨⟨a, e⟩, he, rfl⟩ := hd
      exact Cursor.le_of_next? he
    · intro hd
      simp only [Option.some.injEq] at hd
      exact hd ▸ le_refl _
  | case7 c m hm body hopen behind d hbehind =>
    simp only [Except.ok.injEq] at h
    exact h ▸ .nil

/-! ## Marked pieces -/

section Marked

variable {start : Pattern} {starts stops : Scan} {c : Cursor} {h : Hit}

theorem nextMarked?_eq_some (hh : nextMarked? start starts stops c = some h) :
    ∃ m tail, starts.find? c = some m ∧ stops.find? m.stop = some tail ∧
      h = Hit.extending start m tail.stop := by
  simp only [nextMarked?, Option.bind_eq_some_iff, Option.map_eq_some_iff] at hh
  obtain ⟨m, hm, tail, htail, rfl⟩ := hh
  exact ⟨m, tail, hm, htail, rfl⟩

theorem nextMarked?_le (hh : nextMarked? start starts stops c = some h) :
    c ≤ h.start ∧ h.start ≤ h.stop := by
  obtain ⟨m, tail, hm, htail, rfl⟩ := nextMarked?_eq_some hh
  obtain ⟨hc, hle⟩ := find?_le hm
  obtain ⟨htail, hstop⟩ := find?_le htail
  exact ⟨hc, hle.trans (htail.trans hstop)⟩

/-- **An empty piece comes again**: the search that goes on where it ends finds it once more. -/
theorem nextMarked?_of_empty (heven : starts.starts.Even) (hh : nextMarked? start starts stops c = some h)
    (hempty : h.start = h.stop) : nextMarked? start starts stops h.stop = some h := by
  obtain ⟨m, tail, hm, htail, rfl⟩ := nextMarked?_eq_some hh
  have hstart : m.start = tail.stop := hempty
  have hagain : starts.find? tail.stop = some m := hstart ▸ find?_start heven hm
  simp [nextMarked?, hagain, htail, Hit.extending]

theorem markedPieces_spread (heven : starts.starts.Even) {hits : List Hit}
    (hok : markedPieces start starts stops c = .ok hits) : Spread c hits := by
  fun_induction markedPieces start starts stops c generalizing hits with
  | case1 c hh =>
    simp only [Except.ok.injEq] at hok
    exact hok ▸ .nil
  | case2 c h hh hlt ih =>
    obtain ⟨rest, hrest, rfl⟩ := Except.map_eq_ok.1 hok
    obtain ⟨hc, hle⟩ := nextMarked?_le hh
    refine .cons hc (lt_of_le_of_ne hle fun hempty => ?_) (ih hrest)
    have hagain := nextMarked?_of_empty heven hh hempty
    rw [markedPieces, hagain] at hrest
    simp at hrest
  | case3 c h hh hlt => simp at hok

end Marked

/-- **Hits lie one behind the other, and none is empty**, for every matcher and every text. -/
theorem findAll_spread {m : Matcher} {text : List Char} {hits : List Hit}
    (h : m.findAll text = .ok hits) : Spread (.start text) hits := by
  cases m with
  | literal needle =>
    simp only [findAll, Except.ok.injEq] at h
    exact h ▸ occurrences_spread _ _
  | regex p => exact regexHits_spread h
  | block start opening closing => exact blocks_spread h
  | marked start stop => exact markedPieces_spread (scan_even start text) h

end Matcher

end Codemod
