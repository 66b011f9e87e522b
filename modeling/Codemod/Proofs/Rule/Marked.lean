/-
When the search for marked pieces comes to an end. Its rounds are followed one by one (`Rounds`), with
no look at whether they move on: the search ends if some round finds nothing. An empty piece is what
keeps it from ending, since the next round finds it again, and nothing else does
(`marked_ends_iff`). Two word boundaries as marks are accepted, and find such a piece
(`boundary_marks_endless`).
-/
import Codemod.Proofs.Rule.Hits

namespace Codemod.Matcher

open Text Pattern

/-- Rounds of a search from a place on: what they find, and the place where the search goes on. -/
inductive Rounds (start : Pattern) (starts stops : Scan) : Cursor → List Hit → Cursor → Prop
  | nil {c : Cursor} : Rounds start starts stops c [] c
  | cons {c d : Cursor} {h : Hit} {hits : List Hit} : nextMarked? start starts stops c = some h →
      Rounds start starts stops h.stop hits d → Rounds start starts stops c (h :: hits) d

/-- The search from a place on comes to an end: after so many pieces, a round finds nothing. -/
def Ends (start : Pattern) (starts stops : Scan) (c : Cursor) (hits : List Hit) : Prop :=
  ∃ d, Rounds start starts stops c hits d ∧ nextMarked? start starts stops d = none

section Ends

variable {start : Pattern} {starts stops : Scan} {c d : Cursor} {h : Hit} {hits : List Hit}

/-- A round that does not move on has found an empty piece at its own place. -/
theorem eq_of_not_lt (hh : nextMarked? start starts stops c = some h)
    (hlt : ¬ h.stop.left < c.left) : h.start = c ∧ h.stop = c := by
  obtain ⟨hc, hle⟩ := nextMarked?_le hh
  have h1 := Cursor.left_le_of_le hc
  have h2 := Cursor.left_le_of_le hle
  exact ⟨(Cursor.eq_of_left_eq (le_refl c) hc (by omega)).symm,
    (Cursor.eq_of_left_eq (le_refl c) (hc.trans hle) (by omega)).symm⟩

theorem markedPieces_of_none (hh : nextMarked? start starts stops c = none) :
    markedPieces start starts stops c = .ok [] := by
  rw [markedPieces, hh]

theorem markedPieces_of_stuck (hh : nextMarked? start starts stops c = some h)
    (hlt : ¬ h.stop.left < c.left) : markedPieces start starts stops c = .error .endless := by
  rw [markedPieces, hh]
  exact if_neg hlt

theorem markedPieces_of_lt (hh : nextMarked? start starts stops c = some h)
    (hlt : h.stop.left < c.left) : markedPieces start starts stops c =
      (markedPieces start starts stops h.stop).map (h :: ·) := by
  rw [markedPieces, hh]
  exact if_pos hlt

/-- What the search gives is what its rounds find, if they come to an end. -/
theorem markedPieces_ok_iff :
    markedPieces start starts stops c = .ok hits ↔ Ends start starts stops c hits := by
  constructor
  · intro hok
    fun_induction markedPieces start starts stops c generalizing hits with
    | case1 c hh =>
      simp only [Except.ok.injEq] at hok
      exact ⟨c, hok ▸ .nil, hh⟩
    | case2 c h hh hlt ih =>
      obtain ⟨rest, hrest, rfl⟩ := Except.map_eq_ok.1 hok
      obtain ⟨d, hrounds, hd⟩ := ih hrest
      exact ⟨d, .cons hh hrounds, hd⟩
    | case3 c h hh hlt => simp at hok
  · rintro ⟨d, hrounds, hd⟩
    induction hrounds with
    | nil => exact markedPieces_of_none hd
    | @cons c d h hits hh _ ih =>
      have hrest := ih hd
      by_cases hlt : h.stop.left < c.left
      · rw [markedPieces_of_lt hh hlt, hrest]
        rfl
      · -- the next round would find the same, so the rest could not have ended
        obtain ⟨-, hstop⟩ := eq_of_not_lt hh hlt
        rw [hstop, markedPieces_of_stuck hh hlt] at hrest
        cases hrest

variable (start starts stops) in
/-- A search that does not give its pieces has met an empty one. -/
theorem markedPieces_cases (c : Cursor) :
    (∃ hits, markedPieces start starts stops c = .ok hits) ∨
    markedPieces start starts stops c = .error .endless ∧
      ∃ hits d h, Rounds start starts stops c hits d ∧
        nextMarked? start starts stops d = some h ∧ h.start = h.stop := by
  fun_induction markedPieces start starts stops c with
  | case1 c hh => exact .inl ⟨[], rfl⟩
  | case2 c h hh hlt ih =>
    rcases ih with ⟨hits, hok⟩ | ⟨herr, hits, d, k, hrounds, hk, hempty⟩
    · exact .inl ⟨h :: hits, by rw [hok]; rfl⟩
    · exact .inr ⟨by rw [herr]; rfl, h :: hits, d, k, .cons hh hrounds, hk, hempty⟩
  | case3 c h hh hlt =>
    obtain ⟨hstart, hstop⟩ := eq_of_not_lt hh hlt
    exact .inr ⟨rfl, [], c, h, .nil, hh, hstart.trans hstop.symm⟩

/-- The rest of a search that gives its pieces gives the rest of them. -/
theorem markedPieces_rest {found : List Hit} (hrounds : Rounds start starts stops c found d)
    (hok : markedPieces start starts stops c = .ok hits) :
    ∃ rest, markedPieces start starts stops d = .ok rest := by
  induction hrounds generalizing hits with
  | nil => exact ⟨hits, hok⟩
  | @cons c d h found hh _ ih =>
    by_cases hlt : h.stop.left < c.left
    · rw [markedPieces_of_lt hh hlt] at hok
      obtain ⟨rest, hrest, -⟩ := Except.map_eq_ok.1 hok
      exact ih hrest
    · rw [markedPieces_of_stuck hh hlt] at hok
      cases hok

/-- A round of a search that gives its pieces moves on, and what it finds is not empty. -/
theorem round_moves (heven : starts.starts.Even) {found : List Hit}
    (hrounds : Rounds start starts stops c found d) (hh : nextMarked? start starts stops d = some h)
    (hok : markedPieces start starts stops c = .ok hits) : d < h.stop ∧ h.start < h.stop := by
  obtain ⟨rest, hrest⟩ := markedPieces_rest hrounds hok
  have hspread := markedPieces_spread heven hrest
  by_cases hlt : h.stop.left < d.left
  · rw [markedPieces_of_lt hh hlt] at hrest
    obtain ⟨rest, -, rfl⟩ := Except.map_eq_ok.1 hrest
    cases hspread with
    | cons hd hne _ => exact ⟨hd.trans_lt hne, hne⟩
  · rw [markedPieces_of_stuck hh hlt] at hrest
    cases hrest

/-- From an empty piece on, a search makes any number of rounds and finds nothing else. -/
theorem rounds_of_empty (heven : starts.starts.Even)
    (hh : nextMarked? start starts stops c = some h) (hempty : h.start = h.stop) :
    ∀ n, Rounds start starts stops h.stop (List.replicate n h) h.stop
  | 0 => .nil
  | n + 1 => .cons (nextMarked?_of_empty heven hh hempty) (rounds_of_empty heven hh hempty n)

end Ends

/-- **A search for marked pieces ends exactly if no round of it finds an empty piece.** If it ends,
the matcher gives what it has found, none of that is empty, and every round of it has moved on. If it
does not, the matcher says so; the rounds from the empty piece on find that piece again and again. -/
theorem marked_ends_iff (start stop : Pattern) (text : List Char) :
    let starts := start.scan text
    let stops := stop.scan text
    ((∃ hits, Ends start starts stops (.start text) hits) ↔
      ∀ found c h, Rounds start starts stops (.start text) found c →
        nextMarked? start starts stops c = some h → h.start ≠ h.stop) ∧
    (∀ hits, Ends start starts stops (.start text) hits →
      (marked start stop).findAll text = .ok hits ∧
      (∀ h ∈ hits, h.start.offset < h.stop.offset) ∧
      ∀ found c h, Rounds start starts stops (.start text) found c →
        nextMarked? start starts stops c = some h → c.offset < h.stop.offset) ∧
    ((¬ ∃ hits, Ends start starts stops (.start text) hits) →
      (marked start stop).findAll text = .error .endless) ∧
    ∀ c h, nextMarked? start starts stops c = some h → h.start = h.stop →
      ∀ n, Rounds start starts stops h.stop (List.replicate n h) h.stop := by
  intro starts stops
  have heven : starts.starts.Even := scan_even start text
  have hcases := markedPieces_cases start starts stops (.start text)
  refine ⟨⟨?_, ?_⟩, ?_, ?_, fun c h hh hempty => rounds_of_empty heven hh hempty⟩
  · rintro ⟨hits, hends⟩ found c h hrounds hh
    exact (round_moves heven hrounds hh (markedPieces_ok_iff.2 hends)).2.ne
  · intro hnonempty
    rcases hcases with ⟨hits, hok⟩ | ⟨-, found, c, h, hrounds, hh, hempty⟩
    · exact ⟨hits, markedPieces_ok_iff.1 hok⟩
    · exact absurd hempty (hnonempty found c h hrounds hh)
  · intro hits hends
    have hok := markedPieces_ok_iff.2 hends
    refine ⟨hok, (markedPieces_spread heven hok).nonempty, fun found c h hrounds hh => ?_⟩
    exact Cursor.offset_lt_of_lt (round_moves heven hrounds hh hok).1
  · intro hnot
    rcases hcases with ⟨hits, hok⟩ | ⟨herr, -⟩
    · exact absurd ⟨hits, markedPieces_ok_iff.1 hok⟩ hnot
    · exact herr

/-- The boundaries of words of ASCII characters. -/
def asciiBoundary : Pattern := ⟨"(?-u:\\b)", .look (.wordBoundary false), []⟩

/-- Word boundaries are accepted as marks, and in the text `a` the search for them has no end: every
round finds the empty piece at its start. -/
theorem boundary_marks_endless :
    marked? "(?-u:\\b)" "(?-u:\\b)" {} = .ok (.marked asciiBoundary asciiBoundary) ∧
    (∀ n, ∃ found, found.length = n ∧ Rounds asciiBoundary (asciiBoundary.scan ['a'])
      (asciiBoundary.scan ['a']) (.start ['a']) found (.start ['a'])) ∧
    ¬ ∃ hits, Ends asciiBoundary (asciiBoundary.scan ['a']) (asciiBoundary.scan ['a'])
      (.start ['a']) hits := by
  have hh : nextMarked? asciiBoundary (asciiBoundary.scan ['a']) (asciiBoundary.scan ['a'])
      (.start ['a']) = some (.extending asciiBoundary ⟨.start ['a'], .start ['a'], []⟩ (.start ['a'])) := by
    have hfind : (asciiBoundary.scan ['a']).find? (.start ['a']) = some ⟨.start ['a'], .start ['a'], []⟩ :=
      find?_look (le_refl _) (startsWord (isWord_ascii ⟨(0x61, 0x7A), by decide, by decide⟩))
    rw [nextMarked?, hfind, Option.bind_some, hfind, Option.map_some]
  refine ⟨by with_unfolding_all rfl, fun n => ?_, ?_⟩
  · exact ⟨_, List.length_replicate, rounds_of_empty (scan_even _ _) hh rfl n⟩
  · rintro ⟨hits, hends⟩
    have hok := markedPieces_ok_iff.2 hends
    rw [markedPieces_of_stuck hh (Nat.lt_irrefl _)] at hok
    cases hok

end Codemod.Matcher
