/-
Where marked pieces begin and end. A piece goes from the next start to the nearest end behind it, and the search
is over at a start behind which no end begins. It may stop there, since none begins behind a later start either
(`nextMarked?_none_iff`). So the pieces it gives are exactly those of a reading of the text from left to right
(`marked_findAll_iff`).
-/
import Codemod.Proofs.Rule.Marked

namespace Codemod.Matcher

open Text Pattern

/-- No match begins at the end of another or behind it. -/
def Unended (stops : Scan) (m : Match) : Prop := ∀ tail, stops.Begins tail → ¬ m.stop ≤ tail.start

/-- Pieces from a place on. Each goes from the next start to the nearest end behind it, and the next start behind
the last of them has no end, nor has any that begins behind that start. -/
inductive Nearest (start : Pattern) (starts stops : Scan) : Cursor → List Hit → Prop
  | piece {c : Cursor} {m tail : Match} {hits : List Hit} : starts.Next c m → stops.Next m.stop tail →
      Nearest start starts stops tail.stop hits →
      Nearest start starts stops c (Hit.extending start m tail.stop :: hits)
  | last {c : Cursor} : (∀ m, starts.Next c m →
        Unended stops m ∧ ∀ m', starts.Begins m' → m.stop ≤ m'.start → Unended stops m') →
      Nearest start starts stops c []

section

variable {start : Pattern} {starts stops : Scan} (hstarts : starts.starts.Even) (hstops : stops.starts.Even)
  {c : Cursor} {h : Hit} {hits : List Hit}
include hstarts hstops

theorem nextMarked?_some_iff : nextMarked? start starts stops c = some h ↔
    ∃ m tail, starts.Next c m ∧ stops.Next m.stop tail ∧ h = Hit.extending start m tail.stop := by
  constructor
  · intro hh
    obtain ⟨m, tail, hm, htail, rfl⟩ := nextMarked?_eq_some hh
    exact ⟨m, tail, (find?_some_iff hstarts).1 hm, (find?_some_iff hstops).1 htail, rfl⟩
  · rintro ⟨m, tail, hm, htail, rfl⟩
    rw [nextMarked?, (find?_some_iff hstarts).2 hm, Option.bind_some, (find?_some_iff hstops).2 htail,
      Option.map_some]

/-- **A start without an end is the last one**: what begins behind it has no end either. -/
theorem nextMarked?_none_iff : nextMarked? start starts stops c = none ↔ ∀ m, starts.Next c m →
    Unended stops m ∧ ∀ m', starts.Begins m' → m.stop ≤ m'.start → Unended stops m' := by
  constructor
  · intro hnone m hm
    rw [nextMarked?, (find?_some_iff hstarts).2 hm, Option.bind_some, Option.map_eq_none_iff,
      find?_none_iff hstops] at hnone
    refine ⟨hnone, fun m' hm' hle tail htail hbehind => hnone tail htail ?_⟩
    exact hle.trans ((find?_le hm').2.trans hbehind)
  · intro hall
    rw [Option.eq_none_iff_forall_ne_some]
    intro h hh
    obtain ⟨m, tail, hm, htail, -⟩ := (nextMarked?_some_iff hstarts hstops).1 hh
    exact (hall m hm).1 tail htail.begins htail.le

/-- The rounds of a search that comes to an end find the nearest pieces. -/
theorem ends_iff_nearest : Ends start starts stops c hits ↔ Nearest start starts stops c hits := by
  constructor
  · rintro ⟨d, hrounds, hend⟩
    induction hrounds with
    | nil => exact .last ((nextMarked?_none_iff hstarts hstops).1 hend)
    | cons hh _ ih =>
      obtain ⟨m, tail, hm, htail, rfl⟩ := (nextMarked?_some_iff hstarts hstops).1 hh
      exact .piece hm htail (ih hend)
  · intro hnearest
    induction hnearest with
    | piece hm htail _ ih =>
      obtain ⟨d, hrounds, hend⟩ := ih
      exact ⟨d, .cons ((nextMarked?_some_iff hstarts hstops).2 ⟨_, _, hm, htail, rfl⟩) hrounds, hend⟩
    | last hall => exact ⟨_, .nil, (nextMarked?_none_iff hstarts hstops).2 hall⟩

end

/-- **Marked pieces stop at the nearest end.** A search gives some pieces exactly if each of them goes from the next
start behind the piece before to the nearest end behind that start, and no start that is left has an end. -/
theorem marked_findAll_iff (start stop : Pattern) (text : List Char) (hits : List Hit) :
    (marked start stop).findAll text = .ok hits ↔
      Nearest start (start.scan text) (stop.scan text) (.start text) hits :=
  markedPieces_ok_iff.trans (ends_iff_nearest (scan_even start text) (scan_even stop text))

end Codemod.Matcher
