/-
Replacing files again and again. What comes of it differs from the disk at first in nothing but the directories
of these files (`Beside.replaces`), if no link has the name of a second file: all ways stay as they are, and
what another directory holds does too.
-/
import Codemod.Proofs.Run.Replace

namespace Codemod

open Disk Node Codemod.Path

namespace Disk

variable {d e : Disk} {listed more : Location → Prop} {p q : Path} {loc : Location} {x : String}

/-- What comes of replacing some files, any number of times and in any order. -/
inductive Replaces (ps : List Path) (d : Disk) : Disk → Prop
  | refl : Replaces ps d d
  | step {e : Disk} {p : Path} (b : ByteArray) :
      Replaces ps d e → p ∈ ps → Replaces ps d (e.replaceFile p b).2

/-- Disks that differ in nothing but files and devices in some directories. -/
def Beside (listed : Location → Prop) (d e : Disk) : Prop :=
  ∃ places, d.AgreeBut e places ∧ ∀ loc ∈ places, listed loc.dropLast

/-- A file in one of these directories that can be replaced without a link being followed. -/
inductive Within (listed : Location → Prop) (d : Disk) : Path → Prop
  | file {p : Path} {loc : Location} {x : String} : listed loc → d.LeadsTo p loc → IsName x →
      (∃ c k, d.root.get? (loc ++ [x]) = some (.file c k)) →
      (∀ t, d.root.get? (loc ++ [tempName x]) ≠ some (.link t)) → Within listed d (p.join ⟨x⟩)

namespace Beside

theorem refl (listed : Location → Prop) (d : Disk) : Beside listed d d :=
  ⟨[], .refl d [], by simp⟩

theorem mono (h : Beside listed d e) (hsub : ∀ m, listed m → more m) : Beside more d e := by
  obtain ⟨places, hagree, hplaces⟩ := h
  exact ⟨places, hagree, fun loc hloc => hsub _ (hplaces loc hloc)⟩

theorem replaceFile (h : Beside listed d e) (hq : Within listed d q) (b : ByteArray) :
    Beside listed d (e.replaceFile q b).2 := by
  obtain ⟨places, hagree, hplaces⟩ := h
  obtain @⟨p, loc, x, hlisted, hlead, hx, ⟨c, k, hfile⟩, htemp⟩ := hq
  have hlead' := hagree.leadsTo hlead
  obtain ⟨mode, es, hdir⟩ := hlead'.get?
  cases hn : Entries.get? x es with
  | none =>
    obtain ⟨err, hfind⟩ := find_join_free hlead' hx hdir hn true
    refine ⟨places, ?_, hplaces⟩
    rw [Disk.replaceFile, stat, hfind]
    exact hagree
  | some n =>
    obtain ⟨m, hm, _, hkind⟩ := hagree.exists_before ((get?_concat hdir x).trans hn)
    obtain rfl := Option.some.inj (hfile.symm.trans hm)
    cases n with
    | link | full | dir => simp [Node.isFile] at hkind
    | file c' k' =>
      have hlink (t : String) : Entries.get? (tempName x) es ≠ some (.link t) := by
        rw [← get?_concat hdir]
        exact fun h => htemp t (hagree.ways.symm.link h)
      refine ⟨places ++ [loc ++ [tempName x], loc ++ [x]],
        hagree.trans (replaceFile_elsewhere hlead' hx hdir hn hlink), ?_⟩
      simp only [List.mem_append, List.mem_cons, List.not_mem_nil, or_false]
      rintro m (hm | rfl | rfl)
      · exact hplaces m hm
      · simpa using hlisted
      · simpa using hlisted

theorem replaces {ps : List Path} {f : Disk} (h : Beside listed d e) (hps : ∀ p ∈ ps, Within listed d p)
    (hf : Replaces ps e f) : Beside listed d f := by
  induction hf with
  | refl => exact h
  | step b _ hmem ih => exact ih.replaceFile (hps _ hmem) b

theorem leadsTo (h : Beside listed d e) (hlead : d.LeadsTo p loc) : e.LeadsTo p loc := by
  obtain ⟨places, hagree, _⟩ := h
  exact hagree.leadsTo hlead

/-- What is in another directory is as it was. -/
theorem at?_eq (h : Beside listed d e) (hloc : ¬ listed loc) (x : String) :
    e.root.at? (loc ++ [x]) = d.root.at? (loc ++ [x]) := by
  obtain ⟨places, hagree, hplaces⟩ := h
  refine hagree.at?_eq _ fun hmem => hloc ?_
  simpa using hplaces _ hmem

end Beside

theorem Within.mono (h : Within listed d p) (hsub : ∀ m, listed m → more m) : Within more d p := by
  obtain ⟨hlisted, hlead, hx, hfile, htemp⟩ := h
  exact .file (hsub _ hlisted) hlead hx hfile htemp

end Disk

end Codemod
