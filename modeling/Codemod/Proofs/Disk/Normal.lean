/-
Paths freed of `.` and `..` by their text alone. What is left of an absolute path is the root and the names of the
place that its components lead to (`components_normalize`), and nothing is left to be freed of
(`normalize_normalize`). As one goes on from that place as from the path itself, a relative path may be joined before
or afterwards (`normalize_join`).
-/
import Codemod.Proofs.Disk.Joined

namespace Codemod.Path

open Disk

variable {p q : Path}

theorem components_normalize (hp : p.isAbsolute = true) :
    p.normalize.components = .root :: (p.components.foldl goFrom []).map .name := by
  rw [normalize_eq hp, components_pathOf (names_of_absolute hp)]

theorem isAbsolute_normalize (hp : p.isAbsolute = true) : p.normalize.isAbsolute = true := by
  rw [normalize_eq hp]
  exact isAbsolute_pathOf

/-- What is left of a path leads where the path leads. -/
theorem foldl_goFrom_normalize (hp : p.isAbsolute = true) :
    p.normalize.components.foldl goFrom [] = p.components.foldl goFrom [] := by
  rw [components_normalize hp, List.foldl_cons, goFrom, foldl_goFrom_names, List.nil_append]

theorem normalize_normalize (hp : p.isAbsolute = true) : p.normalize.normalize = p.normalize := by
  rw [normalize_eq (isAbsolute_normalize hp), foldl_goFrom_normalize hp, ← normalize_eq hp]

/-- Behind an absolute path, a relative one goes on from the place that it leads to. -/
theorem foldl_goFrom_join (hp : p.isAbsolute = true) (hq : q.isAbsolute = false) (l : Location) :
    (p.join q).components.foldl goFrom l = q.components.foldl goFrom (p.components.foldl goFrom l) := by
  have hfirst (m : Location) :
      (if startsHere q.text.toList = true then [Component.here] else []).foldl goFrom m = m := by
    split <;> rfl
  rw [components_join_absolute hp hq, List.foldl_append, components.eq_def q, hq]
  simp only [Bool.false_eq_true, if_false, List.foldl_append, hfirst]

theorem normalize_join_eq (hp : p.isAbsolute = true) (hq : q.isAbsolute = false) :
    (p.join q).normalize = pathOf ((p.components ++ q.components).foldl goFrom []) := by
  rw [normalize_eq (isAbsolute_join_relative hp hq), foldl_goFrom_join hp hq, List.foldl_append]

/-- A path is resolved by its text where it leads to nothing; a relative one is seen from the working directory. -/
theorem absolute_eq_normalize {d : Disk} {err : OsError} (hp : p.isAbsolute = true)
    (hq : q.isAbsolute = false) (h : d.canonical (p.join q) = .error err) :
    d.absolute (p.join q) = (p.join q).normalize ∧ (d.here = p → d.absolute q = (p.join q).normalize) := by
  have hself : d.here.join (p.join q) = p.join q := if_pos (isAbsolute_join_relative hp hq)
  refine ⟨?_, fun hhere => ?_⟩
  · rw [absolute, hself, h]
  · rw [absolute, hhere, h]

/-- **Resolving a joined path by its text.** Where such a path leads to nothing, it is resolved to an absolute path
that has neither `.` nor `..` in it and that is resolved to itself. This spells the place that the components of both
paths lead to, one by one, where `..` at the root stays at the root; and it is the same if the path in front has been
resolved before. -/
theorem normalize_join (hp : p.isAbsolute = true) (hq : q.isAbsolute = false) :
    (∀ (d : Disk) (err : OsError), d.canonical (p.join q) = .error err →
      d.absolute (p.join q) = (p.join q).normalize ∧ (d.here = p → d.absolute q = (p.join q).normalize))
    ∧ (p.join q).normalize.isAbsolute = true
    ∧ (∀ c ∈ (p.join q).normalize.components, c ≠ .here ∧ c ≠ .up)
    ∧ (p.join q).normalize = pathOf ((p.components ++ q.components).foldl goFrom [])
    ∧ (p.normalize = ⟨"/"⟩ → ((p.join ⟨".."⟩).join q).normalize = (p.join q).normalize)
    ∧ (p.join q).normalize.normalize = (p.join q).normalize
    ∧ (p.join q).normalize = (p.normalize.join q).normalize := by
  have hjoin := isAbsolute_join_relative hp hq
  have hup : (⟨".."⟩ : Path).isAbsolute = false := by decide
  refine ⟨fun d err => absolute_eq_normalize hp hq, isAbsolute_normalize hjoin, ?_, normalize_join_eq hp hq, ?_,
    normalize_normalize hjoin, ?_⟩
  · intro c hc
    rw [components_normalize hjoin, List.mem_cons, List.mem_map] at hc
    obtain rfl | ⟨s, -, rfl⟩ := hc <;> simp
  · intro hroot
    -- The path in front leads to the root, so that going up from there comes to the root again.
    have hplace : p.components.foldl goFrom [] = [] := by
      rw [← foldl_goFrom_normalize hp, hroot]
      decide
    have hcomponents : (⟨".."⟩ : Path).components = [.up] := by decide
    rw [normalize_join_eq (isAbsolute_join_relative hp hup) hq, normalize_join_eq hp hq, List.foldl_append,
      List.foldl_append, foldl_goFrom_join hp hup, hplace, hcomponents]
    rfl
  · rw [normalize_join_eq hp hq, normalize_join_eq (isAbsolute_normalize hp) hq, List.foldl_append,
      List.foldl_append, foldl_goFrom_normalize hp]

/-- More steps up than there are names to leave. -/
theorem normalize_join_above : (⟨"/a//./b/"⟩ : Path).isAbsolute = true
    ∧ (⟨"./../../../c/./d//..//"⟩ : Path).isAbsolute = false
    ∧ ((⟨"/a//./b/"⟩ : Path).join ⟨"./../../../c/./d//..//"⟩).normalize = ⟨"/c"⟩
    ∧ ((⟨"/a//./b/"⟩ : Path).normalize.join ⟨"./../../../c/./d//..//"⟩).normalize = ⟨"/c"⟩ := by
  have hp : (⟨"/a//./b/"⟩ : Path).isAbsolute = true := by decide
  have hq : (⟨"./../../../c/./d//..//"⟩ : Path).isAbsolute = false := by decide
  obtain ⟨-, -, -, hplace, -, -, hsame⟩ := normalize_join hp hq
  have hshort : ((⟨"/a//./b/"⟩ : Path).join ⟨"./../../../c/./d//..//"⟩).normalize = ⟨"/c"⟩ := by
    rw [hplace]
    decide
  exact ⟨hp, hq, hshort, hsame ▸ hshort⟩

end Codemod.Path
