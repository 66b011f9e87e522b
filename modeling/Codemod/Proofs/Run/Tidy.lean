/-
Trees in which nothing is in the way of a run: their names can be spelled in a path, and no name is that
of the second file of a file beside it. Both are matters of one directory at a time (`tidy_dir`), and stay
as they are when files go (`Shrinks.wellNamed`, `Shrinks.tempFree`).
-/
import Codemod.Proofs.Run.Rewrite

namespace Codemod

open Disk Node

instance (s : String) : Decidable (IsName s) :=
  decidable_of_iff (s ≠ "" ∧ s ≠ "." ∧ s ≠ ".." ∧ '/' ∉ s.toList)
    ⟨fun ⟨h1, h2, h3, h4⟩ => ⟨h1, h2, h3, h4⟩, fun ⟨h1, h2, h3, h4⟩ => ⟨h1, h2, h3, h4⟩⟩

variable {d e : Disk} {n : Node} {mode : Nat} {es : Entries}

namespace Disk

/-- No name is taken that the second file of a file would have. -/
def TempFree (d : Disk) : Prop := ∀ loc x c k, d.root.get? (loc ++ [x]) = some (.file c k) →
  d.root.get? (loc ++ [tempName x]) = none

/-- Things may be gone, and nothing else has changed. -/
def Shrinks (d e : Disk) : Prop :=
  ∀ loc, e.root.at? loc = none ∨ e.root.at? loc = d.root.at? loc

namespace Shrinks

theorem of_agreeBut {ps : List Location} (h : d.AgreeBut e ps)
    (hgone : ∀ loc ∈ ps, e.root.at? loc = none) : d.Shrinks e := fun loc => by
  by_cases hmem : loc ∈ ps
  · exact .inl (hgone loc hmem)
  · exact .inr (h.at?_eq loc hmem)

/-- A file that is there was there before. -/
theorem file (h : d.Shrinks e) {loc : Location} {c : ByteArray} {k : Nat}
    (hfile : e.root.get? loc = some (.file c k)) : d.root.get? loc = some (.file c k) := by
  rw [← at?_eq_file] at hfile ⊢
  rcases h loc with hnone | hsame
  · rw [hnone] at hfile
    cases hfile
  · rw [← hsame, hfile]

theorem get?_eq_none (h : d.Shrinks e) {loc : Location} (hnone : d.root.get? loc = none) :
    e.root.get? loc = none := by
  rw [← at?_eq_none] at hnone ⊢
  rcases h loc with h | h
  · exact h
  · rw [h, hnone]

theorem wellNamed (h : d.Shrinks e) (hd : d.WellNamed) : e.WellNamed := by
  intro loc n hn
  cases hget : d.root.get? loc with
  | none => simp [h.get?_eq_none hget] at hn
  | some m => exact hd loc m hget

theorem tempFree (h : d.Shrinks e) (hd : d.TempFree) : e.TempFree := by
  intro loc x c k hfile
  exact h.get?_eq_none (hd loc x c k (h.file hfile))

end Shrinks

end Disk

/-! ## One directory at a time -/

/-- A tree in which nothing is in the way of a run. -/
structure Disk.Node.Tidy (n : Node) : Prop where
  named : ∀ loc m, n.get? loc = some m → ∀ s ∈ loc, IsName s
  free : ∀ loc x c k, n.get? (loc ++ [x]) = some (.file c k) → n.get? (loc ++ [tempName x]) = none

namespace Disk

theorem mem_of_get? {x : String} (h : Entries.get? x es = some n) : (x, n) ∈ es := by
  obtain ⟨⟨y, m⟩, hfind, rfl⟩ := Option.map_eq_some_iff.1 h
  obtain rfl : y = x := by simpa using List.find?_some hfind
  exact List.mem_of_find?_eq_some hfind

theorem tidy_leaf (h : n.isDir = false) : n.Tidy := by
  have hnone (x : String) (rest : Location) : n.get? (x :: rest) = none :=
    get?_below_leaf (get?_nil n) h x rest
  refine ⟨fun loc m hm => ?_, fun loc x c k hfile => ?_⟩
  · cases loc with
    | nil => simp
    | cons x rest => simp [hnone] at hm
  · cases loc with
    | nil => exact hnone _ _
    | cons y rest => exact hnone _ _

/-- **A directory is tidy if its names are and what has these names is.** -/
theorem tidy_dir (hes : ∀ e ∈ es, IsName e.1 ∧ e.2.Tidy)
    (hfree : ∀ e ∈ es, ∀ f ∈ es, f.1 ≠ tempName e.1) : (Node.dir mode es).Tidy := by
  have hbelow {x : String} {rest : Location} {m : Node}
      (hm : (Node.dir mode es).get? (x :: rest) = some m) :
      ∃ n, (x, n) ∈ es ∧ n.get? rest = some m := by
    obtain ⟨n, hn, hm⟩ := Option.bind_eq_some_iff.1 hm
    exact ⟨n, mem_of_get? hn, hm⟩
  refine ⟨fun loc m hm => ?_, fun loc x c k hfile => ?_⟩
  · cases loc with
    | nil => simp
    | cons x rest =>
      obtain ⟨n, hmem, hm⟩ := hbelow hm
      rw [List.forall_mem_cons]
      exact ⟨(hes _ hmem).1, (hes _ hmem).2.named rest m hm⟩
  · rw [← Option.not_isSome_iff_eq_none, Option.isSome_iff_exists]
    rintro ⟨m, hm⟩
    cases loc with
    | nil =>
      obtain ⟨n, hmem, -⟩ := hbelow hfile
      obtain ⟨n', hmem', -⟩ := hbelow hm
      exact hfree _ hmem _ hmem' rfl
    | cons y rest =>
      obtain ⟨n, hmem, hm'⟩ := Option.bind_eq_some_iff.1 hm
      obtain ⟨n', hmem', hfile'⟩ := Option.bind_eq_some_iff.1 hfile
      obtain rfl := Option.some.inj (hmem.symm.trans hmem')
      simp [(hes _ (mem_of_get? hmem)).2.free rest x c k hfile'] at hm'

end Disk

end Codemod
