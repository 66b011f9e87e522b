/-
Following a path that has no links on its way. It leads down, name by name, to the location that its names
spell (`spelled`), and so two disks that are the same along that way answer alike (`find_along`), whatever
else has come or gone.
-/
import Codemod.Proofs.Disk.Kinds

namespace Codemod.Disk

open Node Codemod.Path

/-- Two trees that are the same on the way to a location, where there are no links. -/
structure SameAlong (r s : Node) (loc : Location) : Prop where
  at?_eq : ∀ l, l <+: loc → s.at? l = r.at? l
  unlinked : ∀ l t, l <+: loc → r.get? l ≠ some (.link t)

variable {r s : Node} {loc here l : Location} {follow : Bool} {links : Nat} {ps : List String}
  {n : Node} {d e : Disk} {p : Path}

namespace SameAlong

theorem mono (h : SameAlong r s loc) (hl : l <+: loc) : SameAlong r s l :=
  ⟨fun _ hp => h.at?_eq _ (hp.trans hl), fun _ t hp => h.unlinked _ t (hp.trans hl)⟩

theorem get?_eq_none (h : SameAlong r s loc) (hl : l <+: loc) (hnone : r.get? l = none) :
    s.get? l = none := by
  rw [← at?_eq_none, h.at?_eq l hl, at?_eq_none.2 hnone]

theorem exists_node (h : SameAlong r s loc) (hl : l <+: loc) (hn : r.get? l = some n) :
    ∃ m, s.get? l = some m ∧ m.label = n.label := by
  have hat := h.at?_eq l hl
  rw [at?, at?, hn] at hat
  exact Option.map_eq_some_iff.1 hat

theorem exists_dir (h : SameAlong r s loc) (hl : l <+: loc) {mode : Nat} {es : Entries}
    (hn : r.get? l = some (.dir mode es)) : ∃ es, s.get? l = some (.dir mode es) := by
  obtain ⟨m, hm, hlabel⟩ := h.exists_node hl hn
  cases m with
  | dir mode' es' =>
    obtain rfl : mode' = mode := by simpa [label] using hlabel
    exact ⟨es', hm⟩
  | file | link | full => simp [label] at hlabel

end SameAlong

/-- **Along the same way, paths lead to the same place**, and are refused for the same reason. -/
theorem walk_along (h : SameAlong r s (here ++ ps.filter (· != "."))) (hup : ".." ∉ ps) :
    walk s follow links here ps = (walk r follow links here ps).map (Spot.on s) := by
  induction ps generalizing here with
  | nil =>
    have hhere : here <+: here ++ [].filter (· != ".") := List.prefix_append _ _
    cases hn : r.get? here with
    | none =>
      rw [walk, walk, hn, h.get?_eq_none hhere hn]
      rfl
    | some n =>
      obtain ⟨m, hm, -⟩ := h.exists_node hhere hn
      simp [walk_stop hn, walk_stop hm, Except.map, Spot.on, hm]
  | cons x rest ih =>
    simp only [List.mem_cons, not_or] at hup
    have hhere : here <+: here ++ (x :: rest).filter (· != ".") := List.prefix_append _ _
    cases hn : r.get? here with
    | none =>
      rw [walk, walk, hn, h.get?_eq_none hhere hn]
      rfl
    | some n =>
      cases n with
      | file | link | full =>
        obtain ⟨m, hm, hlabel⟩ := h.exists_node hhere hn
        rw [walk, walk, hn, hm]
        cases m <;> first | rfl | simp [label] at hlabel
      | dir mode es =>
        obtain ⟨es', hn'⟩ := h.exists_dir hhere hn
        by_cases hx : x = "."
        · subst hx
          rw [walk_stay hn, walk_stay hn']
          exact ih (by simpa using h) hup.2
        · rw [List.filter_cons_of_pos (by simpa using hx), List.append_cons] at h
          have hnext : here ++ [x] <+: here ++ [x] ++ rest.filter (· != ".") :=
            List.prefix_append _ _
          rw [walk_name hn hx (Ne.symm hup.1), walk_name hn' hx (Ne.symm hup.1)]
          split
          · rfl
          · rw [← get?_concat hn, ← get?_concat hn']
            cases hx : r.get? (here ++ [x]) with
            | none =>
              rw [h.get?_eq_none hnext hx]
              simp only
              split <;> rfl
            | some n =>
              obtain ⟨m, hm, hlabel⟩ := h.exists_node hnext hx
              rw [hm]
              cases n with
              | link t => exact absurd hx (h.unlinked _ t hnext)
              | file | full | dir =>
                cases m <;> first | exact ih h hup.2 | simp [label] at hlabel

/-- The location that a path spells, if nothing on its way leads elsewhere. -/
def spelled (d : Disk) (p : Path) : Location :=
  (if startsAtRoot p.text then [] else d.workDir) ++ (pathPieces p.text).filter (· != ".")

theorem find_along (h : SameAlong d.root e.root (d.spelled p)) (hdir : e.workDir = d.workDir)
    (hup : ".." ∉ pathPieces p.text) (follow : Bool) :
    e.find follow p = (d.find follow p).map fun f => (f.1, (e.root.get? f.1).getD f.2) := by
  have hresolve : e.resolve follow p = (d.resolve follow p).map (Spot.on e.root) := by
    rw [resolve_eq, resolve_eq, hdir, walk_along h hup]
    cases textRefusal? p <;> rfl
  rw [find, find, hresolve]
  cases d.resolve follow p with
  | error err => rfl
  | ok spot => cases spot <;> rfl

theorem canonical_along (h : SameAlong d.root e.root (d.spelled p)) (hdir : e.workDir = d.workDir)
    (hup : ".." ∉ pathPieces p.text) : e.canonical p = d.canonical p := by
  rw [canonical, canonical, find_along h hdir hup]
  cases d.find true p <;> rfl

/-- Without links, a path leads where it says. -/
theorem eq_spelled (hnone : ∀ loc t, d.root.get? loc ≠ some (.link t))
    (hup : ".." ∉ pathPieces p.text) (h : d.find follow p = .ok (loc, n)) : loc = d.spelled p :=
  (resolve_eq_ok.1 (find_eq_ok.1 h)).2.eq_of_unlinked hnone hup

theorem spelled_pathOf (hl : ∀ s ∈ l, IsName s) : d.spelled (pathOf l) = l := by
  rw [spelled, startsAtRoot_pathOf, if_pos rfl, pathPieces_pathOf hl, List.nil_append,
    List.filter_eq_self]
  exact fun s hs => by simpa using (hl s hs).ne_here

/-- What a parent spells lies above what the path spells. -/
theorem spelled_parent {parent : Path} (h : p.parent? = some parent) (hne : parent.text ≠ "") :
    d.spelled parent <+: d.spelled p ∧ pathPieces parent.text ⊆ pathPieces p.text := by
  obtain ⟨hstart, m, piece, n, hpieces⟩ := pathPieces_parent h hne
  rw [spelled, spelled, hpieces, List.filter_append]
  rw [show startsAtRoot parent.text = startsAtRoot p.text from hstart]
  exact ⟨(List.prefix_append_right_inj _).2 (List.prefix_append _ _),
    List.subset_append_left _ _⟩

end Codemod.Disk
