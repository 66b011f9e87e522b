/-
Trees with the same kinds of nodes at the same places (`SameKinds`): what files hold and what may be
done with them is all that can differ. On two such trees every path leads to the same place, or is
refused for the same reason (`resolve_congr`).
-/
import Codemod.Proofs.Disk.Entry

namespace Codemod.Disk

open Node

def Label.isFile : Label → Bool
  | file .. => true
  | _ => false

/-- Two trees with the same kinds of nodes at the same places. -/
structure Node.SameKinds (r s : Node) : Prop where
  ways : r.SameWays s
  files : ∀ loc, (r.at? loc).map Label.isFile = (s.at? loc).map Label.isFile

variable {r s t root : Node} {loc here : Location} {n m : Node} {x : String} {mode : Nat}
  {es : Entries} {follow : Bool} {links : Nat} {ps : List String} {d e : Disk} {p : Path}

namespace Node.SameKinds

theorem refl (r : Node) : r.SameKinds r := ⟨.refl r, fun _ => rfl⟩

theorem symm (h : r.SameKinds s) : s.SameKinds r := ⟨h.ways.symm, fun loc => (h.files loc).symm⟩

theorem trans (h : r.SameKinds s) (h' : s.SameKinds t) : r.SameKinds t :=
  ⟨h.ways.trans h'.ways, fun loc => (h.files loc).trans (h'.files loc)⟩

theorem none_iff (h : r.SameKinds s) : r.get? loc = none ↔ s.get? loc = none := by
  have := h.files loc
  simp only [at?, Option.map_map] at this
  cases hr : r.get? loc <;> cases hs : s.get? loc <;> simp [hr, hs] at this ⊢

theorem exists_node (h : r.SameKinds s) (hn : r.get? loc = some n) :
    ∃ m, s.get? loc = some m ∧ m.isLink = n.isLink ∧ m.isDir = n.isDir ∧ m.isFile = n.isFile := by
  have hfile := h.files loc
  have hway := h.ways loc
  simp only [way?, at?, hn, Option.map_some] at hfile hway
  cases hm : s.get? loc with
  | none => simp [hm] at hfile
  | some m =>
    simp only [hm, Option.map_some] at hfile hway
    refine ⟨m, rfl, ?_⟩
    cases n <;> cases m <;>
      simp_all [label, Label.isFile, Label.way?, Node.isLink, Node.isDir, Node.isFile]

/-- The entries of a directory are of the same kinds, too. -/
theorem entry (h : r.SameKinds s) {mode' : Nat} {es' : Entries} (x : String)
    (hdir : r.get? loc = some (.dir mode es)) (hdir' : s.get? loc = some (.dir mode' es')) :
    (Entries.get? x es = none → Entries.get? x es' = none) ∧
    (∀ t, Entries.get? x es = some (.link t) → Entries.get? x es' = some (.link t)) ∧
    ∀ n, Entries.get? x es = some n → n.isLink = false →
      ∃ m, Entries.get? x es' = some m ∧ m.isLink = false := by
  rw [← get?_concat hdir, ← get?_concat hdir']
  refine ⟨h.none_iff.1, fun t ht => h.ways.link ht, fun n hn hlink => ?_⟩
  obtain ⟨m, hm, hm', -⟩ := h.exists_node hn
  exact ⟨m, hm, hm'.trans hlink⟩

end Node.SameKinds

/-- A file for a file leaves all kinds as they are. -/
theorem sameKinds_withFile {c b : ByteArray} {k j : Nat} (hdir : d.root.get? loc = some (.dir mode es))
    (hfile : Entries.get? x es = some (.file c k)) :
    d.root.SameKinds (d.root.put (loc ++ [x]) (.file b j)) := by
  have hold : ∀ n, Entries.get? x es = some n → n.isLeaf = true := by
    rw [hfile]
    rintro _ ⟨⟩
    rfl
  refine ⟨sameWays_alter hdir hold (by rintro _ ⟨⟩; rfl), fun l => ?_⟩
  rw [Node.put, at?_alter hdir (fun n hn => isDir_of_isLeaf (hold n hn)) (by rintro _ ⟨⟩; rfl)]
  split
  · rename_i hl
    rw [hl, at?, get?_concat hdir, hfile]
    rfl
  · rfl

/-! ## Following paths -/

/-- The same place on another tree. -/
def Spot.on (s : Node) : Spot → Spot
  | .node loc n => .node loc ((s.get? loc).getD n)
  | .free parent name => .free parent name

/-- **What a path leads to is the same place, and what refuses it is the same reason.** -/
theorem walk_congr (h : r.SameKinds s) :
    walk s follow links here ps = (walk r follow links here ps).map (Spot.on s) := by
  fun_induction walk r follow links here ps
  case case1 hn =>
    obtain ⟨m, hm, -⟩ := h.exists_node hn
    simp [walk_stop hm, Except.map, Spot.on, hm]
  case case2 hn =>
    rw [walk, h.none_iff.1 hn]
    rfl
  case case3 hn =>
    rw [walk, h.none_iff.1 hn]
    rfl
  case case4 hdir hpiece ih =>
    obtain ⟨mode, es, hdir⟩ := h.ways.dir hdir
    rw [beq_iff_eq.1 hpiece, walk_stay hdir, ih]
  case case5 hdir _ hpiece ih =>
    obtain ⟨mode, es, hdir⟩ := h.ways.dir hdir
    rw [beq_iff_eq.1 hpiece, walk_up hdir, ih]
  case case6 hdir h1 h2 hlong =>
    obtain ⟨mode, es, hdir⟩ := h.ways.dir hdir
    rw [walk_name hdir (by simpa using h1) (by simpa using h2), if_pos hlong]
    rfl
  case case7 hdir h1 h2 hlen hn hrest =>
    obtain ⟨mode, es, hdir'⟩ := h.ways.dir hdir
    rw [walk_name hdir' (by simpa using h1) (by simpa using h2), if_neg hlen,
      (h.entry _ hdir hdir').1 hn]
    simp [hrest, Except.map, Spot.on]
  case case8 hdir h1 h2 hlen hn hrest =>
    obtain ⟨mode, es, hdir'⟩ := h.ways.dir hdir
    rw [walk_name hdir' (by simpa using h1) (by simpa using h2), if_neg hlen,
      (h.entry _ hdir hdir').1 hn]
    simp [hrest, Except.map]
  case case9 here piece rest _ _ hdir h1 h2 hlen t hn hrest =>
    obtain ⟨mode, es, hdir'⟩ := h.ways.dir hdir
    have hlink := (h.entry _ hdir hdir').2.1 t hn
    have hget : s.get? (here ++ [piece]) = some (.link t) := (get?_concat hdir' _).trans hlink
    rw [walk_name hdir' (by simpa using h1) (by simpa using h2), if_neg hlen, hlink]
    simp [hrest, Except.map, Spot.on, hget]
  case case10 hdir h1 h2 hlen t hn hrest =>
    obtain ⟨mode, es, hdir'⟩ := h.ways.dir hdir
    rw [walk_name hdir' (by simpa using h1) (by simpa using h2), if_neg hlen,
      (h.entry _ hdir hdir').2.1 t hn]
    simp [hrest, Except.map]
  case case11 hdir h1 h2 hlen t hn hrest _ ih =>
    obtain ⟨mode, es, hdir'⟩ := h.ways.dir hdir
    rw [walk_name hdir' (by simpa using h1) (by simpa using h2), if_neg hlen,
      (h.entry _ hdir hdir').2.1 t hn]
    simpa [hrest] using ih
  case case12 here piece rest _ _ hdir h1 h2 hlen n hlink hn ih =>
    obtain ⟨mode, es, hdir'⟩ := h.ways.dir hdir
    have hnot : n.isLink = false := by
      cases n with
      | link t => exact (hlink t rfl).elim
      | file | full | dir => rfl
    obtain ⟨m, hm, hmlink⟩ := (h.entry _ hdir hdir').2.2 n hn hnot
    rw [walk_name hdir' (by simpa using h1) (by simpa using h2), if_neg hlen, hm, ← ih]
    cases m with
    | link t => simp [Node.isLink] at hmlink
    | file | full | dir => rfl
  case case13 n hdir hn =>
    obtain ⟨m, hm, -, hmdir, -⟩ := h.exists_node hn
    rw [walk, hm]
    cases m with
    | dir mode es =>
      cases n with
      | dir mode es => exact (hdir mode es rfl).elim
      | file | link | full => simp [Node.isDir] at hmdir
    | file | link | full => rfl

/-- Two disks with the same kinds of nodes, and the same directory to start from. -/
structure SameShape (d e : Disk) : Prop where
  kinds : d.root.SameKinds e.root
  workDir : e.workDir = d.workDir

theorem SameShape.refl (d : Disk) : d.SameShape d := ⟨.refl _, rfl⟩

theorem SameShape.trans {f : Disk} (h : d.SameShape e) (h' : e.SameShape f) : d.SameShape f :=
  ⟨h.kinds.trans h'.kinds, h'.workDir.trans h.workDir⟩

theorem resolve_congr (h : d.SameShape e) (follow : Bool) (p : Path) :
    e.resolve follow p = (d.resolve follow p).map (Spot.on e.root) := by
  rw [resolve_eq, resolve_eq, h.workDir, walk_congr h.kinds]
  cases textRefusal? p <;> rfl

theorem find_congr (h : d.SameShape e) (follow : Bool) (p : Path) :
    e.find follow p = (d.find follow p).map fun f => (f.1, (e.root.get? f.1).getD f.2) := by
  rw [find, find, resolve_congr h]
  cases d.resolve follow p with
  | error err => rfl
  | ok spot => cases spot <;> rfl

end Codemod.Disk
