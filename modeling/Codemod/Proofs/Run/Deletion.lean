/-
What removing listed files removes. An entry that passes all checks on the disk as it was at first
leads to a file there (`Takes`); those files are gone at the end, each entry that was reported as
removed led to one of them, and the disk is otherwise as it was (`removeAll_spec`). That files go on
the way changes nothing for the entries that follow (`Takes.of_sameWays`).
-/
import Codemod.Proofs.Run.Replace
import Codemod.Run.Deletion

namespace Codemod.Deletion

open Disk Node Codemod.Path

/-- An entry passes all checks, and leads to the file at a location. -/
structure Takes (s : Settings) (realRoot : Path) (d : Disk) (p : Path) (loc : Location) : Prop where
  text : textFault? s.excluded p = none
  leads : ∃ c k, d.find false (s.root.join p) = .ok (loc, .file c k)
  place : checkPlace d realRoot (s.root.join p) p = .ok ()

variable {s : Settings} {realRoot p : Path} {d e : Disk} {loc : Location} {ps : List Path}

theorem Takes.unique {loc' : Location} (h : Takes s realRoot d p loc)
    (h' : Takes s realRoot d p loc') : loc = loc' := by
  obtain ⟨c, k, h⟩ := h.leads
  obtain ⟨c', k', h'⟩ := h'.leads
  rw [h] at h'
  simp only [Except.ok.injEq, Prod.mk.injEq] at h'
  exact h'.1

theorem Takes.exists_file (h : Takes s realRoot d p loc) :
    ∃ c k, d.root.get? loc = some (.file c k) := by
  obtain ⟨c, k, h⟩ := h.leads
  exact ⟨c, k, get?_of_resolve (find_eq_ok.1 h)⟩

/-- A path still leads to a file if nothing but other files has changed. -/
theorem find_of_sameWays {q : Path} {follow : Bool} {n m : Node}
    (h : d.find follow q = .ok (loc, n)) (hways : d.root.SameWays e.root)
    (hdir : e.workDir = d.workDir) (hm : e.root.get? loc = some m) :
    e.find follow q = .ok (loc, m) :=
  find_eq_ok.2 (resolve_of_sameWays (find_eq_ok.1 h) hways hdir hm)

/-- **Other files do not matter to an entry.** -/
theorem Takes.of_sameWays (h : Takes s realRoot d p loc) (hways : d.root.SameWays e.root)
    (hdir : e.workDir = d.workDir) (hfile : ∃ c k, e.root.get? loc = some (.file c k)) :
    Takes s realRoot e p loc := by
  obtain ⟨c, k, hfind⟩ := h.leads
  obtain ⟨c', k', hfile⟩ := hfile
  refine ⟨h.text, ⟨c', k', find_of_sameWays hfind hways hdir hfile⟩, ?_⟩
  have hplace := h.place
  rw [checkPlace] at hplace ⊢
  cases hparent : (s.root.join p).parent? with
  | none => rfl
  | some parent =>
    rw [hparent] at hplace
    simp only at hplace ⊢
    suffices hcanonical : e.canonical parent = d.canonical parent by rw [hcanonical]; exact hplace
    cases hfind' : d.find true parent with
    | error err => simp [canonical, hfind'] at hplace
    | ok found =>
      obtain ⟨dirs, m⟩ := found
      obtain ⟨hm, -⟩ := walks_of_parent hparent hfind hfind'
      cases m with
      | file | link | full => simp [Node.isDir] at hm
      | dir mode es =>
        obtain ⟨mode', es', hget⟩ := hways.dir (get?_of_resolve (find_eq_ok.1 hfind'))
        rw [canonical, canonical, hfind', find_of_sameWays hfind' hways hdir hget]

theorem checkBelow_eq_none (h : p.checkBelow = none) : p.text ≠ "" ∧ p.isAbsolute = false := by
  rw [checkBelow] at h
  split at h
  · cases h
  · rename_i hne
    refine ⟨by simpa using hne, Bool.eq_false_iff.2 fun habs => ?_⟩
    have hroot : Component.root ∈ p.components := by simp [components, habs]
    cases hfind : p.components.find? fun c => c == .up || c == .root with
    | none => exact absurd (List.find?_eq_none.1 hfind _ hroot) (by simp)
    | some c =>
      rw [hfind] at h
      cases c <;> cases h

theorem no_up_of_checkBelow (h : p.checkBelow = none) : .up ∉ p.components := by
  intro hmem
  rw [checkBelow] at h
  split at h
  · cases h
  · cases hfind : p.components.find? fun c => c == .up || c == .root with
    | none => exact absurd (List.find?_eq_none.1 hfind _ hmem) (by simp)
    | some c =>
      rw [hfind] at h
      cases c <;> cases h

theorem checkBelow_of_textFault (h : textFault? s.excluded p = none) :
    p.checkBelow = none ∧ p.excludedAncestor? s.excluded = none := by
  rw [textFault?] at h
  cases hbelow : p.checkBelow with
  | some e => simp [hbelow] at h
  | none => simpa [hbelow] using h

section Root

variable {l base : Location} (h : Takes s realRoot d p loc) (hroot : s.root = pathOf l)
  (hlead : d.LeadsTo (pathOf l) base) (hl : ∀ s ∈ l, IsName s)

include h hroot hlead hl

/-- An entry is followed from the root on. -/
theorem Takes.walks : ∃ links c k,
    Walks d.root false links base (pathPieces p.text) (.node loc (.file c k)) := by
  obtain ⟨hempty, hrelative⟩ := checkBelow_eq_none (checkBelow_of_textFault h.text).1
  obtain ⟨c, k, hfind⟩ := h.leads
  rw [hroot] at hfind
  have hway := (resolve_eq_ok.1 (find_eq_ok.1 hfind)).2
  have habs : startsAtRoot ((pathOf l).join p).text = true := isAbsolute_join l p
  obtain ⟨links, hgo⟩ := hlead.walk_append_pathOf hl
  rw [habs, if_pos rfl, pathPieces_join hrelative hempty hl, ← walk_eq_ok,
    hgo false _ (pathPieces_ne_nil hrelative hempty), walk_eq_ok] at hway
  exact ⟨links, c, k, hway⟩

/-- **The file that an entry leads to can be told from its components.** If they are those of a way through
real directories, the file is where that way ends. -/
theorem Takes.eq_of_components {names : Location} {c : ByteArray} {k : Nat}
    (hnames : ∀ s ∈ names, IsName s) (hfile : d.root.get? (base ++ names) = some (.file c k))
    (hsame : (s.root.join p).components = (pathOf (l ++ names)).components) :
    loc = base ++ names := by
  obtain ⟨hempty, hrelative⟩ := checkBelow_eq_none (checkBelow_of_textFault h.text).1
  obtain ⟨links, c', k', hway⟩ := h.walks hroot hlead hl
  have hall : ∀ s ∈ l ++ names, IsName s := List.forall_mem_append.2 ⟨hl, hnames⟩
  -- The pieces of the entry are the names, and `.` between them.
  rw [hroot] at hsame
  have hpieces := pathPieces_of_components (isAbsolute_join l p) (hsame.trans (components_pathOf hall))
  rw [pathPieces_join hrelative hempty hl, List.filter_append,
    List.filter_eq_self.2 fun s hs => by simpa using (hl s hs).ne_here,
    List.append_cancel_left_eq] at hpieces
  have hup := no_up_of_components (no_up_of_checkBelow (checkBelow_of_textFault h.text).1)
  have := hway.eq_of_names (by rw [hpieces]; exact hfile) rfl hup
  rw [hpieces] at this
  exact (Spot.node.inj this).1

/-- **Without links, an entry leads where it says**, and so not into an excluded directory. -/
theorem Takes.of_unlinked {dirs : Location} {f : String}
    (hnone : ∀ loc t, d.root.get? loc ≠ some (.link t)) (hloc : loc = base ++ dirs ++ [f]) :
    ∀ y ∈ dirs, y ∉ s.excluded := by
  obtain ⟨hbelow, hexcluded⟩ := checkBelow_of_textFault h.text
  obtain ⟨-, hrelative⟩ := checkBelow_eq_none hbelow
  have hup := no_up_of_checkBelow hbelow
  obtain ⟨first, hcomponents⟩ := components_of_relative hrelative hup
  obtain ⟨links, c, k, hway⟩ := h.walks hroot hlead hl
  have hend := hway.eq_of_unlinked hnone (no_up_of_components hup)
  rw [hloc, List.append_assoc, List.append_cancel_left_eq] at hend
  intro y hy hmem
  have hdir : .name y ∈ p.components.dropLast := by
    rw [hcomponents, ← hend, List.map_append, List.map_singleton, ← List.append_assoc,
      List.dropLast_concat]
    exact List.mem_append_right _ (List.mem_map_of_mem hy)
  rw [excludedAncestor?, List.findSome?_eq_none_iff] at hexcluded
  simpa [hmem] using hexcluded _ hdir

end Root

/-! ## One entry -/

theorem removeOne_takes (h : Takes s realRoot d p loc) (hlive : s.dryRun = false) :
    removeOne s realRoot d p = (.removed (s.root.join p), d.without loc) := by
  obtain ⟨c, k, hfind⟩ := h.leads
  have hlstat : d.lstat (s.root.join p) = .ok (.file c k) := by
    rw [lstat, hfind]
    rfl
  have hremove : d.remove (s.root.join p) = .ok (d.without loc) := by
    rw [remove, hfind]
    rfl
  rw [removeOne, h.text]
  simp only [hlstat, h.place, hlive, hremove, Node.isLink, Node.isFile, Bool.false_eq_true,
    Bool.not_true, if_false]

theorem removeOne_else (h : ∀ loc, ¬ Takes s realRoot d p loc) :
    (∀ q, (removeOne s realRoot d p).1 ≠ .removed q) ∧ (removeOne s realRoot d p).2 = d := by
  rw [removeOne]
  split
  · exact ⟨by simp [refused], rfl⟩
  · rename_i htext
    simp only
    split
    · refine ⟨?_, rfl⟩
      split <;> simp
    · rename_i n hn
      split
      · exact ⟨by simp, rfl⟩
      · rename_i hplace
        split
        · exact ⟨by simp [refused], rfl⟩
        · split
          · exact ⟨by simp [refused], rfl⟩
          · rename_i hfile
            obtain ⟨loc, hfind⟩ : ∃ loc, d.find false (s.root.join p) = .ok (loc, n) := by
              rw [lstat] at hn
              cases hf : d.find false (s.root.join p) with
              | error err => simp [hf, Except.map] at hn
              | ok found =>
                rw [hf] at hn
                exact ⟨found.1, by rw [← Except.ok.inj hn]⟩
            cases n with
            | file c k => exact absurd ⟨htext, ⟨c, k, hfind⟩, hplace⟩ (h loc)
            | link | full | dir => simp [Node.isFile] at hfile

/-- A dry run only looks. -/
theorem removeOne_dry (hdry : s.dryRun = true) : (removeOne s realRoot d p).2 = d := by
  rw [removeOne, hdry]
  split
  · rfl
  · simp only
    split
    · rfl
    · split
      · rfl
      · split
        · rfl
        · split <;> rfl

/-! ## One entry after the other -/

theorem removeAll_dry (hdry : s.dryRun = true) : (removeAll s realRoot ps d).2 = d := by
  induction ps with
  | nil => rfl
  | cons p ps ih => simpa only [removeAll, removeOne_dry hdry] using ih

theorem root_get?_ne_nil (hroot : d.root.isDir = true) {c : ByteArray} {k : Nat}
    (h : d.root.get? loc = some (.file c k)) : ∃ front x, loc = front ++ [x] := by
  rcases List.eq_nil_or_concat loc with rfl | ⟨front, x, rfl⟩
  · rw [get?_nil] at h
    rw [Option.some.inj h] at hroot
    simp [Node.isDir] at hroot
  · exact ⟨front, x, by simp⟩

/-- Taking a file away changes nothing else. -/
theorem agreeBut_without_file (hroot : d.root.isDir = true) {c : ByteArray} {k : Nat}
    (h : d.root.get? loc = some (.file c k)) :
    d.AgreeBut (d.without loc) [loc] ∧ (d.without loc).root.at? loc = none := by
  obtain ⟨front, x, rfl⟩ := root_get?_ne_nil hroot h
  obtain ⟨mode, es, hdir⟩ := exists_dir_above h
  have hold : ∀ n, Entries.get? x es = some n → n.isLeaf = true := by
    rw [get?_concat hdir] at h
    rw [h]
    rintro _ ⟨⟩
    rfl
  refine ⟨agreeBut_without hdir hold, ?_⟩
  rw [at?_without hdir fun n hn => isDir_of_isLeaf (hold n hn), if_pos rfl]

theorem isDir_of_sameWays {r r' : Node} (h : r.SameWays r') (hr : r.isDir = true) :
    r'.isDir = true := by
  cases r with
  | file | link | full => simp [Node.isDir] at hr
  | dir mode es =>
    obtain ⟨mode', es', hget⟩ := h.dir (get?_nil (.dir mode es))
    rw [get?_nil] at hget
    rw [Option.some.inj hget]
    rfl

/-- Once a file is gone, entries lead to the same files as before, this one excepted. -/
theorem takes_without_iff (hroot : d.root.isDir = true)
    {c : ByteArray} {k : Nat} (hfile : d.root.get? loc = some (.file c k)) {q : Path}
    {loc' : Location} :
    Takes s realRoot (d.without loc) q loc' ↔ Takes s realRoot d q loc' ∧ loc' ≠ loc := by
  obtain ⟨hagree, hnone⟩ := agreeBut_without_file hroot hfile
  constructor
  · intro h
    obtain ⟨c', k', hget⟩ := h.exists_file
    have hne : loc' ≠ loc := by
      rintro rfl
      rw [at?, hget] at hnone
      cases hnone
    refine ⟨h.of_sameWays hagree.ways.symm rfl ⟨c', k', at?_eq_file.1 ?_⟩, hne⟩
    rw [← hagree.at?_eq _ (by simpa using hne), at?_eq_file.2 hget]
  · rintro ⟨h, hne⟩
    obtain ⟨c', k', hget⟩ := h.exists_file
    refine h.of_sameWays hagree.ways rfl ⟨c', k', at?_eq_file.1 ?_⟩
    rw [hagree.at?_eq _ (by simpa using hne), at?_eq_file.2 hget]

theorem deleted_cons_removed (p q : Path) (report : List (Path × Removal)) :
    deleted ((p, .removed q) :: report) = q :: deleted report := rfl

theorem deleted_cons_else {r : Removal} (h : ∀ q, r ≠ .removed q) (p : Path)
    (report : List (Path × Removal)) : deleted ((p, r) :: report) = deleted report := by
  cases r with
  | removed q => exact absurd rfl (h q)
  | missing | failed => rfl

theorem distinct_subset (ps : List Path) : Path.distinct ps ⊆ ps := by
  induction ps with
  | nil => exact List.Subset.refl _
  | cons p ps ih =>
    rw [Path.distinct]
    exact List.cons_subset_cons p fun q hq => ih (List.mem_of_mem_filter hq)

/-- Every entry is reported on. -/
theorem removeAll_map_fst (s : Settings) (realRoot : Path) (ps : List Path) (d : Disk) :
    (removeAll s realRoot ps d).1.map (·.1) = ps := by
  induction ps generalizing d with
  | nil => rfl
  | cons p ps ih => exact congrArg (List.cons p) (ih _)

/-- Where no entry leads to a file that it may take, nothing goes, and each entry finds the same disk. -/
theorem removeAll_none (h : ∀ p ∈ ps, ∀ loc, ¬ Takes s realRoot d p loc) :
    removeAll s realRoot ps d = (ps.map fun p => (p, (removeOne s realRoot d p).1), d) := by
  induction ps with
  | nil => rfl
  | cons p ps ih =>
    rw [List.forall_mem_cons] at h
    simp only [removeAll, (removeOne_else h.1).2, ih h.2, List.map_cons]

theorem deleted_none (h : ∀ p ∈ ps, ∀ loc, ¬ Takes s realRoot d p loc) :
    deleted (removeAll s realRoot ps d).1 = [] := by
  rw [removeAll_none h, deleted, List.filterMap_map, List.filterMap_eq_nil_iff]
  intro p hp
  have hnot := (removeOne_else (h p hp)).1
  cases hr : (removeOne s realRoot d p).1 with
  | removed q => exact absurd hr (hnot q)
  | missing | failed => simp [hr]

/-- The root is the same path where files have come or gone. -/
theorem realRoot_of_sameWays {root : Path} (hlead : d.LeadsTo root loc) (hways : d.root.SameWays e.root)
    (hdir : e.workDir = d.workDir) : Deletion.realRoot e root = Deletion.realRoot d root := by
  obtain ⟨mode, es, hfind⟩ := hlead
  obtain ⟨mode', es', hfind'⟩ := LeadsTo.of_sameWays ⟨mode, es, hfind⟩ hways hdir
  rw [Deletion.realRoot, Deletion.realRoot, canonical, canonical, find_eq_ok.2 hfind, find_eq_ok.2 hfind']

/-- **What removing listed files does.** Every entry that is reported as removed led to a file; these
files are gone, and all else is as before. -/
theorem removeAll_spec (realRoot : Path) (ps : List Path) (hlive : s.dryRun = false)
    (hroot : d.root.isDir = true) : ∃ gone : List (Path × Location),
      deleted (removeAll s realRoot ps d).1 = gone.map (fun g => s.root.join g.1)
      ∧ (gone.map (·.1)).Sublist ps
      ∧ (gone.map (·.2)).Nodup
      ∧ (∀ g ∈ gone, Takes s realRoot d g.1 g.2)
      ∧ (∀ p ∈ ps, ∀ loc, Takes s realRoot d p loc → loc ∈ gone.map (·.2))
      ∧ d.AgreeBut (removeAll s realRoot ps d).2 (gone.map (·.2))
      ∧ ∀ g ∈ gone, (removeAll s realRoot ps d).2.root.at? g.2 = none := by
  induction ps generalizing d with
  | nil => exact ⟨[], rfl, .slnil, .nil, by simp, by simp, .refl d _, by simp⟩
  | cons p ps ih =>
    by_cases htakes : ∃ loc, Takes s realRoot d p loc
    · obtain ⟨loc, htakes⟩ := htakes
      obtain ⟨c, k, hfile⟩ := htakes.exists_file
      obtain ⟨hagree, hnone⟩ := agreeBut_without_file hroot hfile
      obtain ⟨gone, hdeleted, hsub, hnodup, htaken, hall, hrest, hgone⟩ :=
        ih (isDir_of_sameWays hagree.ways hroot)
      have hbefore := fun g hg => (takes_without_iff hroot hfile).1 (htaken g hg)
      simp only [removeAll, removeOne_takes htakes hlive]
      refine ⟨(p, loc) :: gone, ?_, hsub.cons_cons p, ?_, ?_, ?_, ?_, ?_⟩
      · rw [deleted_cons_removed, hdeleted, List.map_cons]
      · refine List.nodup_cons.2 ⟨fun hmem => ?_, hnodup⟩
        obtain ⟨g, hg, heq⟩ := List.mem_map.1 hmem
        exact (hbefore g hg).2 heq
      · rw [List.forall_mem_cons]
        exact ⟨htakes, fun g hg => (hbefore g hg).1⟩
      · intro q hq loc' htakes'
        rw [List.map_cons, List.mem_cons]
        by_cases hne : loc' = loc
        · exact .inl hne
        · obtain rfl | hq := List.mem_cons.1 hq
          · exact .inl (htakes'.unique htakes)
          · exact .inr (hall q hq loc' ((takes_without_iff hroot hfile).2 ⟨htakes', hne⟩))
      · exact (hagree.trans hrest).mono (by simp)
      · rw [List.forall_mem_cons]
        refine ⟨?_, hgone⟩
        by_cases hmem : loc ∈ gone.map (·.2)
        · obtain ⟨g, hg, rfl⟩ := List.mem_map.1 hmem
          exact hgone g hg
        · rw [hrest.at?_eq loc hmem, hnone]
    · push Not at htakes
      obtain ⟨hnot, hsame⟩ := removeOne_else htakes
      obtain ⟨gone, hdeleted, hsub, hnodup, htaken, hall, hrest, hgone⟩ := ih hroot
      simp only [removeAll, hsame]
      refine ⟨gone, ?_, hsub.cons p, hnodup, htaken, ?_, hrest, hgone⟩
      · rw [deleted_cons_else hnot, hdeleted]
      · intro q hq loc htakes'
        obtain rfl | hq := List.mem_cons.1 hq
        · exact absurd htakes' (htakes loc)
        · exact hall q hq loc htakes'

end Codemod.Deletion
