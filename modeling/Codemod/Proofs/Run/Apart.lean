/-
Removing listed files, or only saying that they would be removed. What becomes of one entry does not depend
on whether the run is a dry one (`removeOne_fst`). Of several entries it does not, either, if there are no
links and no entry leads through what an earlier one removes (`Apart`): the disk is then the same along the
way of each entry, whether the files before it are gone or not (`removeAll_report`).
-/
import Codemod.Proofs.Disk.Along
import Codemod.Proofs.Run.Deletion

namespace Codemod.Deletion

open Disk Node Codemod.Path

/-- No entry has the components of an earlier one, or goes on from them. -/
def Apart (ps : List Path) : Prop := ps.Pairwise fun p q => ¬ p.plain <+: q.plain

variable {s : Settings} {realRoot p : Path} {d e : Disk} {l loc : Location} {ps : List Path}

/-! ## One entry -/

/-- What becomes of an entry, whether the run is a dry one or not. -/
theorem removeOne_fst (s : Settings) (realRoot : Path) (d : Disk) (p : Path) :
    (removeOne s realRoot d p).1 = match textFault? s.excluded p with
      | some reason => refused p reason
      | none => match d.lstat (s.root.join p) with
        | .error e => if e == .notFound then .missing else .failed (.ofOs (s.root.join p) e)
        | .ok n => match checkPlace d realRoot (s.root.join p) p with
          | .error e => .failed e
          | .ok () =>
            if n.isLink then refused p "is a symbolic link"
            else if !n.isFile then refused p "not a regular file"
            else .removed (s.root.join p) := by
  rw [removeOne]
  cases textFault? s.excluded p with
  | some reason => rfl
  | none =>
    simp only
    cases hn : d.lstat (s.root.join p) with
    | error e => rfl
    | ok n =>
      simp only
      cases checkPlace d realRoot (s.root.join p) p with
      | error e => rfl
      | ok u =>
        simp only
        split
        · rfl
        · split
          · rfl
          · rename_i hfile
            split
            · rfl
            · -- What is a file can be removed.
              rw [lstat] at hn
              cases hfind : d.find false (s.root.join p) with
              | error e => simp [hfind, Except.map] at hn
              | ok found =>
                obtain ⟨loc, m⟩ := found
                obtain rfl : m = n := by simpa [hfind, Except.map] using hn
                have hdir : m.isDir = false := by
                  cases m <;> simp_all [Node.isFile, Node.isDir]
                simp [remove, hfind, bind, Except.bind, pure, Except.pure, hdir]

theorem checkPlace_along (hsame : SameAlong d.root e.root (d.spelled (s.root.join p)))
    (hdir : e.workDir = d.workDir) (hup : ".." ∉ pathPieces (s.root.join p).text) :
    checkPlace e realRoot (s.root.join p) p = checkPlace d realRoot (s.root.join p) p := by
  rw [checkPlace, checkPlace]
  cases hparent : (s.root.join p).parent? with
  | none => rfl
  | some parent =>
    simp only
    by_cases hne : parent.text = ""
    · have hrefusal : textRefusal? parent = some .notFound := by simp [textRefusal?, hne]
      have hcanonical (d : Disk) : d.canonical parent = .error .notFound := by
        rw [canonical, find_eq_error (e := .notFound)]
        rw [resolve_eq, hrefusal]
      rw [hcanonical, hcanonical]
    · obtain ⟨hspelled, hpieces⟩ := spelled_parent (d := d) hparent hne
      rw [canonical_along (hsame.mono hspelled) hdir fun h => hup (hpieces h)]

/-- **What becomes of an entry depends on what is along its way**, and on nothing else. -/
theorem removeOne_along {t : Settings} (hroot : t.root = s.root) (hexcluded : t.excluded = s.excluded)
    (hnone : ∀ loc t, d.root.get? loc ≠ some (.link t))
    (hsame : SameAlong d.root e.root (d.spelled (s.root.join p))) (hdir : e.workDir = d.workDir)
    (hup : ".." ∉ pathPieces (s.root.join p).text) :
    (removeOne t realRoot e p).1 = (removeOne s realRoot d p).1 := by
  rw [removeOne_fst, removeOne_fst, hexcluded, hroot, checkPlace_along hsame hdir hup]
  cases textFault? s.excluded p with
  | some reason => rfl
  | none =>
    simp only [lstat, find_along hsame hdir hup]
    cases hfind : d.find false (s.root.join p) with
    | error e => rfl
    | ok found =>
      obtain ⟨loc, n⟩ := found
      obtain rfl := eq_spelled hnone hup hfind
      obtain ⟨m, hm, hlabel⟩ :=
        hsame.exists_node (List.prefix_refl _) (get?_of_resolve (find_eq_ok.1 hfind))
      have hkind : m.isLink = n.isLink ∧ m.isFile = n.isFile := by
        cases m <;> cases n <;> simp_all [label, Node.isLink, Node.isFile]
      simp only [Except.map, hm, Option.getD_some, hkind]

/-! ## One entry after the other -/

/-- Where an entry below a root spells its location. -/
theorem spelled_join (hl : ∀ s ∈ l, IsName s) (htext : textFault? s.excluded p = none) :
    d.spelled ((pathOf l).join p) = l ++ (pathPieces p.text).filter (· != ".")
      ∧ ".." ∉ pathPieces ((pathOf l).join p).text := by
  obtain ⟨hbelow, -⟩ := checkBelow_of_textFault htext
  obtain ⟨hne, hrelative⟩ := checkBelow_eq_none hbelow
  rw [spelled, show startsAtRoot ((pathOf l).join p).text = true from isAbsolute_join l p,
    if_pos rfl, pathPieces_join hrelative hne hl, List.filter_append, List.nil_append]
  refine ⟨congrArg (· ++ _) (List.filter_eq_self.2 fun s hs => ?_), ?_⟩
  · simpa using (hl s hs).ne_here
  · rw [List.mem_append, not_or]
    exact ⟨fun h => (hl _ h).ne_up rfl, no_up_of_components (no_up_of_checkBelow hbelow)⟩

/-- An entry leads to the names that it spells. -/
theorem Takes.eq_spelled (h : Takes s realRoot d p loc) (hroot : s.root = pathOf l)
    (hl : ∀ s ∈ l, IsName s) (hnone : ∀ loc t, d.root.get? loc ≠ some (.link t)) :
    loc = l ++ (pathPieces p.text).filter (· != ".") := by
  obtain ⟨hspelled, hup⟩ := spelled_join (d := d) hl h.text
  obtain ⟨c, k, hfind⟩ := h.leads
  rw [hroot] at hfind
  rw [← hspelled]
  exact Disk.eq_spelled hnone hup hfind

/-- An entry has the components of the file that it leads to. -/
theorem Takes.components_eq (h : Takes s realRoot d p loc) (hroot : s.root = pathOf l)
    (hl : ∀ s ∈ l, IsName s) (hnone : ∀ loc t, d.root.get? loc ≠ some (.link t)) (hd : d.WellNamed) :
    (s.root.join p).components = (pathOf loc).components := by
  obtain ⟨hbelow, -⟩ := checkBelow_of_textFault h.text
  obtain ⟨c, k, hfile⟩ := h.exists_file
  have hup : .up ∉ (pieces p.text.toList []).filterMap component? := fun hmem =>
    no_up_of_checkBelow hbelow (List.mem_append_right _ hmem)
  rw [components_pathOf (hd _ _ hfile), h.eq_spelled hroot hl hnone, hroot,
    components_join (checkBelow_eq_none hbelow).2 hl, pathPieces_filter, filterMap_component hup,
    List.map_append, List.cons_append]

/-- Of entries that are apart, the first spells nothing on the way of the second. -/
theorem not_prefix_of_apart {q : Path} (hp : textFault? s.excluded p = none)
    (hq : textFault? s.excluded q = none) (h : ¬ p.plain <+: q.plain) :
    ¬ l ++ (pathPieces p.text).filter (· != ".") <+: l ++ (pathPieces q.text).filter (· != ".") := by
  have hplain {p : Path} (hp : textFault? s.excluded p = none) :
      p.plain = ((pathPieces p.text).filter (· != ".")).map .name :=
    have hbelow := (checkBelow_of_textFault hp).1
    plain_of_relative (checkBelow_eq_none hbelow).2 (no_up_of_checkBelow hbelow)
  rw [hplain hp, hplain hq] at h
  exact fun hprefix => h (((List.prefix_append_right_inj l).1 hprefix).map _)

/-- **What is reported of a list of entries that are apart**, of a live run, is what a dry run says. -/
theorem removeAll_report (hroot : s.root = pathOf l) (hl : ∀ s ∈ l, IsName s)
    (hlive : s.dryRun = false) (hd : d.root.isDir = true)
    (hnone : ∀ loc t, d.root.get? loc ≠ some (.link t)) (hapart : Apart ps)
    (hways : d.root.SameWays e.root) (hdir : e.workDir = d.workDir)
    (hsame : ∀ p ∈ ps, textFault? s.excluded p = none →
      SameAlong d.root e.root (l ++ (pathPieces p.text).filter (· != "."))) :
    (removeAll s realRoot ps e).1 = (removeAll { s with dryRun := true } realRoot ps d).1 := by
  induction ps generalizing e with
  | nil => rfl
  | cons p ps ih =>
    rw [List.forall_mem_cons] at hsame
    obtain ⟨hbefore, hafter⟩ := List.pairwise_cons.1 hapart
    have hfirst : (removeOne s realRoot e p).1
        = (removeOne { s with dryRun := true } realRoot d p).1 := by
      cases htext : textFault? s.excluded p with
      | some reason => simp only [removeOne_fst, htext]
      | none =>
        obtain ⟨hspelled, hup⟩ := spelled_join (d := d) hl htext
        refine removeOne_along (s := { s with dryRun := true }) rfl rfl hnone ?_ hdir ?_
        · simp only [hroot, hspelled]
          exact hsame.1 htext
        · simpa only [hroot] using hup
    simp only [removeAll, hfirst, removeOne_dry]
    refine congrArg (List.cons _) ?_
    by_cases htakes : ∃ loc, Takes s realRoot e p loc
    · obtain ⟨loc, htakes⟩ := htakes
      obtain ⟨c, k, hfile⟩ := htakes.exists_file
      obtain ⟨hagree, -⟩ := agreeBut_without_file (isDir_of_sameWays hways hd) hfile
      rw [removeOne_takes htakes hlive]
      refine ih hafter (hways.trans hagree.ways) hdir fun q hq htext => ?_
      -- What goes is not along the way of a later entry.
      have hnone' (loc : Location) (t : String) : e.root.get? loc ≠ some (.link t) := fun h =>
        hnone loc t (hways.symm.link h)
      have hloc : ¬ loc <+: l ++ (pathPieces q.text).filter (· != ".") :=
        htakes.eq_spelled hroot hl hnone' ▸ not_prefix_of_apart htakes.text htext (hbefore q hq)
      refine ⟨fun l' hl' => ?_, (hsame.2 q hq htext).unlinked⟩
      rw [hagree.at?_eq l' (by rintro h; exact hloc (List.mem_singleton.1 h ▸ hl')),
        (hsame.2 q hq htext).at?_eq l' hl']
    · push Not at htakes
      rw [(removeOne_else htakes).2]
      exact ih hafter hways hdir hsame.2

end Codemod.Deletion
