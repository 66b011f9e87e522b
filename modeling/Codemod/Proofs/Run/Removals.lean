/-
Removing listed files in a dry run, in fact, and once more. A dry run reports every entry that leads to a file,
and a live run only the first of those that lead to the same file (`run_reports`). When files go, what was
missing stays missing (`Missing.walk`), and an entry that has lost its file is passed over; so a second run has
nothing to remove and nothing new to complain of (`run_twice`).
-/
import Codemod.Proofs.Run.Containment

namespace Codemod.Deletion

open Disk Node Codemod.Path

variable {s : Settings} {real p : Path} {d e f : Disk} {l loc : Location} {ps : List Path} {n : Node}
  {follow : Bool}

namespace Settings

/-- The same settings, for a run that only looks. -/
def dry (s : Settings) : Settings := { s with dryRun := true }

/-- The same settings, for a run that removes. -/
def live (s : Settings) : Settings := { s with dryRun := false }

end Settings

/-- Whether an entry is taken does not depend on whether it is removed. -/
theorem takes_congr {s' : Settings} (hroot : s'.root = s.root) (hexcluded : s'.excluded = s.excluded) :
    Takes s' real d p loc ↔ Takes s real d p loc := by
  constructor
  · intro h
    exact ⟨hexcluded ▸ h.text, hroot ▸ h.leads, hroot ▸ h.place⟩
  · intro h
    exact ⟨hexcluded ▸ h.text, hroot ▸ h.leads, hroot ▸ h.place⟩

/-! ## Files that go -/

theorem isDir_root {root : Node} {mode : Nat} {es : Entries} (h : root.get? l = some (.dir mode es)) :
    root.isDir = true := by
  cases root with
  | dir => rfl
  | file | link | full => cases l <;> simp [get?] at h

/-- Where an entry leads to a file, there is a directory to start from. -/
theorem Takes.isDir_root (h : Takes s real d p loc) : d.root.isDir = true := by
  obtain ⟨hne, hrelative⟩ := checkBelow_eq_none (checkBelow_of_textFault h.text).1
  obtain ⟨c, k, hfind⟩ := h.leads
  have hway := (resolve_eq_ok.1 (find_eq_ok.1 hfind)).2
  have hpieces : pathPieces (s.root.join p).text ≠ [] := by
    by_cases hroot : s.root.text = ""
    · have hjoin : s.root.join p = p := by simp [join, hrelative, hroot]
      rw [hjoin]
      exact pathPieces_ne_nil hrelative hne
    · rw [pathPieces_join_eq hroot hrelative hne]
      simp [pathPieces_ne_nil hrelative hne]
  obtain ⟨x, ps, hps⟩ := List.exists_cons_of_ne_nil hpieces
  rw [hps] at hway
  obtain ⟨mode, es, hdir⟩ := hway.exists_dir
  exact Deletion.isDir_root hdir

/-- Files are gone, and nothing else has changed. -/
structure Loses (d e : Disk) : Prop where
  workDir : e.workDir = d.workDir
  ways : d.root.SameWays e.root
  shrinks : d.Shrinks e

namespace Loses

theorem refl (d : Disk) : Loses d d := ⟨rfl, .refl _, fun _ => .inr rfl⟩

theorem trans (h : Loses d e) (h' : Loses e f) : Loses d f where
  workDir := h'.workDir.trans h.workDir
  ways := h.ways.trans h'.ways
  shrinks l := by
    rcases h'.shrinks l with hnone | hsame
    · exact .inl hnone
    · rw [hsame]
      exact h.shrinks l

theorem of_takes (h : Takes s real d p loc) : Loses d (d.without loc) := by
  obtain ⟨c, k, hfile⟩ := h.exists_file
  obtain ⟨hagree, hnone⟩ := agreeBut_without_file h.isDir_root hfile
  exact ⟨hagree.workDir, hagree.ways, .of_agreeBut hagree (by simpa using hnone)⟩

/-- An entry that is taken afterwards was taken before. -/
theorem takes (h : Loses d e) (htakes : Takes s real e p loc) : Takes s real d p loc := by
  obtain ⟨c, k, hfile⟩ := htakes.exists_file
  exact htakes.of_sameWays h.ways.symm h.workDir.symm ⟨c, k, h.shrinks.file hfile⟩

end Loses

theorem get?_without_takes (h : Takes s real d p loc) : (d.without loc).root.get? loc = none := by
  obtain ⟨c, k, hfile⟩ := h.exists_file
  exact at?_eq_none.1 (agreeBut_without_file h.isDir_root hfile).2

/-! ## A dry run and a live run -/

/-- The entries of a list that are taken, with the files that they lead to. -/
inductive Lists (s : Settings) (real : Path) (d : Disk) : List Path → List (Path × Location) → Prop
  | nil : Lists s real d [] []
  | takes {p : Path} {loc : Location} {ps : List Path} {gs : List (Path × Location)} :
      Takes s real d p loc → Lists s real d ps gs → Lists s real d (p :: ps) ((p, loc) :: gs)
  | skips {p : Path} {ps : List Path} {gs : List (Path × Location)} : (∀ loc, ¬ Takes s real d p loc) →
      Lists s real d ps gs → Lists s real d (p :: ps) gs

/-- Leaves out entries that lead where an earlier one leads. -/
def firsts : List (Path × Location) → List (Path × Location)
  | [] => []
  | g :: gs => g :: (firsts gs).filter fun h => h.2 != g.2

theorem firsts_sublist (gs : List (Path × Location)) : (firsts gs).Sublist gs := by
  induction gs with
  | nil => exact .slnil
  | cons g gs ih => exact (List.filter_sublist.trans ih).cons_cons g

theorem firsts_nodup (gs : List (Path × Location)) : ((firsts gs).map (·.2)).Nodup := by
  induction gs with
  | nil => exact .nil
  | cons g gs ih =>
    rw [firsts, List.map_cons, List.nodup_cons]
    exact ⟨by simp, ih.sublist (List.filter_sublist.map _)⟩

theorem firsts_eq_self {gs : List (Path × Location)} (h : (gs.map (·.2)).Nodup) : firsts gs = gs := by
  induction gs with
  | nil => rfl
  | cons g gs ih =>
    rw [List.map_cons, List.nodup_cons] at h
    rw [firsts, ih h.2, List.filter_eq_self.2]
    intro g' hg'
    exact bne_iff_ne.2 fun heq => h.1 (heq ▸ List.mem_map_of_mem hg')

theorem firsts_filter (gs : List (Path × Location)) (loc : Location) :
    firsts (gs.filter fun g => g.2 != loc) = (firsts gs).filter fun g => g.2 != loc := by
  induction gs with
  | nil => rfl
  | cons g gs ih =>
    by_cases hg : g.2 = loc
    · rw [List.filter_cons_of_neg (by simpa using hg), ih, firsts, List.filter_cons_of_neg (by simpa using hg),
        List.filter_filter, hg]
      simp
    · rw [List.filter_cons_of_pos (by simpa using hg), firsts, ih, firsts,
        List.filter_cons_of_pos (by simpa using hg), List.filter_filter, List.filter_filter]
      exact congrArg (List.cons g) (List.filter_congr fun h _ => Bool.and_comm _ _)

namespace Lists

variable {gs : List (Path × Location)}

theorem exists_lists (s : Settings) (real : Path) (d : Disk) (ps : List Path) :
    ∃ gs, Lists s real d ps gs := by
  induction ps with
  | nil => exact ⟨[], .nil⟩
  | cons p ps ih =>
    obtain ⟨gs, ih⟩ := ih
    by_cases htakes : ∃ loc, Takes s real d p loc
    · obtain ⟨loc, htakes⟩ := htakes
      exact ⟨_, .takes htakes ih⟩
    · exact ⟨gs, .skips (not_exists.1 htakes) ih⟩

theorem congr {s' : Settings} (h : Lists s real d ps gs) (hroot : s'.root = s.root)
    (hexcluded : s'.excluded = s.excluded) : Lists s' real d ps gs := by
  induction h with
  | nil => exact .nil
  | takes htakes _ ih => exact .takes ((takes_congr hroot hexcluded).2 htakes) ih
  | skips hnot _ ih => exact .skips (fun loc htakes => hnot loc ((takes_congr hroot hexcluded).1 htakes)) ih

theorem sublist (h : Lists s real d ps gs) : (gs.map (·.1)).Sublist ps := by
  induction h with
  | nil => exact .slnil
  | takes _ _ ih => exact ih.cons_cons _
  | skips _ _ ih => exact ih.cons _

theorem mem_iff (h : Lists s real d ps gs) :
    (p, loc) ∈ gs ↔ p ∈ ps ∧ Takes s real d p loc := by
  induction h with
  | nil => simp
  | @takes q loc' ps gs htakes _ ih =>
    rw [List.mem_cons, List.mem_cons, ih, Prod.mk.injEq]
    constructor
    · intro h
      obtain ⟨rfl, rfl⟩ | ⟨hp, htakes'⟩ := h
      · exact ⟨.inl rfl, htakes⟩
      · exact ⟨.inr hp, htakes'⟩
    · intro h
      obtain ⟨rfl | hp, htakes'⟩ := h
      · exact .inl ⟨rfl, htakes'.unique htakes⟩
      · exact .inr ⟨hp, htakes'⟩
  | skips hnot _ ih =>
    rw [ih, List.mem_cons]
    constructor
    · intro h
      exact ⟨.inr h.1, h.2⟩
    · intro h
      obtain ⟨rfl | hp, htakes⟩ := h
      · exact absurd htakes (hnot loc)
      · exact ⟨hp, htakes⟩

/-- Once a file is gone, the entries that led to it lead nowhere. -/
theorem without (h : Lists s real d ps gs) (htakes : Takes s real d p loc) :
    Lists s real (d.without loc) ps (gs.filter fun g => g.2 != loc) := by
  obtain ⟨c, k, hfile⟩ := htakes.exists_file
  have hiff {q : Path} {loc' : Location} :
      Takes s real (d.without loc) q loc' ↔ Takes s real d q loc' ∧ loc' ≠ loc :=
    takes_without_iff htakes.isDir_root hfile
  induction h with
  | nil => exact .nil
  | @takes q loc' ps gs hq _ ih =>
    by_cases hloc : loc' = loc
    · rw [List.filter_cons_of_neg (by simpa using hloc)]
      refine .skips (fun loc'' htakes' => ?_) ih
      obtain ⟨htakes', hne⟩ := hiff.1 htakes'
      exact hne ((htakes'.unique hq).trans hloc)
    · rw [List.filter_cons_of_pos (by simpa using hloc)]
      exact .takes (hiff.2 ⟨hq, hloc⟩) ih
  | skips hnot _ ih => exact .skips (fun loc' htakes' => hnot loc' (hiff.1 htakes').1) ih

end Lists

theorem removeOne_takes_dry (h : Takes s real d p loc) (hdry : s.dryRun = true) :
    removeOne s real d p = (.removed (s.root.join p), d) := by
  obtain ⟨c, k, hfind⟩ := h.leads
  have hlstat : d.lstat (s.root.join p) = .ok (.file c k) := by
    rw [lstat, hfind]
    rfl
  rw [removeOne, h.text]
  simp only [hlstat, h.place, hdry, Node.isLink, Node.isFile, Bool.false_eq_true, Bool.not_true, if_false, if_true]

/-- **A dry run reports every entry that leads to a file.** -/
theorem deleted_dry {gs : List (Path × Location)} (h : Lists s real d ps gs) (hdry : s.dryRun = true) :
    deleted (removeAll s real ps d).1 = gs.map fun g => s.root.join g.1 := by
  induction h with
  | nil => rfl
  | takes htakes _ ih =>
    simp only [removeAll, removeOne_takes_dry htakes hdry]
    rw [deleted_cons_removed, ih, List.map_cons]
  | skips hnot _ ih =>
    obtain ⟨hnone, hsame⟩ := removeOne_else hnot
    simp only [removeAll, hsame]
    rw [deleted_cons_else hnone, ih]

/-- **A live run reports the first entry for each file.** -/
theorem deleted_live {gs : List (Path × Location)} (h : Lists s real d ps gs) (hlive : s.dryRun = false) :
    deleted (removeAll s real ps d).1 = (firsts gs).map fun g => s.root.join g.1 := by
  induction ps generalizing d gs with
  | nil =>
    cases h
    rfl
  | cons p ps ih =>
    cases h with
    | takes htakes hrest =>
      simp only [removeAll, removeOne_takes htakes hlive]
      rw [deleted_cons_removed, ih (hrest.without htakes), firsts_filter, firsts, List.map_cons]
    | skips hnot hrest =>
      obtain ⟨hnone, hsame⟩ := removeOne_else hnot
      simp only [removeAll, hsame]
      rw [deleted_cons_else hnone, ih hrest]

/-- **What a dry run reports, and what a live run reports.** A dry run reports the entries of the list that lead to
a file, in the order of the list, and a live run those of them that are the first to lead to their file. So the
two reports are the same exactly if no two entries lead to one file, however their paths are spelled. -/
theorem run_reports (s : Settings) (paths : List Path) (d : Disk) : ∃ listed : List (Path × Location),
    (listed.map (·.1)).Sublist (Path.distinct paths)
    ∧ (∀ p loc, (p, loc) ∈ listed ↔ p ∈ Path.distinct paths ∧ Takes s (realRoot d s.root) d p loc)
    ∧ deleted (run s.dry paths d).1 = listed.map (fun g => s.root.join g.1)
    ∧ deleted (run s.live paths d).1 = (firsts listed).map (fun g => s.root.join g.1)
    ∧ ((firsts listed).map (·.2)).Nodup
    ∧ (deleted (run s.dry paths d).1 = deleted (run s.live paths d).1 ↔ (listed.map (·.2)).Nodup) := by
  obtain ⟨listed, hlisted⟩ := Lists.exists_lists s (realRoot d s.root) d (Path.distinct paths)
  have hdry : Lists s.dry _ _ _ _ := hlisted.congr rfl rfl
  have hdry : deleted (run s.dry paths d).1 = _ := deleted_dry hdry rfl
  have hlive : Lists s.live _ _ _ _ := hlisted.congr rfl rfl
  have hlive : deleted (run s.live paths d).1 = _ := deleted_live hlive rfl
  refine ⟨listed, hlisted.sublist, fun p loc => hlisted.mem_iff, hdry, hlive, firsts_nodup listed, ?_⟩
  rw [hdry, hlive]
  constructor
  · intro hsame
    have hlength := congrArg List.length hsame
    rw [List.length_map, List.length_map] at hlength
    rw [← (firsts_sublist listed).eq_of_length hlength.symm]
    exact firsts_nodup listed
  · intro hnodup
    rw [firsts_eq_self hnodup]
    rfl

/-- A directory with one file. -/
def aloneDisk : Disk where
  root := .dir 0o755 [("a.ts", .file "A".toUTF8 0o644)]
  workDir := []

theorem takes_alone {dryRun : Bool} (htext : textFault? [] p = none)
    (hrefusal : textRefusal? ((⟨"/"⟩ : Path).join p) = none)
    (hstart : startsAtRoot ((⟨"/"⟩ : Path).join p).text = true)
    (hparent : ((⟨"/"⟩ : Path).join p).parent? = some ⟨"/"⟩)
    (hway : Walks aloneDisk.root false maxLinks [] (pathPieces ((⟨"/"⟩ : Path).join p).text)
      (.node ["a.ts"] (.file "A".toUTF8 0o644))) :
    Takes ⟨⟨"/"⟩, [], dryRun⟩ (realRoot aloneDisk ⟨"/"⟩) aloneDisk p ["a.ts"] := by
  have hroot : aloneDisk.canonical ⟨"/"⟩ = .ok ⟨"/"⟩ := canonical_separator rfl
  refine ⟨htext, ⟨"A".toUTF8, 0o644, find_eq_ok.2 (resolve_eq_ok.2 ⟨hrefusal, ?_⟩)⟩, ?_⟩
  · rw [hstart, if_pos rfl]
    exact hway
  · simp only [checkPlace, hparent, realRoot, hroot]
    rw [if_pos (by decide)]

theorem lists_alone (dryRun : Bool) : Lists ⟨⟨"/"⟩, [], dryRun⟩ (realRoot aloneDisk ⟨"/"⟩) aloneDisk
    [⟨"a.ts"⟩, ⟨"./a.ts"⟩] [(⟨"a.ts"⟩, ["a.ts"]), (⟨"./a.ts"⟩, ["a.ts"])] := by
  have hplain : pathPieces ((⟨"/"⟩ : Path).join ⟨"a.ts"⟩).text = ["a.ts"] := by decide
  have hhere : pathPieces ((⟨"/"⟩ : Path).join ⟨"./a.ts"⟩).text = [".", "a.ts"] := by decide
  have hway : Walks aloneDisk.root false maxLinks [] ["a.ts"] (.node ["a.ts"] (.file "A".toUTF8 0o644)) :=
    .down ⟨by decide, by decide, by decide⟩ rfl rfl (.stop rfl)
  refine .takes (takes_alone (by decide) (by decide) (by decide) (by decide) (hplain ▸ hway)) ?_
  refine .takes (takes_alone (by decide) (by decide) (by decide) (by decide) (hhere ▸ .stay rfl hway)) .nil

/-- A file that is listed in two spellings is reported twice by a dry run, and once by a live one. -/
theorem preview_two_spellings :
    deleted (run ⟨⟨"/"⟩, [], true⟩ [⟨"a.ts"⟩, ⟨"./a.ts"⟩] aloneDisk).1 = [⟨"/a.ts"⟩, ⟨"/./a.ts"⟩]
    ∧ deleted (run ⟨⟨"/"⟩, [], false⟩ [⟨"a.ts"⟩, ⟨"./a.ts"⟩] aloneDisk).1 = [⟨"/a.ts"⟩] := by
  have hdistinct : Path.distinct [⟨"a.ts"⟩, ⟨"./a.ts"⟩] = [⟨"a.ts"⟩, ⟨"./a.ts"⟩] := by decide
  constructor
  · rw [run, hdistinct, deleted_dry (lists_alone true) rfl]
    decide
  · rw [run, hdistinct, deleted_live (lists_alone false) rfl]
    decide

/-! ## Once more -/

/-- There is nothing at the end of a way in a tree, or not any more. -/
def Missing (root : Node) : Except OsError Spot → Prop
  | .ok (.node loc _) => root.get? loc = none
  | .ok (.free ..) => True
  | .error err => err = .notFound

theorem Missing.of_entry {root : Node} {links mode : Nat} {here : Location} {x : String} {rest : List String}
    {es : Entries} (hdir : root.get? here = some (.dir mode es)) (hx : IsEntryName x)
    (hnone : root.get? (here ++ [x]) = none) : Missing root (Disk.walk root follow links here (x :: rest)) := by
  rw [get?_concat hdir] at hnone
  rw [walk_name hdir hx.ne_here hx.ne_up, if_neg (Nat.not_lt.2 hx.short), hnone]
  cases rest <;> trivial

/-- **What is missing stays missing when files go.** -/
theorem Missing.walk {r s : Node} {links : Nat} {here : Location} {pieces : List String} (hways : r.SameWays s)
    (hfewer : ∀ l, r.get? l = none → s.get? l = none) (h : Missing s (walk r follow links here pieces)) :
    Missing s (walk s follow links here pieces) := by
  fun_induction Disk.walk r follow links here pieces
  case case1 here n hn =>
    rw [Disk.walk, show s.get? here = none from h]
    rfl
  case case2 here hn | case3 here _ _ hn =>
    rw [Disk.walk, hfewer _ hn]
    rfl
  case case4 hdir hpiece ih =>
    obtain ⟨_, _, hdir⟩ := hways.dir hdir
    rw [beq_iff_eq.1 hpiece, walk_stay hdir]
    exact ih h
  case case5 hdir _ hpiece ih =>
    obtain ⟨_, _, hdir⟩ := hways.dir hdir
    rw [beq_iff_eq.1 hpiece, walk_up hdir]
    exact ih h
  case case7 hdir h1 h2 hlen hn _ | case8 hdir h1 h2 hlen hn _ =>
    obtain ⟨_, _, hdir'⟩ := hways.dir hdir
    exact .of_entry hdir' ⟨by simpa using h1, by simpa using h2, by omega⟩
      (hfewer _ ((get?_concat hdir _).trans hn))
  case case9 hdir _ _ _ t hn _ =>
    have hlink := hways.link ((get?_concat hdir _).trans hn)
    cases hlink.symm.trans h
  case case11 rest _ _ hdir h1 h2 hlen t hn hrest links ih =>
    have hgo : rest ≠ [] ∨ follow = true := by
      simp only [Bool.and_eq_true, List.isEmpty_iff, Bool.not_eq_true', not_and] at hrest
      by_cases hne : rest = []
      · exact .inr (by simpa using hrest hne)
      · exact .inl hne
    have hlink := hways.link ((get?_concat hdir _).trans hn)
    rw [walk_follow ⟨by simpa using h1, by simpa using h2, by omega⟩ hlink hgo]
    simpa using ih (by simpa using h)
  case case12 here x rest _ _ hdir h1 h2 hlen m hlink hm ih =>
    have hx : IsEntryName x := ⟨by simpa using h1, by simpa using h2, by omega⟩
    cases hget : s.get? (here ++ [x]) with
    | none =>
      -- The file that one came by is gone.
      obtain ⟨_, _, hdir'⟩ := hways.dir hdir
      exact .of_entry hdir' hx hget
    | some m' =>
      rw [walk_down hx hget]
      · exact ih h
      · cases m' with
        | link t =>
          have hback := hways.symm.link hget
          exact absurd (Option.some.inj (hm.symm.trans ((get?_concat hdir x).symm.trans hback))) (hlink t)
        | file | full | dir => rfl
  all_goals cases h

theorem find_of_missing {q : Path} (hloses : Loses d e) (h : Missing e.root (d.resolve follow q)) :
    e.find follow q = .error .notFound := by
  have hmissing : Missing e.root (e.resolve follow q) := by
    rw [resolve_eq] at h ⊢
    cases hr : textRefusal? q with
    | some err =>
      rw [hr] at h
      exact h
    | none =>
      rw [hr] at h
      rw [hloses.workDir]
      exact h.walk hloses.ways fun l => hloses.shrinks.get?_eq_none
  rw [find]
  cases hresolve : e.resolve follow q with
  | error err =>
    rw [hresolve] at hmissing
    rw [show err = .notFound from hmissing]
    rfl
  | ok spot =>
    cases spot with
    | free => rfl
    | node loc n =>
      rw [hresolve] at hmissing
      cases (get?_of_resolve hresolve).symm.trans hmissing

/-- An entry is taken, or it is refused, or there is nothing that it names. -/
theorem removeOne_cases (s : Settings) (real : Path) (d : Disk) (p : Path) :
    (∃ loc, Takes s real d p loc) ∨ (∃ err, (removeOne s real d p).1 = .failed err)
      ∨ textFault? s.excluded p = none ∧ d.find false (s.root.join p) = .error .notFound := by
  rw [removeOne]
  cases htext : textFault? s.excluded p with
  | some reason => exact .inr (.inl ⟨_, rfl⟩)
  | none =>
    simp only [lstat]
    cases hfind : d.find false (s.root.join p) with
    | error err =>
      by_cases herr : err = .notFound
      · exact .inr (.inr ⟨trivial, by rw [herr]⟩)
      · refine .inr (.inl ⟨.ofOs (s.root.join p) err, ?_⟩)
        simp [Except.map, herr]
    | ok found =>
      obtain ⟨loc, n⟩ := found
      simp only [Except.map]
      cases hplace : checkPlace d real (s.root.join p) p with
      | error err => exact .inr (.inl ⟨_, rfl⟩)
      | ok _ =>
        cases n with
        | file c k => exact .inl ⟨loc, htext, ⟨c, k, hfind⟩, hplace⟩
        | link | full | dir => exact .inr (.inl ⟨_, rfl⟩)

theorem removeOne_missing (htext : textFault? s.excluded p = none)
    (hfind : d.find false (s.root.join p) = .error .notFound) : (removeOne s real d p).1 = .missing := by
  rw [removeOne, htext]
  simp only [lstat, hfind]
  rfl

theorem removeOne_loses (hlive : s.dryRun = false) : Loses d (removeOne s real d p).2 := by
  by_cases htakes : ∃ loc, Takes s real d p loc
  · obtain ⟨loc, htakes⟩ := htakes
    rw [removeOne_takes htakes hlive]
    exact .of_takes htakes
  · rw [(removeOne_else (not_exists.1 htakes)).2]
    exact .refl d

theorem removeAll_loses (hlive : s.dryRun = false) : Loses d (removeAll s real ps d).2 := by
  induction ps generalizing d with
  | nil => exact .refl d
  | cons p ps ih => exact (removeOne_loses hlive).trans ih

/-- **Once an entry has had its turn**, it takes nothing any more; and unless it was refused, there is nothing
left that it names. -/
theorem removeOne_again (hlive : s.dryRun = false) (h : Loses (removeOne s real d p).2 e) :
    (∀ loc, ¬ Takes s real e p loc)
      ∧ ((∃ err, (removeOne s real d p).1 = .failed err) ∨ (removeOne s real e p).1 = .missing) := by
  have hloses : Loses d e := (removeOne_loses hlive).trans h
  have hgone {loc : Location} (htakes : Takes s real d p loc) : e.root.get? loc = none := by
    rw [removeOne_takes htakes hlive] at h
    exact h.shrinks.get?_eq_none (get?_without_takes htakes)
  refine ⟨fun loc htakes => ?_, ?_⟩
  · obtain ⟨c, k, hfile⟩ := htakes.exists_file
    rw [hgone (hloses.takes htakes)] at hfile
    cases hfile
  · rcases removeOne_cases s real d p with ⟨loc, htakes⟩ | hfailed | ⟨htext, hfind⟩
    · obtain ⟨c, k, hfind⟩ := htakes.leads
      refine .inr (removeOne_missing htakes.text (find_of_missing hloses ?_))
      rw [find_eq_ok.1 hfind]
      exact hgone htakes
    · exact .inl hfailed
    · refine .inr (removeOne_missing htext (find_of_missing hloses ?_))
      rw [find] at hfind
      cases hresolve : d.resolve false (s.root.join p) with
      | error err =>
        rw [hresolve] at hfind
        exact Except.error.inj hfind
      | ok spot =>
        rw [hresolve] at hfind
        cases spot with
        | free => trivial
        | node => cases hfind

/-- **Once a list has been gone through**, the same holds of each of its entries. -/
theorem removeAll_again (hlive : s.dryRun = false) (h : Loses (removeAll s real ps d).2 e) :
    ∀ g ∈ (removeAll s real ps d).1, (∀ loc, ¬ Takes s real e g.1 loc)
      ∧ ((∃ err, g.2 = .failed err) ∨ (removeOne s real e g.1).1 = .missing) := by
  induction ps generalizing d with
  | nil => simp [removeAll]
  | cons p ps ih =>
    simp only [removeAll, List.forall_mem_cons]
    exact ⟨removeOne_again hlive ((removeAll_loses hlive).trans h), ih h⟩

theorem exists_report (s : Settings) (real : Path) (d : Disk) (hp : p ∈ ps) :
    ∃ r, (p, r) ∈ (removeAll s real ps d).1 := by
  rw [← removeAll_map_fst s real ps d] at hp
  obtain ⟨⟨q, r⟩, hmem, rfl⟩ := List.mem_map.1 hp
  exact ⟨r, hmem⟩

theorem mem_errors {report : List (Path × Removal)} {err : Error} :
    (p, err) ∈ errors report ↔ (p, .failed err) ∈ report := by
  rw [errors, List.mem_filterMap]
  constructor
  · intro h
    obtain ⟨⟨q, r⟩, hmem, hr⟩ := h
    cases r with
    | failed =>
      cases hr
      exact hmem
    | removed | missing => cases hr
  · exact fun hmem => ⟨_, hmem, rfl⟩

/-- **A list that has been gone through** finds nothing more to take, and fault only with entries that it found
fault with before. -/
theorem removeAll_removeAll (s : Settings) (real : Path) (ps : List Path) (d : Disk) (hlive : s.dryRun = false) :
    deleted (removeAll s real ps (removeAll s real ps d).2).1 = []
    ∧ (removeAll s real ps (removeAll s real ps d).2).2 = (removeAll s real ps d).2
    ∧ ∀ p err, (p, err) ∈ errors (removeAll s real ps (removeAll s real ps d).2).1 →
      ∃ err', (p, err') ∈ errors (removeAll s real ps d).1 := by
  have hagain := removeAll_again hlive (Loses.refl (removeAll s real ps d).2)
  have hnone : ∀ p ∈ ps, ∀ loc, ¬ Takes s real (removeAll s real ps d).2 p loc := by
    intro p hp
    obtain ⟨r, hr⟩ := exists_report s real d hp
    exact (hagain _ hr).1
  refine ⟨deleted_none hnone, by rw [removeAll_none hnone], fun p err herror => ?_⟩
  rw [removeAll_none hnone, mem_errors, List.mem_map] at herror
  obtain ⟨q, hq, hfailed⟩ := herror
  simp only [Prod.mk.injEq] at hfailed
  obtain ⟨rfl, hfailed⟩ := hfailed
  obtain ⟨r, hfirst⟩ := exists_report s real d hq
  obtain ⟨err', rfl⟩ | hmissing := (hagain _ hfirst).2
  · exact ⟨err', mem_errors.2 hfirst⟩
  · cases hmissing.symm.trans hfailed

/-- Whatever has been removed, the root is the same path as before. -/
theorem realRoot_removeAll (s : Settings) (ps : List Path) (d : Disk) (hlive : s.dryRun = false) :
    realRoot (removeAll s (realRoot d s.root) ps d).2 s.root = realRoot d s.root := by
  by_cases htaken : ∃ p ∈ ps, ∃ loc, Takes s (realRoot d s.root) d p loc
  · obtain ⟨p, -, loc, htakes⟩ := htaken
    obtain ⟨hne, hrelative⟩ := checkBelow_eq_none (checkBelow_of_textFault htakes.text).1
    obtain ⟨c, k, hfind⟩ := htakes.leads
    by_cases hroot : s.root.text = ""
    · -- No path leads anywhere without a text.
      have herror (d : Disk) : d.canonical s.root = .error .notFound := by
        have hrefusal : textRefusal? s.root = some .notFound := by simp [textRefusal?, hroot]
        rw [canonical, find_eq_error (by rw [resolve_eq, hrefusal])]
      rw [realRoot, herror, realRoot, herror]
    · obtain ⟨dirs, hlead⟩ := exists_leadsTo_of_join hroot hrelative hne hfind
      have hloses : Loses d (removeAll s (realRoot d s.root) ps d).2 := removeAll_loses hlive
      exact realRoot_of_sameWays hlead hloses.ways hloses.workDir
  · push Not at htaken
    rw [removeAll_none htaken]

/-- **Removing the same files again** removes nothing and leaves the disk as it is, and of the entries it finds
fault only with such as it found fault with the first time. -/
theorem run_twice (s : Settings) (paths : List Path) (d : Disk) :
    deleted (run s.live paths (run s.live paths d).2).1 = []
    ∧ (run s.live paths (run s.live paths d).2).2 = (run s.live paths d).2
    ∧ ∀ p err, (p, err) ∈ errors (run s.live paths (run s.live paths d).2).1 →
      ∃ err', (p, err') ∈ errors (run s.live paths d).1 := by
  have hrun : run s.live paths (run s.live paths d).2
      = removeAll s.live (realRoot d s.root) (Path.distinct paths) (run s.live paths d).2 :=
    congrArg (removeAll s.live · (Path.distinct paths) (run s.live paths d).2)
      (realRoot_removeAll s.live (Path.distinct paths) d rfl)
  rw [hrun]
  exact removeAll_removeAll s.live (realRoot d s.root) (Path.distinct paths) d rfl

end Codemod.Deletion
