/-
Removing listed files stays below the root, as long as the root has a text. What the checks look at is the
text of an entry and where the directory of the file really is; what is removed is found by following the
whole path. Both come to the same: the file is an entry of that directory (`file_in_parent`), so that it is
really below the root (`Takes.below_root`), and all that goes is such files (`run_contained`). A root
without a text has no real path, and every path is below it: no place is refused then (`takes_empty_iff`),
and a file goes that a link outside leads to (`outside_file_removed`).
-/
import Codemod.Proofs.Run.Deletion
import Codemod.Proofs.Run.Tidy

namespace Codemod.Deletion

open Disk Node Codemod.Path

variable {s : Settings} {d : Disk} {p root : Path} {loc dirs : Location}

/-- An entry that passes the checks of its text has a component that is a name. -/
theorem exists_name_of_checkBelow (h : p.checkBelow = none) :
    ∃ c ∈ (pieces p.text.toList []).filterMap component?, c ≠ .here := by
  obtain ⟨hne, hrelative⟩ := checkBelow_eq_none h
  rw [checkBelow] at h
  split at h
  · cases h
  · split at h
    · cases h
    · cases h
    · split at h
      · cases h
      · rename_i hall
        simp only [List.all_eq_true, not_forall, beq_iff_eq] at hall
        obtain ⟨c, hc, hhere⟩ := hall
        rw [components, hrelative, if_neg Bool.false_ne_true, List.mem_append] at hc
        refine ⟨c, hc.resolve_left fun hfirst => ?_, hhere⟩
        split at hfirst
        · exact hhere (List.mem_singleton.1 hfirst)
        · cases hfirst

/-- The path of an entry has a parent. -/
theorem exists_parent (hroot : root.text ≠ "") (h : p.checkBelow = none) :
    ∃ parent, (root.join p).parent? = some parent := by
  obtain ⟨-, hrelative⟩ := checkBelow_eq_none h
  obtain ⟨c, hc, -⟩ := exists_name_of_checkBelow h
  obtain ⟨front, hfront⟩ := exists_components_join hroot hrelative
  obtain ⟨more, last, hlast⟩ := (List.eq_nil_or_concat
    ((pieces p.text.toList []).filterMap component?)).resolve_left (List.ne_nil_of_mem hc)
  have hmem : last ∈ (pieces p.text.toList []).filterMap component? := by simp [hlast]
  have hback : (root.join p).components.reverse = last :: (front ++ more).reverse := by
    rw [hfront, hlast]
    simp
  obtain ⟨piece, hpiece, hname⟩ := List.mem_filterMap.1 hmem
  rw [parent?, hback]
  rcases component?_cases (no_separator_of_mem_pieces (by simp) hpiece) hname with rfl | ⟨x, -, rfl⟩
    <;> exact ⟨_, rfl⟩

/-- **What is below the real root by its text is really below the root.** If the root has no real path, it is
because that path is too long, and the path as it is written stands for it. -/
theorem prefix_of_below (hd : d.WellNamed) (hroot : root.text ≠ "") (hlead : d.LeadsTo root loc)
    {mode : Nat} {es : Entries} (hdirs : d.root.get? dirs = some (.dir mode es))
    (hbelow : ((pathOf dirs).below? (realRoot d root)).isSome = true) : loc <+: dirs := by
  have hnames := hd _ _ hdirs
  have hprefix : (realRoot d root).components <+: .root :: dirs.map .name := by
    rw [← components_pathOf hnames, ← List.isPrefixOf_iff_prefix]
    rw [below?] at hbelow
    split at hbelow
    · assumption
    · cases hbelow
  have hinjective : Function.Injective Component.name := fun _ _ => Component.name.inj
  obtain ⟨rmode, res, hresolve⟩ := hlead
  have hloc := get?_of_resolve hresolve
  rw [realRoot, canonical, find_eq_ok.2 hresolve] at hprefix
  by_cases hlong : (pathOf loc).text.utf8ByteSize ≥ pathLimit
  · -- The components of the root as it is written are names of real directories.
    simp only [if_pos hlong] at hprefix
    have habs : root.isAbsolute = true := by
      by_contra hrelative
      obtain ⟨c, rest, hcomponents, hc⟩ :=
        exists_components_of_relative (Bool.eq_false_iff.2 hrelative) hroot
      rw [hcomponents] at hprefix
      exact hc (List.cons_prefix_cons.1 hprefix).1
    obtain ⟨l, hl, hcomponents⟩ : ∃ l, l <+: dirs ∧ root.components = .root :: l.map .name := by
      have hfirst : root.components
          = .root :: (pieces root.text.toList []).filterMap component? := by
        rw [components, habs]
        rfl
      rw [hfirst] at hprefix ⊢
      obtain ⟨l, hl, heq⟩ := List.prefix_map_iff.1 (List.cons_prefix_cons.1 hprefix).2
      exact ⟨l, hl, by rw [heq]⟩
    have hup : .up ∉ root.components := by simp [hcomponents]
    have hpieces := pathPieces_of_components habs hcomponents
    obtain ⟨rest, rfl⟩ := hl
    obtain ⟨n, hn, hlink⟩ : ∃ n, d.root.get? l = some n ∧ n.isLink = false := by
      cases rest with
      | nil => exact ⟨_, by simpa using hdirs, rfl⟩
      | cons x rest =>
        obtain ⟨m, ns, h⟩ := exists_dir_above hdirs
        exact ⟨_, h, rfl⟩
    have hway := (resolve_eq_ok.1 hresolve).2
    rw [show startsAtRoot root.text = true from habs, if_pos rfl] at hway
    have hend := hway.eq_of_names (by rw [hpieces]; exact hn) hlink (no_up_of_components hup)
    rw [hpieces] at hend
    rw [(Spot.node.inj hend).1]
    exact List.prefix_append l rest
  · simp only [if_neg hlong] at hprefix
    rw [components_pathOf (hd _ _ hloc)] at hprefix
    exact (List.prefix_map_iff_of_injective hinjective).1 (List.cons_prefix_cons.1 hprefix).2

/-- **A file that an entry leads to is really below the root.** -/
theorem Takes.below_root (hd : d.WellNamed) (hroot : s.root.text ≠ "")
    (h : Takes s (realRoot d s.root) d p loc) : ∃ base, d.LeadsTo s.root base ∧ base <+: loc := by
  obtain ⟨hbelow, -⟩ := checkBelow_of_textFault h.text
  obtain ⟨hne, hrelative⟩ := checkBelow_eq_none hbelow
  obtain ⟨c, k, hfind⟩ := h.leads
  obtain ⟨base, hlead⟩ := exists_leadsTo_of_join hroot hrelative hne hfind
  obtain ⟨parent, hparent⟩ := exists_parent hroot hbelow
  have hplace := h.place
  rw [checkPlace, hparent] at hplace
  simp only [canonical] at hplace
  cases hfind' : d.find true parent with
  | error err => simp [hfind'] at hplace
  | ok found =>
    obtain ⟨dirs, m⟩ := found
    rw [hfind'] at hplace
    obtain ⟨x, rfl⟩ := file_in_parent hparent hfind hfind'
    obtain ⟨hm, -⟩ := walks_of_parent hparent hfind hfind'
    cases m with
    | file | link | full => simp [Node.isDir] at hm
    | dir mode es =>
      refine ⟨base, hlead, .trans ?_ (List.prefix_append dirs [x])⟩
      refine prefix_of_below hd hroot hlead (get?_of_resolve (find_eq_ok.1 hfind')) ?_
      by_cases hlong : (pathOf dirs).text.utf8ByteSize ≥ pathLimit
      · simp only [if_pos hlong] at hplace
        cases hplace
      · simp only [if_neg hlong] at hplace
        by_contra hnot
        simp only [if_neg hnot] at hplace
        cases hplace

/-! ## A root without a text -/

theorem empty_join (p : Path) : (⟨""⟩ : Path).join p = p := by
  rw [join]
  split
  · rfl
  · rw [if_pos (by decide), String.empty_append]

theorem realRoot_empty (d : Disk) : realRoot d ⟨""⟩ = ⟨""⟩ := by
  have hresolve : d.resolve true ⟨""⟩ = .error .notFound := by
    rw [resolve, if_neg (by decide), if_pos (by decide)]
  rw [realRoot, canonical, find, hresolve]
  rfl

/-- Every path is below the one that has no components. -/
theorem isSome_below?_empty (p : Path) : (p.below? ⟨""⟩).isSome = true := by
  have hnone : (⟨""⟩ : Path).components = [] := by decide
  rw [below?, hnone]
  rfl

theorem checkPlace_empty_iff {full : Path} :
    checkPlace d ⟨""⟩ full p = .ok () ↔ ∀ parent ∈ full.parent?, ∃ real, d.canonical parent = .ok real := by
  rw [checkPlace]
  cases full.parent? with
  | none => simp
  | some parent =>
    simp only [isSome_below?_empty, if_true, Option.mem_some_iff, forall_eq']
    cases d.canonical parent <;> simp

/-- **With a root that has no text, an entry takes whatever file it leads to**, wherever that is, as soon as
the directory of the file has a real path. -/
theorem takes_empty_iff (hroot : s.root.text = "") :
    Takes s (realRoot d s.root) d p loc ↔ textFault? s.excluded p = none
      ∧ (∃ c k, d.find false p = .ok (loc, .file c k))
      ∧ ∀ parent ∈ p.parent?, ∃ real, d.canonical parent = .ok real := by
  have hempty : s.root = ⟨""⟩ := congrArg Path.mk hroot
  have hjoin : s.root.join p = p := hempty ▸ empty_join p
  constructor
  · rintro ⟨htext, hleads, hplace⟩
    rw [hjoin] at hleads hplace
    rw [hempty, realRoot_empty, checkPlace_empty_iff] at hplace
    exact ⟨htext, hleads, hplace⟩
  · rintro ⟨htext, hleads, hplace⟩
    refine ⟨htext, hjoin.symm ▸ hleads, ?_⟩
    rw [hjoin, hempty, realRoot_empty, checkPlace_empty_iff]
    exact hplace

/-- **Removing listed files stays below the root.** Only plain files go; each was named by a listed entry,
relative and without `..`, and was really below the root, if the root has a text. The files that go are
reported in the order of the list, each once; they are those that an entry leads to with all checks
passed, and all else is as before. A dry run leaves everything as it is. Where the root has no text, the
place of a file is not checked. -/
theorem run_contained (s : Settings) (paths : List Path) (hd : d.WellNamed)
    (hdir : d.root.isDir = true) : (∃ gone : List (Path × Location),
      (s.dryRun = false →
        deleted (run s paths d).1 = gone.map fun g => s.root.join g.1)
      ∧ (s.dryRun = false → ∀ p ∈ Path.distinct paths, ∀ loc,
        Takes s (realRoot d s.root) d p loc → loc ∈ gone.map (·.2))
      ∧ (s.dryRun = true → gone = [])
      ∧ (gone.map (·.1)).Sublist (Path.distinct paths)
      ∧ (gone.map (·.2)).Nodup
      ∧ (∀ g ∈ gone, g.1.isAbsolute = false ∧ .up ∉ g.1.components
        ∧ (∃ c k, d.find false (s.root.join g.1) = .ok (g.2, .file c k))
        ∧ (s.root.text ≠ "" → ∃ base, d.LeadsTo s.root base ∧ base <+: g.2)
        ∧ (run s paths d).2.root.get? g.2 = none)
      ∧ ∀ loc, loc ∉ gone.map (·.2) → (run s paths d).2.root.at? loc = d.root.at? loc)
    -- What an entry takes, if the root has no text.
    ∧ (s.root.text = "" → ∀ p loc, Takes s (realRoot d s.root) d p loc ↔
      textFault? s.excluded p = none ∧ (∃ c k, d.find false p = .ok (loc, .file c k))
        ∧ ∀ parent ∈ p.parent?, ∃ real, d.canonical parent = .ok real) := by
  refine ⟨?_, fun hroot p loc => takes_empty_iff hroot⟩
  cases hdry : s.dryRun with
  | true =>
    have hsame : (run s paths d).2 = d := removeAll_dry hdry
    exact ⟨[], by simp, by simp, fun _ => rfl, List.nil_sublist _, .nil, by simp,
      fun loc _ => by rw [hsame]⟩
  | false =>
    obtain ⟨gone, hdeleted, hsub, hnodup, htaken, hall, hagree, hgone⟩ :=
      removeAll_spec (realRoot d s.root) (Path.distinct paths) hdry hdir
    refine ⟨gone, fun _ => hdeleted, fun _ => hall, by simp, hsub, hnodup, fun g hg => ?_,
      fun loc hloc => hagree.at?_eq loc hloc⟩
    have htakes := htaken g hg
    obtain ⟨hbelow, -⟩ := checkBelow_of_textFault htakes.text
    exact ⟨(checkBelow_eq_none hbelow).2, no_up_of_checkBelow hbelow, htakes.leads,
      fun hroot => htakes.below_root hd hroot, at?_eq_none.1 (hgone g hg)⟩

/-- A directory to work in has a link that leads out of it and one that does not. -/
def workEntries : Entries :=
  [("away", .link "../out"), ("b.ts", .file "B".toUTF8 0o644), ("near", .link ".")]

def workDisk : Disk where
  root := .dir 0o755 [("out", .dir 0o755 [("a.ts", .file "A".toUTF8 0o644)]),
    ("work", .dir 0o755 workEntries)]
  workDir := []

theorem workDisk_tidy : workDisk.root.Tidy := by
  refine tidy_dir ?_ (by decide)
  simp only [List.forall_mem_cons]
  refine ⟨⟨by decide, tidy_dir ?_ (by decide)⟩, ⟨by decide, tidy_dir ?_ (by decide)⟩, by simp⟩
  · simp only [List.forall_mem_cons]
    exact ⟨⟨by decide, tidy_leaf rfl⟩, by simp⟩
  · simp only [workEntries, List.forall_mem_cons]
    exact ⟨⟨by decide, tidy_leaf rfl⟩, ⟨by decide, tidy_leaf rfl⟩, ⟨by decide, tidy_leaf rfl⟩, by simp⟩

/-- The directory, and its link to itself, lead to what is in it. -/
theorem walks_work {follow : Bool} {links : Nat} {rest : List String} {spot : Spot}
    (h : Walks workDisk.root follow links ["work"] rest spot) :
    Walks workDisk.root follow links [] ("work" :: rest) spot :=
  .down ⟨by decide, by decide, by decide⟩ rfl rfl h

theorem walks_near {follow : Bool} {links : Nat} {rest : List String} {spot : Spot}
    (hrest : rest ≠ [] ∨ follow = true) (h : Walks workDisk.root follow links ["work"] rest spot) :
    Walks workDisk.root follow (links + 1) [] ("work" :: "near" :: rest) spot := by
  refine walks_work (.follow ⟨by decide, by decide, by decide⟩ (t := ".") rfl hrest ?_)
  exact .stay rfl h

theorem leadsTo_work : workDisk.LeadsTo ⟨"/work"⟩ ["work"] := by
  have hpieces : pathPieces "/work" = ["work"] := by decide
  refine ⟨0o755, workEntries, resolve_eq_ok.2 ⟨by decide, ?_⟩⟩
  rw [hpieces, if_pos (by decide)]
  exact walks_work (.stop rfl)

theorem takes_near : Takes ⟨⟨"/work"⟩, [], false⟩ (realRoot workDisk ⟨"/work"⟩) workDisk
    ⟨"near/./b.ts"⟩ ["work", "b.ts"] := by
  have hjoin : (⟨"/work"⟩ : Path).join ⟨"near/./b.ts"⟩ = ⟨"/work/near/./b.ts"⟩ := by decide
  have hparent : (⟨"/work/near/./b.ts"⟩ : Path).parent? = some ⟨"/work/near"⟩ := by decide
  have hfile : pathPieces "/work/near/./b.ts" = ["work", "near", ".", "b.ts"] := by decide
  have hdir : pathPieces "/work/near" = ["work", "near"] := by decide
  have hnear : workDisk.LeadsTo ⟨"/work/near"⟩ ["work"] := by
    refine ⟨0o755, workEntries, resolve_eq_ok.2 ⟨by decide, ?_⟩⟩
    rw [hdir, if_pos (by decide)]
    exact walks_near (.inr rfl) (.stop rfl)
  refine ⟨by decide, ⟨"B".toUTF8, 0o644, find_eq_ok.2 (resolve_eq_ok.2 ⟨by decide, ?_⟩)⟩, ?_⟩
  · simp only [hjoin]
    rw [hfile, if_pos (by decide)]
    exact walks_near (.inl (by simp))
      (.stay rfl (.down ⟨by decide, by decide, by decide⟩ rfl rfl (.stop rfl)))
  · simp only [hjoin]
    rw [checkPlace, hparent, realRoot, canonical_of_leadsTo leadsTo_work (by decide)]
    simp only [canonical_of_leadsTo hnear (by decide)]
    rw [if_pos (by decide)]

/-- By way of links, a file of the directory goes, and a file outside of it stays. -/
theorem run_contained_links : workDisk.WellNamed ∧ workDisk.root.isDir = true
    ∧ (run ⟨⟨"/work"⟩, [], false⟩ [⟨"away/a.ts"⟩, ⟨"near/./b.ts"⟩] workDisk).2.root.get?
      ["work", "b.ts"] = none
    ∧ (run ⟨⟨"/work"⟩, [], false⟩ [⟨"away/a.ts"⟩, ⟨"near/./b.ts"⟩] workDisk).2.root.get?
      ["out", "a.ts"] = some (.file "A".toUTF8 0o644) := by
  obtain ⟨⟨gone, -, hall, -, -, -, hgone, hrest⟩, -⟩ :=
    run_contained ⟨⟨"/work"⟩, [], false⟩ [⟨"away/a.ts"⟩, ⟨"near/./b.ts"⟩] workDisk_tidy.named rfl
  have hnear : (⟨"near/./b.ts"⟩ : Path) ∈ Path.distinct [⟨"away/a.ts"⟩, ⟨"near/./b.ts"⟩] := by decide
  refine ⟨workDisk_tidy.named, rfl, ?_, ?_⟩
  · obtain ⟨g, hg, heq⟩ := List.mem_map.1 (hall rfl _ hnear _ takes_near)
    rw [← heq]
    exact (hgone g hg).2.2.2.2
  · rw [← at?_eq_file, hrest, at?_eq_file]
    · rfl
    · intro hmem
      obtain ⟨g, hg, heq⟩ := List.mem_map.1 hmem
      obtain ⟨base, hlead, hbase⟩ := (hgone g hg).2.2.2.1 (by decide)
      rw [heq, hlead.unique leadsTo_work] at hbase
      exact absurd hbase (by decide)

/-- The same tree, seen from the directory to work in. -/
def workingDisk : Disk := { workDisk with workDir := ["work"] }

/-- A relative path is followed from there. -/
theorem resolve_working {text : String} {ps : List String} {follow : Bool} {spot : Spot}
    (htext : textRefusal? ⟨text⟩ = none) (hstart : startsAtRoot text = false) (hpieces : pathPieces text = ps)
    (h : Walks workingDisk.root follow maxLinks ["work"] ps spot) :
    workingDisk.resolve follow ⟨text⟩ = .ok spot := by
  refine resolve_eq_ok.2 ⟨htext, ?_⟩
  rw [hstart, if_neg Bool.false_ne_true, hpieces]
  exact h

/-- The link that leads out of the directory leads to what is there. -/
theorem walks_away {follow : Bool} {links : Nat} {rest : List String} {spot : Spot}
    (hrest : rest ≠ [] ∨ follow = true) (h : Walks workingDisk.root follow links ["out"] rest spot) :
    Walks workingDisk.root follow (links + 1) ["work"] ("away" :: rest) spot := by
  refine .follow ⟨by decide, by decide, by decide⟩ (t := "../out") rfl hrest ?_
  exact .up rfl (.down ⟨by decide, by decide, by decide⟩ rfl rfl h)

theorem walks_away_file : Walks workingDisk.root false maxLinks ["work"] ["away", "a.ts"]
    (.node ["out", "a.ts"] (.file "A".toUTF8 0o644)) :=
  walks_away (.inl (by simp)) (.down ⟨by decide, by decide, by decide⟩ rfl rfl (.stop rfl))

theorem walks_away_dir : Walks workingDisk.root true maxLinks ["work"] ["away"]
    (.node ["out"] (.dir 0o755 [("a.ts", .file "A".toUTF8 0o644)])) :=
  walks_away (.inr rfl) (.stop rfl)

theorem takes_away : Takes ⟨⟨""⟩, [], false⟩ (realRoot workingDisk ⟨""⟩) workingDisk ⟨"away/a.ts"⟩
    ["out", "a.ts"] := by
  have hfind : workingDisk.find false ⟨"away/a.ts"⟩ = .ok (["out", "a.ts"], .file "A".toUTF8 0o644) :=
    find_eq_ok.2 (resolve_working (by decide) (by decide) (by decide) walks_away_file)
  have hparent : (⟨"away/a.ts"⟩ : Path).parent? = some ⟨"away"⟩ := by decide
  have hlead : workingDisk.LeadsTo ⟨"away"⟩ ["out"] :=
    ⟨_, _, resolve_working (by decide) (by decide) (by decide) walks_away_dir⟩
  refine (takes_empty_iff rfl).2 ⟨by decide, ⟨_, _, hfind⟩, ?_⟩
  rw [hparent]
  rintro _ ⟨⟩
  exact ⟨_, canonical_of_leadsTo hlead (by decide)⟩

/-- With the directory itself as the root, the entry is refused. -/
theorem removeOne_away : removeOne ⟨⟨"."⟩, [], false⟩ (realRoot workingDisk ⟨"."⟩) workingDisk ⟨"away/a.ts"⟩
    = (refused ⟨"away/a.ts"⟩ "resolves outside the run root", workingDisk) := by
  have htext : textFault? [] ⟨"away/a.ts"⟩ = none := by decide
  have hjoin : (⟨"."⟩ : Path).join ⟨"away/a.ts"⟩ = ⟨"./away/a.ts"⟩ := by decide
  have hfind : workingDisk.find false ⟨"./away/a.ts"⟩ = .ok (["out", "a.ts"], .file "A".toUTF8 0o644) :=
    find_eq_ok.2 (resolve_working (by decide) (by decide) (by decide) (.stay rfl walks_away_file))
  have hplace : checkPlace workingDisk (realRoot workingDisk ⟨"."⟩) ⟨"./away/a.ts"⟩ ⟨"away/a.ts"⟩
      = .error (.deletionRefused ⟨"away/a.ts"⟩ "resolves outside the run root") := by
    have hparent : (⟨"./away/a.ts"⟩ : Path).parent? = some ⟨"./away"⟩ := by decide
    have hroot : workingDisk.LeadsTo ⟨"."⟩ ["work"] :=
      ⟨_, _, resolve_working (by decide) (by decide) (by decide) (.stay rfl (.stop rfl))⟩
    have hlead : workingDisk.LeadsTo ⟨"./away"⟩ ["out"] :=
      ⟨_, _, resolve_working (by decide) (by decide) (by decide) (.stay rfl walks_away_dir)⟩
    rw [checkPlace, hparent, realRoot, canonical_of_leadsTo hroot (by decide)]
    simp only [canonical_of_leadsTo hlead (by decide)]
    rw [if_neg (by decide)]
  simp only [removeOne, htext, hjoin, lstat, hfind, Except.map, hplace]
  rfl

/-- **A file outside of the root is removed** by way of a link, if the root has no text; with the root `.`, from
which the entry leads to the same file, it is refused. -/
theorem outside_file_removed : workingDisk.WellNamed ∧ workingDisk.root.isDir = true
    ∧ workingDisk.root.get? ["out", "a.ts"] = some (.file "A".toUTF8 0o644)
    ∧ ¬ workingDisk.workDir <+: ["out", "a.ts"]
    ∧ (¬ ∃ base, workingDisk.LeadsTo ⟨""⟩ base ∧ base <+: ["out", "a.ts"])
    ∧ deleted (run ⟨⟨""⟩, [], false⟩ [⟨"away/a.ts"⟩] workingDisk).1 = [⟨"away/a.ts"⟩]
    ∧ (run ⟨⟨""⟩, [], false⟩ [⟨"away/a.ts"⟩] workingDisk).2.root.get? ["out", "a.ts"] = none
    ∧ run ⟨⟨"."⟩, [], false⟩ [⟨"away/a.ts"⟩] workingDisk
      = ([(⟨"away/a.ts"⟩, refused ⟨"away/a.ts"⟩ "resolves outside the run root")], workingDisk) := by
  have hnone : ¬ ∃ base, workingDisk.LeadsTo ⟨""⟩ base ∧ base <+: ["out", "a.ts"] := by
    rintro ⟨base, hlead, -⟩
    exact hlead.text_ne_empty rfl
  have hrun : run ⟨⟨""⟩, [], false⟩ [⟨"away/a.ts"⟩] workingDisk
      = ([(⟨"away/a.ts"⟩, .removed ⟨"away/a.ts"⟩)], workingDisk.without ["out", "a.ts"]) := by
    have hone := removeOne_takes takes_away rfl
    rw [empty_join] at hone
    simp only [run, Path.distinct, List.filter_nil, removeAll, hone]
  refine ⟨workDisk_tidy.named, rfl, rfl, by decide, hnone, ?_, ?_, ?_⟩
  · rw [hrun]
    rfl
  · rw [hrun]
    rfl
  · simp only [run, Path.distinct, List.filter_nil, removeAll, removeOne_away]

end Codemod.Deletion
