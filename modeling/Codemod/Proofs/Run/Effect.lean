/-
The effect of a whole run on a tree: files are removed, files are rewritten, and everything else stays as it
is (`execute_effect`). What the walk is meant for (`Candidate`) is rewritten unless the rules leave it
alone, something goes wrong, or a directory above it cannot be listed, which is no error but is
written down (`far_file_kept`).
-/
import Codemod.Proofs.Run.Deletion
import Codemod.Proofs.Run.Rewriting

namespace Codemod

open Disk Node Codemod.Path Text

namespace RunRequest

open Walk

variable {d e : Disk} {l base names : Location} {x : String} {q : RunRequest} {root : Path}
  {g : Progress} {skip : List Path}

/-! ## What a run is meant for -/

/-- A file below the root that a run is meant for: plain, in real directories that are not excluded, with
a name that one of the extensions ends and none of the excluded suffixes. -/
structure Candidate (q : RunRequest) (d : Disk) (base names : Location) : Prop where
  file : ∃ c k, d.root.get? (base ++ names) = some (.file c k)
  unexcluded : ∀ y ∈ names.dropLast, y ∉ q.excludedDirs
  name : ∃ x, names.getLast? = some x ∧ q.extensions.any (endsWith x) = true
    ∧ q.excludedSuffixes.any (endsWith x) = false

/-- A file that was rewritten, and is listed for it: with the permissions that it had, it holds what the
rules make of its text, which is another text. -/
def Rewritten (q : RunRequest) (d e : Disk) (s : Summary) (base names : Location) : Prop :=
  ∃ c k text, d.root.get? (base ++ names) = some (.file c k) ∧ Utf8.decode c = .ok text
    ∧ (q.rules.apply text).content ≠ text
    ∧ e.root.get? (base ++ names) = some (.file (q.rules.apply text).content.toUTF8 k)
    ∧ ⟨"/".intercalate names⟩ ∈ s.modified.map (·.path)

/-- A file that is as it was, and not listed as modified. The rules leave its text alone, or an error is
listed for it, or it is below a directory that is listed because it could not be read. -/
def Kept (q : RunRequest) (d e : Disk) (s : Summary) (base names : Location) : Prop :=
  e.root.get? (base ++ names) = d.root.get? (base ++ names)
    ∧ ⟨"/".intercalate names⟩ ∉ s.modified.map (·.path)
    ∧ ((∃ c k text, d.root.get? (base ++ names) = some (.file c k) ∧ Utf8.decode c = .ok text
        ∧ (q.rules.apply text).content = text)
      ∨ ⟨"/".intercalate names⟩ ∈ s.errors.map (·.path)
      ∨ ∃ dirs, dirs ≠ [] ∧ dirs <+: names.dropLast
        ∧ ⟨"/".intercalate dirs⟩ ∈ s.skipped.map (s.relative ·.path))

theorem isCandidate_pathOf {s : Settings} {front : Location}
    (hnames : ∀ s ∈ l ++ (front ++ [x]), IsName s) :
    isCandidate s (pathOf (l ++ (front ++ [x]))) = true ↔ s.extensions.any (endsWith x) = true
      ∧ s.excludedSuffixes.any (endsWith x) = false
      ∧ ∀ g ∈ s.skip, g.components ≠ (pathOf (l ++ (front ++ [x]))).components := by
  rw [← List.append_assoc] at hnames ⊢
  obtain ⟨hfront, hx⟩ := List.forall_mem_append.1 hnames
  rw [isCandidate, fileName?_pathOf hfront (List.forall_mem_singleton.1 hx)]
  simp [and_assoc]

theorem Candidate.eligible (h : q.Candidate d base names) (hnames : ∀ s ∈ l ++ names, IsName s)
    (hskip : ∀ g ∈ skip, g.components ≠ (pathOf (l ++ names)).components) :
    Eligible (q.walkSettings root skip) d l base names where
  file := h.file
  unexcluded := h.unexcluded
  candidate := by
    obtain ⟨x, hx, hextension, hsuffix⟩ := h.name
    obtain ⟨front, rfl⟩ := List.getLast?_eq_some_iff.1 hx
    exact (isCandidate_pathOf hnames).2 ⟨hextension, hsuffix, hskip⟩

theorem Candidate.of_eligible (h : Eligible (q.walkSettings root skip) d l base names)
    (hne : names ≠ []) (hnames : ∀ s ∈ l ++ names, IsName s) : q.Candidate d base names where
  file := h.file
  unexcluded := h.unexcluded
  name := by
    obtain ⟨front, x, rfl⟩ := (List.eq_nil_or_concat names).resolve_left hne
    have hcandidate := h.candidate
    rw [List.concat_eq_append] at hnames hcandidate ⊢
    obtain ⟨hextension, hsuffix, -⟩ := (isCandidate_pathOf hnames).1 hcandidate
    exact ⟨x, by simp, hextension, hsuffix⟩

/-- A file that the walk gets to is rewritten, or kept for a reason. -/
theorem rewritten_or_kept {s : Summary} (hplaced : Placed d (pathOf (l ++ names)) (base ++ names))
    (hafter : e.root.at? (base ++ names)
      = (rewriteFile d (pathOf (l ++ names)) q.rules false).2.root.at? (base ++ names))
    (hmodified : ⟨"/".intercalate names⟩ ∈ s.modified.map (·.path) ↔
      ∃ r, (rewriteFile d (pathOf (l ++ names)) q.rules false).1 = .ok r ∧ r.isModified = true)
    (herrors : ∀ err, (rewriteFile d (pathOf (l ++ names)) q.rules false).1 = .error err →
      ⟨"/".intercalate names⟩ ∈ s.errors.map (·.path)) :
    q.Rewritten d e s base names ∨ q.Kept d e s base names := by
  obtain ⟨c, k, hfile⟩ := hplaced.exists_file
  rcases hplaced.rewriteFile_cases q.rules hfile with
    ⟨text, r, hdecode, hchange, hr, hchanged, -, hafter'⟩ | ⟨hsame, hwhy⟩
  · exact .inl ⟨c, k, text, hfile, hdecode, hchange, at?_eq_file.1 (hafter.trans hafter'),
      hmodified.2 ⟨r, hr, hchanged⟩⟩
  · rw [hsame, at?_eq_file.2 hfile, at?_eq_file, ← hfile] at hafter
    rcases hwhy with ⟨text, r, hdecode, hsame, hr, hunchanged⟩ | ⟨err, herr⟩
    · refine .inr ⟨hafter, fun hmem => ?_, .inl ⟨c, k, text, hfile, hdecode, hsame⟩⟩
      obtain ⟨r', hr', hchanged⟩ := hmodified.1 hmem
      rw [hr, Except.ok.injEq] at hr'
      simp [← hr', hunchanged] at hchanged
    · refine .inr ⟨hafter, fun hmem => ?_, .inr (.inl (herrors err herr))⟩
      obtain ⟨r', hr', -⟩ := hmodified.1 hmem
      simp [herr] at hr'

/-- What the walk of a live run does with the files it is meant for, and with all else. -/
theorem run_effect (hlive : q.dryRun = false) (hd : d.WellNamed) (htemp : d.TempFree)
    (hl : ∀ s ∈ l, IsName s) (hlead : d.LeadsTo (pathOf l) base) (hroot : g.summary.root = pathOf l)
    (hmodified : g.summary.modified = []) (skip : List Path) (duration : Nat) :
    ∃ w, Walk.run (q.walkSettings (pathOf l) skip) (q.process (pathOf l)) g d = .ok w
      ∧ (w.value.finish (pathOf l) w.skipped duration).summary.root = pathOf l
      ∧ (w.value.finish (pathOf l) w.skipped duration).summary.deleted = g.summary.deleted
      ∧ (∀ names, Eligible (q.walkSettings (pathOf l) skip) d l base names →
        q.Rewritten d w.disk (w.value.finish (pathOf l) w.skipped duration).summary base names
        ∨ q.Kept d w.disk (w.value.finish (pathOf l) w.skipped duration).summary base names)
      ∧ ∀ loc, (∀ names, Eligible (q.walkSettings (pathOf l) skip) d l base names →
        loc ≠ base ++ names) → w.disk.root.at? loc = d.root.at? loc := by
  obtain ⟨all, w, hrun, hall, hevery, hvalue, hfiles, hrest⟩ :=
    run_process (q := q) hd htemp hl hlead skip g
  obtain ⟨hsroot, hsdeleted, hsmodified, hserrors⟩ := Progress.foldl_note_summary (pathOf l) q.dryRun
    (all.map fun names => q.result d (pathOf (l ++ names))) g
  rw [← hvalue] at hsroot hsdeleted hsmodified hserrors
  rw [hmodified, List.nil_append] at hsmodified
  refine ⟨w, hrun, ?_, ?_, fun names helig => ?_, fun loc hloc => ?_⟩
  · rw [Progress.finish_summary]
    exact hsroot.trans hroot
  · rw [Progress.finish_summary]
    exact hsdeleted
  · rw [Progress.finish_summary]
    have hnames := helig.names hd hl
    have hlisted := mem_modified (q := q) (d := d) hroot
      (fun names hmem => (hall names hmem).1.names hd hl) hnames
    rw [← hsmodified, hlive] at hlisted
    by_cases hmem : names ∈ all
    · refine rewritten_or_kept (hall names hmem).2 (hlive ▸ hfiles names hmem)
        (hlisted.trans (and_iff_right hmem)) fun err herr => ?_
      simp only [Summary.finish, hserrors, List.map_append, List.mem_append]
      exact .inr (mem_errors hroot hmem hnames (hlive ▸ herr))
    · -- The walk did not get there: a directory above could not be listed.
      obtain ⟨c, k, hfile⟩ := helig.file
      have hsame : w.disk.root.at? (base ++ names) = d.root.at? (base ++ names) :=
        hrest _ fun names' hmem' heq => hmem (List.append_cancel_left heq ▸ hmem')
      rw [at?_eq_file.2 hfile, at?_eq_file, ← hfile] at hsame
      obtain ⟨dirs, hne, hdirs, reason, hskipped⟩ := (hevery names helig).resolve_left hmem
      refine .inr ⟨hsame, fun h => hmem (hlisted.1 h).1, .inr (.inr ⟨dirs, hne, hdirs, ?_⟩)⟩
      refine List.mem_map.2 ⟨_, hskipped, relative_pathOf (hsroot.trans hroot) ?_⟩
      obtain ⟨hl, hrest⟩ := List.forall_mem_append.1 hnames
      exact List.forall_mem_append.2
        ⟨hl, fun s hs => hrest s (List.dropLast_subset _ (hdirs.subset hs))⟩
  · exact hrest loc fun names hmem => hloc names (hall names hmem).1

theorem isDir_root {n : Node} {loc : Location} {mode : Nat} {es : Entries}
    (h : n.get? loc = some (.dir mode es)) : n.isDir = true := by
  cases n with
  | dir => rfl
  | file | link | full => cases loc <;> simp [Node.get?] at h

/-- What the removals of a live run remove. -/
theorem removals_spec (hlive : q.dryRun = false) (hlead : d.LeadsTo (d.absolute q.root) base) :
    ∃ gone : List (Path × Location),
      Deletion.deleted (q.removals d).1 = gone.map (fun g => (d.absolute q.root).join g.1)
      ∧ (∀ g ∈ gone, g.1 ∈ Path.distinct q.deletions
        ∧ Deletion.Takes ⟨d.absolute q.root, q.excludedDirs, q.dryRun⟩
          (Deletion.realRoot d (d.absolute q.root)) d g.1 g.2
        ∧ (q.removals d).2.root.at? g.2 = none)
      ∧ (∀ p ∈ Path.distinct q.deletions, ∀ loc,
        Deletion.Takes ⟨d.absolute q.root, q.excludedDirs, q.dryRun⟩
          (Deletion.realRoot d (d.absolute q.root)) d p loc → loc ∈ gone.map (·.2))
      ∧ d.AgreeBut (q.removals d).2 (gone.map (·.2)) := by
  obtain ⟨mode, es, hdir⟩ := hlead.get?
  obtain ⟨gone, hdeleted, hsub, -, htaken, hall, hagree, hgone⟩ :=
    Deletion.removeAll_spec (s := ⟨d.absolute q.root, q.excludedDirs, q.dryRun⟩) _ _ hlive
      (isDir_root hdir)
  exact ⟨gone, hdeleted, fun g hg => ⟨hsub.subset (List.mem_map_of_mem hg), htaken g hg, hgone g hg⟩,
    hall, hagree⟩

variable (names) in
/-- What the walk is meant for, once files have been removed, is what the run is meant for, but for those
files. -/
theorem eligible_iff {gone : List (Path × Location)} (hd : d.WellNamed) (hl : ∀ s ∈ l, IsName s)
    (hroot : d.absolute q.root = pathOf l) (hlead : d.LeadsTo (pathOf l) base)
    (htaken : ∀ g ∈ gone, Deletion.Takes ⟨d.absolute q.root, q.excludedDirs, q.dryRun⟩
      (Deletion.realRoot d (d.absolute q.root)) d g.1 g.2)
    (hgone : ∀ g ∈ gone, e.root.at? g.2 = none) (hagree : d.AgreeBut e (gone.map (·.2))) :
    Eligible (q.walkSettings (pathOf l) (gone.map fun g => (pathOf l).join g.1)) e l base names
      ↔ q.Candidate d base names ∧ base ++ names ∉ gone.map (·.2) := by
  have hshrinks : d.Shrinks e := .of_agreeBut hagree fun loc hloc => by
    obtain ⟨g, hg, rfl⟩ := List.mem_map.1 hloc
    exact hgone g hg
  constructor
  · intro helig
    obtain ⟨mode, es, hdir⟩ := (hagree.leadsTo hlead).get?
    obtain ⟨c, k, hfile⟩ := helig.file
    obtain ⟨-, hunexcluded, hname⟩ := Candidate.of_eligible helig (helig.ne_nil hdir)
      (helig.names (hshrinks.wellNamed hd) hl)
    refine ⟨⟨⟨c, k, hshrinks.file hfile⟩, hunexcluded, hname⟩, fun hmem => ?_⟩
    obtain ⟨g, hg, heq⟩ := List.mem_map.1 hmem
    rw [← at?_eq_file, ← heq, hgone g hg] at hfile
    cases hfile
  · rintro ⟨hc, hmem⟩
    obtain ⟨c, k, hfile⟩ := hc.file
    have hnames := (List.forall_mem_append.1 (hd _ _ hfile)).2
    refine Candidate.eligible ⟨⟨c, k, hagree.file hmem hfile⟩, hc.unexcluded, hc.name⟩
      (List.forall_mem_append.2 ⟨hl, hnames⟩) fun p hp hcomponents => hmem ?_
    -- The list to skip has the components of the file only if the file is among those that are gone.
    obtain ⟨g, hg, rfl⟩ := List.mem_map.1 hp
    rw [← (htaken g hg).eq_of_components hroot hlead hl hnames hfile
      (by rw [hroot]; exact hcomponents)]
    exact List.mem_map_of_mem hg

/-- A rule for one letter. -/
def letterRules : RuleSet := ⟨[⟨"letter", "", .literal "A", .literal "B"⟩], []⟩

theorem letterRules_apply : (letterRules.apply "A").content = "B" := by decide +kernel

def lettersRequest : RunRequest where
  root := ⟨"/"⟩
  rules := letterRules
  extensions := [".ts"]
  excludedDirs := []
  deletions := [⟨"b.ts"⟩]

def lettersDisk : Disk where
  root := .dir 0o755 [("a.ts", .file "A".toUTF8 0o644), ("b.ts", .file "A".toUTF8 0o644)]
  workDir := []

theorem lettersDisk_tidy : lettersDisk.root.Tidy := by
  refine tidy_dir ?_ (by decide)
  simp only [List.forall_mem_cons]
  exact ⟨⟨by decide, tidy_leaf rfl⟩, ⟨by decide, tidy_leaf rfl⟩, by simp⟩

theorem isDir_lettersRequest :
    lettersDisk.isDir (lettersDisk.absolute lettersRequest.root) = true := by
  rw [lettersRequest, absolute_separator rfl]
  exact (leadsTo_separator rfl).isDir

/-- A directory with a link to itself, and a directory with a file. -/
def farDisk (link dir : String) : Disk where
  root := .dir 0o755 [(link, .link "."), (dir, .dir 0o755 [("a.ts", .file "A".toUTF8 0o644)])]
  workDir := []

/-- A run whose root leads many times by way of the link, and by its text alone. -/
def farRequest (l : Location) : RunRequest where
  root := (pathOf (l ++ ["x"])).join ⟨".."⟩
  rules := letterRules
  extensions := [".ts"]
  excludedDirs := []

/-- A name of so many bytes. -/
def longName (n : Nat) : String := String.ofList (List.replicate n 'n')

theorem length_longName (n : Nat) : (longName n).length = n := by simp [longName]

theorem isName_longName {n : Nat} (h : 3 ≤ n) : IsName (longName n) := by
  have hlength (s : String) (hs : s.length < 3) : longName n ≠ s := by
    rintro rfl
    rw [length_longName] at hs
    omega
  refine ⟨hlength _ (by decide), hlength _ (by decide), hlength _ (by decide), ?_⟩
  simp [longName]

theorem utf8ByteSize_longName (n : Nat) : (longName n).utf8ByteSize = n := by
  rw [utf8ByteSize_eq, longName, String.toList_ofList]
  induction n with
  | zero => rfl
  | succ n ih =>
    rw [List.replicate_succ, byteCount_cons, ih, show 'n'.utf8Size = 1 from rfl, Nat.add_comm]

theorem no_nul_longName (n : Nat) : '\x00' ∉ (longName n).toList := by simp [longName]

section Far

variable {link dir : String} (hlink : IsName link) (hsize : link.utf8ByteSize = 240)

include hlink hsize

theorem leadsTo_farRoot (dir : String) (hnul : '\x00' ∉ link.toList) :
    (farDisk link dir).LeadsTo (pathOf (List.replicate 16 link)) [] := by
  have hne : List.replicate 16 link ≠ [] := by simp
  have hrefusal : textRefusal? (pathOf (List.replicate 16 link)) = none := by
    refine textRefusal?_eq_none.2 ⟨?_, pathOf_ne_empty, ?_⟩
    · rw [pathOf_toList hne, List.mem_flatMap]
      rintro ⟨s, hs, hmem⟩
      rw [List.eq_of_mem_replicate hs] at hmem
      simp [hnul] at hmem
    · rw [utf8ByteSize_pathOf hne, List.map_replicate, hsize]
      decide
  have hget : (farDisk link dir).root.get? ([] ++ [link]) = some (.link ".") := by
    simp [farDisk, Node.get?, Entries.get?]
  have hway : walk (farDisk link dir).root true (24 + 16) [] (List.replicate 16 link ++ [])
      = walk (farDisk link dir).root true 24 [] [] :=
    walk_self_links ⟨hlink.ne_here, hlink.ne_up, by rw [hsize]; decide⟩ hget 16 (.inr rfl)
  rw [List.append_nil, walk_stop (get?_nil _)] at hway
  refine ⟨0o755, [(link, .link "."), (dir, .dir 0o755 [("a.ts", .file "A".toUTF8 0o644)])], ?_⟩
  rw [resolve_eq, hrefusal, startsAtRoot_pathOf, if_pos rfl, pathPieces_pathOf fun s hs =>
    List.eq_of_mem_replicate hs ▸ hlink]
  exact hway

omit hlink hsize in
theorem absolute_farRequest {l : Location} (hlead : (farDisk link dir).LeadsTo (pathOf l) [])
    (hl : ∀ s ∈ l, IsName s) (hx : link ≠ "x") (hdx : dir ≠ "x") :
    (farDisk link dir).absolute (farRequest l).root = pathOf l := by
  have hdir : (farDisk link dir).root.get? [] = some (.dir 0o755
      [(link, .link "."), (dir, .dir 0o755 [("a.ts", .file "A".toUTF8 0o644)])]) := get?_nil _
  exact absolute_up hlead hl (by decide) hdir (by simp [Entries.get?, hx, hdx])

omit hlink hsize in
theorem names_of_farDisk {names : Location} {c : ByteArray} {k : Nat}
    (h : (farDisk link dir).root.get? names = some (.file c k)) : names = [dir, "a.ts"] := by
  cases names with
  | nil => simp [farDisk] at h
  | cons x rest =>
    obtain ⟨n, hn, h⟩ := Option.bind_eq_some_iff.1 h
    simp only [Entries.get?, List.find?_cons, List.find?_nil] at hn
    split at hn
    · obtain rfl : Node.link "." = n := by simpa using hn
      cases rest <;> simp [Node.get?] at h
    · split at hn
      · rename_i hx
        obtain rfl := beq_iff_eq.1 hx
        obtain rfl : Node.dir 0o755 [("a.ts", .file "A".toUTF8 0o644)] = n := by simpa using hn
        cases rest with
        | nil => simp at h
        | cons y rest =>
          obtain ⟨m, hm, h⟩ := Option.bind_eq_some_iff.1 h
          simp only [Entries.get?, List.find?_cons, List.find?_nil] at hm
          split at hm
          · rename_i hy
            obtain rfl := beq_iff_eq.1 hy
            obtain rfl : Node.file "A".toUTF8 0o644 = m := by simpa using hm
            cases rest with
            | nil => rfl
            | cons z rest => simp [Node.get?] at h
          · simp at hm
      · simp at hn

omit hlink hsize in
theorem get?_farDisk (hne : link ≠ dir) :
    (farDisk link dir).root.get? [dir, "a.ts"] = some (.file "A".toUTF8 0o644) := by
  simp [farDisk, Node.get?, Entries.get?, hne]

omit hlink hsize in
theorem candidate_far {l : Location} (hne : link ≠ dir) :
    (farRequest l).Candidate (farDisk link dir) [] [dir, "a.ts"] :=
  ⟨⟨_, _, get?_farDisk hne⟩, fun _ _ => List.not_mem_nil, "a.ts", rfl, rfl, rfl⟩

omit hlink hsize in
/-- Where the directory of the file is beyond the reach of its path, the run does not get to it. -/
theorem execute_far {l : Location} (configHash : String) (duration : Nat)
    (hd : (farDisk link dir).WellNamed) (htemp : (farDisk link dir).TempFree)
    (hl : ∀ s ∈ l, IsName s) (hlead : (farDisk link dir).LeadsTo (pathOf l) [])
    (hroot : (farDisk link dir).absolute (farRequest l).root = pathOf l)
    (hne : link ≠ dir) (hfar : textRefusal? (pathOf (l ++ [dir])) ≠ none) :
    ∃ s, ((farRequest l).execute configHash duration (farDisk link dir)).outcome = .ok s
      ∧ s.deleted = [] ∧ s.errors = []
      ∧ ((farRequest l).execute configHash duration (farDisk link dir)).disk.root.get? [dir, "a.ts"]
        = some (.file "A".toUTF8 0o644) := by
  obtain ⟨all, w, hrun, hall, -, hvalue, -, hrest⟩ := run_process (q := farRequest l) hd htemp hl hlead
    [] ((farRequest l).opening configHash (farDisk link dir))
  have hnone : all = [] := List.eq_nil_iff_forall_not_mem.2 fun names hmem => by
    obtain ⟨helig, hplaced⟩ := hall names hmem
    obtain ⟨c, k, hfile⟩ := helig.file
    obtain rfl := names_of_farDisk hfile
    have hnames : ∀ s ∈ l ++ [dir, "a.ts"], IsName s := helig.names hd hl
    generalize hp : pathOf (l ++ [dir, "a.ts"]) = p at hplaced
    generalize [] ++ [dir, "a.ts"] = loc at hplaced
    obtain @⟨l', base', x, hlead', hl', hx', -, -⟩ := hplaced
    have hsame := pathOf_injective hnames (hx'.concat hl') hp
    rw [List.append_cons] at hsame
    obtain ⟨rfl, -⟩ := List.append_inj' hsame rfl
    obtain ⟨mode, es, h⟩ := hlead'
    exact hfar (resolve_eq_ok.1 h).1
  subst hnone
  have hcheck := checkRoot_dir hlead (get?_nil _)
  have hremovals : (farRequest l).removals (farDisk link dir) = ([], farDisk link dir) := rfl
  have hopening := opening_summary (q := farRequest l) (d := farDisk link dir) configHash
  rw [hremovals] at hopening
  rw [execute_eq configHash duration (by rw [hroot]; exact hcheck), hremovals, hroot]
  simp only [Deletion.deleted, List.filterMap_nil, hrun]
  refine ⟨_, rfl, ?_, ?_, ?_⟩
  · rw [Progress.finish_summary, hvalue]
    exact congrArg Summary.deleted hopening
  · rw [Progress.finish_summary, hvalue]
    exact congrArg Summary.errors hopening
  · rw [← at?_eq_file, hrest _ (by simp), at?_eq_file.2 (get?_farDisk hne)]

end Far

theorem farDisk_tidy : (farDisk (longName 240) (longName 255)).root.Tidy := by
  have hlength {n k : Nat} (h : n ≠ k + 9) : longName n ≠ tempName (longName k) := fun heq => by
    have := congrArg String.length heq
    rw [length_tempName, length_longName, length_longName] at this
    omega
  have hfile : (Node.dir 0o755 [("a.ts", .file "A".toUTF8 0o644)]).Tidy := by
    refine tidy_dir ?_ (by decide)
    simp only [List.forall_mem_cons]
    exact ⟨⟨by decide, tidy_leaf rfl⟩, by simp⟩
  refine tidy_dir ?_ ?_
  · simp only [List.forall_mem_cons]
    exact ⟨⟨isName_longName (by decide), tidy_leaf rfl⟩, ⟨isName_longName (by decide), hfile⟩, by simp⟩
  · simp only [List.forall_mem_cons]
    exact ⟨⟨hlength (by decide), hlength (by decide), by simp⟩,
      ⟨hlength (by decide), hlength (by decide), by simp⟩, by simp⟩

end RunRequest

end Codemod
