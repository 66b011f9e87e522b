/-
The changes that a run prints for programs. They are told of the records of the run, one for each file that the
summary lists as modified, in the same order (`run_diffs`): each is how the rules change the text that the file held
before the run, and none is empty. The root that the paths are shown from is resolved before the log is opened, and
that of the summary after it, so that the paths are the same if both are.
-/
import Codemod.CommandLine.Run
import Codemod.Proofs.CommandLine.Rules
import Codemod.Proofs.Diff.Unified
import Codemod.Proofs.Log.Opening
import Codemod.Proofs.Run.Originals

namespace Codemod

open Disk Codemod.Path Text

/-! ## Paths as seen from a root -/

namespace Path

variable {l m l' : Location}

theorem relativeTo_pathOf (hl : ∀ s ∈ l, IsName s) (hm : ∀ s ∈ m, IsName s) :
    (pathOf (l ++ m)).relativeTo (pathOf l) = "/".intercalate m := by
  rw [relativeTo, below?_pathOf hl hm]
  rfl

theorem isAbsolute_intercalate (hm : ∀ s ∈ m, IsName s) : (⟨"/".intercalate m⟩ : Path).isAbsolute = false := by
  cases m with
  | nil => rfl
  | cons s m =>
    rw [List.forall_mem_cons] at hm
    rw [isAbsolute, intercalate_toList_cons, List.head?_append_of_ne_nil _ hm.1.toList_ne_nil]
    exact isAbsolute_name hm.1

/-- The same names are seen from no other root. -/
theorem eq_of_relativeTo (hl : ∀ s ∈ l, IsName s) (hl' : ∀ s ∈ l', IsName s) (hm : ∀ s ∈ m, IsName s)
    (h : (pathOf (l ++ m)).relativeTo (pathOf l') = "/".intercalate m) : l' = l := by
  have hall : ∀ s ∈ l ++ m, IsName s := List.forall_mem_append.2 ⟨hl, hm⟩
  by_cases hprefix : l' <+: l ++ m
  · obtain ⟨rest, hrest⟩ := hprefix
    rw [← hrest] at h hall
    have hnames := (List.forall_mem_append.1 hall).2
    rw [relativeTo_pathOf hl' hnames] at h
    obtain rfl : rest = m := pathOf_injective hnames hm (by rw [pathOf, pathOf, h])
    exact List.append_cancel_right hrest
  · have hnot : (pathOf (l ++ m)).below? (pathOf l') = none := by
      have hheads : (pathOf l').components.isPrefixOf (pathOf (l ++ m)).components = false := by
        rw [components_pathOf hl', components_pathOf hall, Bool.eq_false_iff, ne_eq, List.isPrefixOf_iff_prefix,
          List.cons_prefix_cons, not_and]
        exact fun _ h => hprefix ((List.prefix_map_iff_of_injective fun _ _ => Component.name.inj).1 h)
      rw [below?, hheads]
      rfl
    rw [relativeTo, hnot] at h
    have habsolute : (⟨(pathOf (l ++ m)).text⟩ : Path).isAbsolute = true := isAbsolute_pathOf
    rw [show (pathOf (l ++ m)).text = "/".intercalate m from h, isAbsolute_intercalate hm] at habsolute
    cases habsolute

end Path

namespace CommandLine

open Data

variable {s : Surroundings} {o : Options} {d : Disk} {c : Config} {q : RunRequest} {base : Location}
  {summary : Summary} {logging : LoggingSettings} {hash : String}

/-! ## The disk with the log open -/

/-- The disk that a run begins with: its log is open, if it has one. -/
def openedDisk (logging : LoggingSettings) (d : Disk) : Disk :=
  if logging.enabled then (Log.start { path := logging.path } d).disk else d

/-- The file that a run logs to is at a place. -/
def IsLogged (logging : LoggingSettings) (d : Disk) (place : Location) : Prop :=
  logging.enabled = true ∧ ∃ f ∈ (Log.start { path := logging.path } d).file, f.place = place

/-- The log that is opened leaves what was there. -/
theorem extends_openedDisk (logging : LoggingSettings) (d : Disk) :
    d.Extends (IsLogged logging d) (openedDisk logging d) := by
  rw [openedDisk]
  by_cases h : logging.enabled = true
  · rw [if_pos h]
    exact (Log.extends_start _ d rfl).mono fun place hplace => ⟨h, hplace⟩
  · rw [if_neg h]
    exact .refl _ d

theorem executeLogged_outcome (s : Surroundings) (logging : LoggingSettings) (q : RunRequest) (hash : String)
    (d : Disk) : (executeLogged s logging q hash d).1.outcome
      = (q.execute hash s.duration (openedDisk logging d)).outcome := by
  rw [executeLogged, openedDisk]
  split <;> rfl

theorem executeLogged_records (s : Surroundings) (logging : LoggingSettings) (q : RunRequest) (hash : String)
    (d : Disk) : (executeLogged s logging q hash d).1.records
      = (q.execute hash s.duration (openedDisk logging d)).records := by
  rw [executeLogged, openedDisk]
  split <;> rfl

/-! ## What is printed -/

theorem run_output {root : Option Path} {dryRun : Bool} (hprograms : audience s o = .programs)
    (hsettings : runSettings s o root dryRun d = .ok c) (hrequest : RunRequest.ofConfig c = .ok q)
    (hcompletes : (executeLogged s c.logging q c.hash d).1.outcome = .ok summary) :
    (run s o root dryRun true d).output = jsonLine (runValue c.hash summary
      (some (FileDiff.ofRecords (d.absolute c.engine.root) (executeLogged s c.logging q c.hash d).1.records))) := by
  rw [run, hsettings]
  simp only [bind, Except.bind, hrequest, pure, Except.pure, hcompletes, if_true, reportRun, hprograms]

/-- Files are shown under the paths of the summary if there are none, or if they are shown from its root. -/
theorem paths_eq_iff {l l' : Location} {records : List FileRecord} (hl' : ∀ s ∈ l', IsName s)
    (h : ∀ r ∈ records, ∃ names, q.Original d l base names r) :
    (records.map (FileDiff.ofRecord (pathOf l'))).map (·.path) = records.map (·.path.relativeTo (pathOf l))
      ↔ records = [] ∨ pathOf l' = pathOf l := by
  rw [List.map_map, List.map_inj_left]
  constructor
  · intro hsame
    rw [or_iff_not_imp_left]
    intro hne
    obtain ⟨r, hr⟩ := List.exists_mem_of_ne_nil records hne
    obtain ⟨names, horiginal⟩ := h r hr
    obtain ⟨hl, hnames⟩ := List.forall_mem_append.1 horiginal.named
    have hseen : r.path.relativeTo (pathOf l') = r.path.relativeTo (pathOf l) := hsame r hr
    rw [horiginal.path, relativeTo_pathOf hl hnames] at hseen
    rw [eq_of_relativeTo hl hl' hnames hseen]
  · rintro (rfl | hroots) r hr
    · cases hr
    · rw [hroots]
      rfl

/-- What is printed of a modified file is how the rules change the text that the file has on a disk, and it is
not empty. -/
def Tells (q : RunRequest) (d : Disk) (base : Location) (m : FileSummary) (f : FileDiff) : Prop :=
  ∃ names c k text, m.path = ⟨"/".intercalate names⟩ ∧ d.root.get? (base ++ names) = some (.file c k)
    ∧ Utf8.decode c = .ok text ∧ f.diff = Diff.unified f.path text (q.rules.apply text).content ∧ f.diff ≠ ""

/-- **The changes that a run prints match its summary.** There is one for each modified file, in the same order:
how the rules change the text that the file held before the run, whether the run is a dry one or not. Their paths
are those of the summary if no file is modified, or if both are shown from the same root; so they are if there is
no log, or the root led somewhere before it was opened. The log is not one of the files that the run may come to, and
beside none of these there is a link through which another one would be written. -/
theorem run_diffs {root : Option Path} {dryRun : Bool} (hprograms : audience s o = .programs)
    (hsettings : runSettings s o root dryRun d = .ok c) (hrequest : RunRequest.ofConfig c = .ok q)
    (hcompletes : (executeLogged s c.logging q c.hash d).1.outcome = .ok summary) (hd : d.WellNamed)
    (hlog : ∀ base names, (openedDisk c.logging d).LeadsTo summary.root base →
      q.Candidate (openedDisk c.logging d) base names → ¬ IsLogged c.logging d (base ++ names))
    (hlinks : q.dryRun = false → ∀ base, (openedDisk c.logging d).LeadsTo summary.root base →
      q.Unlinked (openedDisk c.logging d) base) :
    ∃ base diffs, (openedDisk c.logging d).LeadsTo summary.root base
      ∧ (run s o root dryRun true d).output = jsonLine (runValue c.hash summary (some diffs))
      ∧ List.Forall₂ (Tells q d base) summary.modified diffs
      ∧ (diffs.map (·.path) = summary.modified.map (·.path.text)
        ↔ summary.modified = [] ∨ d.absolute c.engine.root = summary.root)
      ∧ (c.logging.enabled = false ∨ d.exists? (d.here.join c.engine.root) = true →
        d.absolute c.engine.root = summary.root) := by
  have hextends := extends_openedDisk c.logging d
  have houtput := run_output hprograms hsettings hrequest hcompletes
  rw [executeLogged_outcome] at hcompletes
  rw [executeLogged_records] at houtput
  have hqroot : q.root = c.engine.root := by
    obtain ⟨set, -, h⟩ := exists_of_bind hrequest
    cases h
    rfl
  obtain ⟨hroot, rs, htrace⟩ := RunRequest.execute_trace hcompletes
  rw [hroot] at hlog hlinks ⊢
  obtain ⟨l, base, habsolute, hlead, hrecords⟩ :=
    RunRequest.execute_originals hcompletes (hextends.wellNamed hd) hlinks
  have hmodified := htrace.tells.modified
  rw [hroot] at hmodified
  generalize hmodifiedRecords : ((q.execute c.hash s.duration (openedDisk c.logging d)).records.filter
    (·.isModified)) = records at hmodified
  have horiginals : ∀ r ∈ records, r.isModified = true
      ∧ ∃ names, q.Original (openedDisk c.logging d) l base names r := by
    rintro r hr
    obtain ⟨hr, hchanged⟩ := List.mem_filter.1 (hmodifiedRecords ▸ hr)
    exact ⟨hchanged, hrecords r hr⟩
  refine ⟨base, records.map (FileDiff.ofRecord (d.absolute c.engine.root)), hlead, ?_, ?_, ?_, ?_⟩
  · rw [houtput, FileDiff.ofRecords, hmodifiedRecords]
  · rw [hmodified, List.forall₂_map_left_iff, List.forall₂_map_right_iff, List.forall₂_same]
    intro r hr
    obtain ⟨hchanged, names, horiginal⟩ := horiginals r hr
    obtain ⟨b, k, hfile, hdecode⟩ := horiginal.text
    obtain ⟨hl, hnames⟩ := List.forall_mem_append.1 horiginal.named
    refine ⟨names, b, k, r.original, ?_, hextends.file hfile (hlog base names hlead horiginal.candidate), hdecode,
      ?_, ?_⟩
    · rw [habsolute, horiginal.path, relativeTo_pathOf hl hnames]
    · rw [FileDiff.ofRecord, horiginal.content]
    · rw [FileDiff.ofRecord, ne_eq, Diff.unified_eq_empty]
      simpa [FileRecord.isModified] using hchanged
  · obtain ⟨l', hl', hshown⟩ := absolute_eq_pathOf hd c.engine.root
    have hlisted : summary.modified.map (·.path.text) = records.map (·.path.relativeTo (pathOf l)) := by
      rw [hmodified, habsolute, List.map_map]
      exact List.map_congr_left fun _ _ => rfl
    rw [hlisted, hmodified, List.map_eq_nil_iff, hshown, habsolute]
    exact paths_eq_iff hl' fun r hr => (horiginals r hr).2
  · rintro (hoff | hthere)
    · rw [openedDisk, hoff, hqroot]
      rfl
    · rw [hqroot, hextends.absolute hthere]

/-! ### Two files and a link -/

section Sample

open Config Disk.Node

/-- Settings without a log, and with one rule. -/
def doubleText : String :=
  "[logging]\nenabled = false\n[[rules]]\nkind = 'literal'\nid = 'letter'\nneedle = 'A'\nreplacement = 'AA'\n"

def double : Config where
  logging := { enabled := false, path := ⟨"/home/.local/share/srw/activity.jsonl"⟩ }
  rules := [⟨"letter", "", .literal "A" (.text "AA")⟩]
  file := ⟨"c"⟩

def doubleRules : RuleSet := ⟨[⟨"letter", "", .literal "A", .literal "AA"⟩], []⟩

/-- The settings with a root. -/
def doubleBelow : Config := { double with engine.root := ⟨"/"⟩ }

def doubleRequest : RunRequest where
  root := ⟨"/"⟩
  rules := doubleRules
  extensions := [".ts", ".tsx"]
  excludedDirs := double.excludedSet
  excludedSuffixes := [".d.ts"]

theorem ofConfig_double : RunRequest.ofConfig doubleBelow = .ok doubleRequest := by
  rfl

/-- Two files with the settings, and perhaps with more beside them. -/
def twoFiles (a b : Node) (more : Disk.Entries) : Disk where
  root := .dir 0o755 (("a.ts", a) :: ("b.ts", b) :: ("c", .file doubleText.toUTF8 0o644) :: more)
  workDir := []

variable {a b : Node} {more : Disk.Entries}

theorem read_twoFiles : (twoFiles a b more).read ⟨"c"⟩ = .ok doubleText.toUTF8 := by
  have h : (twoFiles a b more).resolve true ⟨"c"⟩ = .ok (.node ["c"] (.file doubleText.toUTF8 0o644)) := by
    have hpieces : pathPieces "c" = ["c"] := by decide
    simp +decide [resolve, twoFiles, hpieces, walk, Node.get?, Disk.Entries.get?]
  rw [Disk.read, stat, Disk.find, h]
  rfl

theorem runSettings_double : runSettings halfSurroundings halfOptions (some ⟨"/"⟩) false (twoFiles a b more)
    = .ok doubleBelow := by
  have hload : load (twoFiles a b more) halfSurroundings.home halfSurroundings.settingVars halfOptions.config
      = .ok double := by
    rw [halfOptions, load_of_read read_twoFiles]
    decide +kernel
  rw [runSettings_eq hload]
  rfl

theorem apply_double : (doubleRules.apply "A").content = "AA" ∧ (doubleRules.apply "AA").content = "AAAA"
    ∧ (doubleRules.apply "B").content = "B" :=
  ⟨by decide +kernel, by decide +kernel, by decide +kernel⟩

/-- A link that has the name of the second file of the first of the two, and leads to the other one. -/
def linkedTemp : Disk.Entries := [(".a.ts.srw-tmp", .link "b.ts")]

variable {c : ByteArray} {k : Nat}

theorem leadsTo_twoFiles : (twoFiles a b more).LeadsTo ⟨"/"⟩ [] := leadsTo_separator rfl

theorem resolve_linkedTemp :
    (twoFiles a (.file c k) linkedTemp).resolve true ⟨"/.a.ts.srw-tmp"⟩ = .ok (.node ["b.ts"] (.file c k)) := by
  have hpieces : pathPieces "/.a.ts.srw-tmp" = [".a.ts.srw-tmp"] := by decide
  have htarget : pathPieces "b.ts" = ["b.ts"] := by decide
  simp +decide [resolve, twoFiles, linkedTemp, hpieces, htarget, walk, maxLinks, Node.get?, Disk.Entries.get?]

/-- It is the link that is renamed. -/
theorem rename_linkedTemp : (twoFiles (.file c k) b linkedTemp).rename ⟨"/.a.ts.srw-tmp"⟩ ⟨"/a.ts"⟩
    = .ok (twoFiles (.link "b.ts") b []) := by
  have hfrom : (twoFiles (.file c k) b linkedTemp).find false ⟨"/.a.ts.srw-tmp"⟩
      = .ok ([".a.ts.srw-tmp"], .link "b.ts") := by
    have hpieces : pathPieces "/.a.ts.srw-tmp" = [".a.ts.srw-tmp"] := by decide
    refine find_eq_ok.2 ?_
    simp +decide [resolve, twoFiles, linkedTemp, hpieces, walk, Node.get?, Disk.Entries.get?]
  have hto : (twoFiles (.file c k) b linkedTemp).resolve false ⟨"/a.ts"⟩ = .ok (.node ["a.ts"] (.file c k)) := by
    have hpieces : pathPieces "/a.ts" = ["a.ts"] := by decide
    simp +decide [resolve, twoFiles, linkedTemp, hpieces, walk, Node.get?, Disk.Entries.get?]
  rw [rename, hfrom]
  simp only [bind, Except.bind, hto]
  rfl

/-- What is written to the first file goes to the other one. -/
theorem replaceFile_linkedTemp (bytes : ByteArray) :
    (twoFiles (.file "A".toUTF8 0o644) (.file c 0o644) linkedTemp).replaceFile ⟨"/a.ts"⟩ bytes
      = (.ok (), twoFiles (.link "b.ts") (.file bytes 0o644) []) := by
  have hjoin : (⟨"/"⟩ : Path).join ⟨"a.ts"⟩ = ⟨"/a.ts"⟩ := by decide
  have hstat : (twoFiles (.file "A".toUTF8 0o644) (.file c 0o644) linkedTemp).stat ⟨"/a.ts"⟩
      = .ok (.file "A".toUTF8 0o644) :=
    hjoin ▸ stat_entry leadsTo_twoFiles (show IsName "a.ts" by decide) rfl rfl
  have hname : (⟨"/a.ts"⟩ : Path).fileName? = some "a.ts" := by decide
  have htemp : (⟨"/a.ts"⟩ : Path).withFileName (tempName "a.ts") = ⟨"/.a.ts.srw-tmp"⟩ := by decide
  have hopen : (twoFiles (.file "A".toUTF8 0o644) (.file c 0o644) linkedTemp).openFile true ⟨"/.a.ts.srw-tmp"⟩
      = .ok (["b.ts"], twoFiles (.file "A".toUTF8 0o644) (.file .empty 0o644) linkedTemp) := by
    rw [openFile, resolve_linkedTemp]
    rfl
  have hget (bytes : ByteArray) : (twoFiles (.file "A".toUTF8 0o644) (.file bytes 0o644) linkedTemp).root.get? ["b.ts"]
      = some (.file bytes 0o644) := rfl
  have happend : (twoFiles (.file "A".toUTF8 0o644) (.file .empty 0o644) linkedTemp).append ["b.ts"] bytes
      = .ok (twoFiles (.file "A".toUTF8 0o644) (.file bytes 0o644) linkedTemp) := by
    rw [append_file (hget .empty), ByteArray.empty_append]
    rfl
  have hmode : (twoFiles (.file "A".toUTF8 0o644) (.file bytes 0o644) linkedTemp).setMode ⟨"/.a.ts.srw-tmp"⟩ 0o644
      = .ok (twoFiles (.file "A".toUTF8 0o644) (.file bytes 0o644) linkedTemp) := by
    rw [setMode, find_eq_ok.2 resolve_linkedTemp]
    rfl
  rw [replaceFile, hstat]
  simp only [hname, htemp, fillAndSwap, hopen, happend, sync_file (hget bytes), Node.mode, hmode, rename_linkedTemp]
  rfl

theorem readText_twoFiles {x t : String} (hx : IsName x) (hr : refusal? ((⟨"/"⟩ : Path).join ⟨x⟩) = none)
    (hget : (twoFiles a b more).root.get? [x] = some (.file t.toUTF8 0o644)) :
    (twoFiles a b more).readText ((⟨"/"⟩ : Path).join ⟨x⟩) = .ok t := by
  rw [readText_entry leadsTo_twoFiles hx hget, hr]
  simp only [decode_toUTF8]

/-- The first file is read as it was, and written through the link. -/
theorem rewriteFile_first : ∃ r,
    rewriteFile (twoFiles (.file "A".toUTF8 0o644) (.file "B".toUTF8 0o644) linkedTemp) ⟨"/a.ts"⟩ doubleRules false
      = (.ok r, twoFiles (.link "b.ts") (.file "AA".toUTF8 0o644) [])
    ∧ r.path = ⟨"/a.ts"⟩ ∧ r.original = "A" ∧ r.content = "AA" := by
  have hread : (twoFiles (.file "A".toUTF8 0o644) (.file "B".toUTF8 0o644) linkedTemp).readText ⟨"/a.ts"⟩ = .ok "A" :=
    readText_twoFiles (x := "a.ts") (by decide) (by decide) rfl
  have hcontent : (FileRecord.of ⟨"/a.ts"⟩ "A" doubleRules).content = "AA" := apply_double.1
  have hchanged : (FileRecord.of ⟨"/a.ts"⟩ "A" doubleRules).isModified = true := by
    rw [FileRecord.isModified, hcontent]
    decide
  refine ⟨{ FileRecord.of ⟨"/a.ts"⟩ "A" doubleRules with written := true }, ?_, rfl, rfl, hcontent⟩
  rw [rewriteFile, hread]
  simp only [hchanged, hcontent, replaceFile_linkedTemp, Bool.not_false, Bool.and_self, if_true]

/-- A file beside which the name of the second file is free is rewritten. -/
theorem rewriteFile_doubled {x t u : String} (hx : IsName x)
    (hr : refusal? ((⟨"/"⟩ : Path).join ⟨x⟩) = none ∧ refusal? ((⟨"/"⟩ : Path).tidy.join ⟨tempName x⟩) = none)
    (hget : (twoFiles a b []).root.get? [x] = some (.file t.toUTF8 0o644))
    (hfree : (twoFiles a b []).root.get? [tempName x] = none) (hu : (doubleRules.apply t).content = u) (hne : t ≠ u) :
    ∃ r, rewriteFile (twoFiles a b []) ((⟨"/"⟩ : Path).join ⟨x⟩) doubleRules false
        = (.ok r, (twoFiles a b []).withNode [x] (.file u.toUTF8 0o644))
      ∧ r.path = (⟨"/"⟩ : Path).join ⟨x⟩ ∧ r.original = t ∧ r.content = u := by
  have hwritable : (Node.file t.toUTF8 0o644).isReadOnly = false := by simp [Node.isReadOnly, Node.mode]
  have hchanged : (FileRecord.of ((⟨"/"⟩ : Path).join ⟨x⟩) t doubleRules).isModified = true := by
    rw [FileRecord.isModified]
    exact bne_iff_ne.2 (Ne.trans_eq hne hu.symm)
  have hresult : rewritten doubleRules false ((⟨"/"⟩ : Path).join ⟨x⟩) ((⟨"/"⟩ : Path).tidy.join ⟨tempName x⟩) t.toUTF8
      0o644 = .ok { FileRecord.of ((⟨"/"⟩ : Path).join ⟨x⟩) t doubleRules with written := true } := by
    rw [rewritten, hr.1]
    simp only [decode_toUTF8, hchanged, Bool.not_false, Bool.and_self, if_true,
      writeRefusal?_eq_none.2 ⟨hr.1, hwritable, hr.2⟩]
  have hdir : (twoFiles a b []).root.get? [] = some (twoFiles a b []).root := rfl
  have hrewrite : rewriteFile (twoFiles a b []) ((⟨"/"⟩ : Path).join ⟨x⟩) doubleRules false = _ :=
    rewriteFile_join leadsTo_twoFiles hx hdir ((get?_concat hdir x).symm.trans hget)
      ((get?_concat hdir _).symm.trans hfree)
  rw [hresult] at hrewrite
  refine ⟨{ FileRecord.of ((⟨"/"⟩ : Path).join ⟨x⟩) t doubleRules with written := true }, ?_, rfl, rfl, hu⟩
  rw [hrewrite, ← hu]
  rfl

theorem checkRoot_twoFiles {c c' : ByteArray} {k k' : Nat} (hmore : more = [] ∨ more = linkedTemp) :
    Walk.checkRoot (twoFiles (.file c k) (.file c' k') more) ⟨"/"⟩
      = .ok [⟨⟨"/a.ts"⟩, false⟩, ⟨⟨"/b.ts"⟩, false⟩, ⟨⟨"/c"⟩, false⟩] := by
  have hsorted (names : List String) (hnames : names.Pairwise (· < ·)) (hmem : ∀ x, x ∈ Disk.Entries.names
      (("a.ts", .file c k) :: ("b.ts", .file c' k') :: ("c", .file doubleText.toUTF8 0o644) :: more) ↔ x ∈ names) :
      Walk.sortedNames (("a.ts", .file c k) :: ("b.ts", .file c' k') :: ("c", .file doubleText.toUTF8 0o644) :: more)
        = names :=
    (Walk.sortedNames_lt _).eq_of_mem_iff hnames fun x => List.mem_mergeSort.trans (hmem x)
  rw [Walk.checkRoot_dir leadsTo_twoFiles rfl, Walk.listing]
  rcases hmore with rfl | rfl
  · rw [hsorted ["a.ts", "b.ts", "c"] (by decide) fun x => by simp [Disk.Entries.names]]
    rfl
  · rw [hsorted [".a.ts.srw-tmp", "a.ts", "b.ts", "c"] (by decide) fun x => by
      simp [Disk.Entries.names, linkedTemp]
      tauto]
    rfl

/-- The two files are rewritten one after the other. -/
theorem execute_twoFiles {c c' : ByteArray} {k k' : Nat} {r r' : FileRecord} {e : Disk} (hash : String) (duration : Nat)
    (hmore : more = [] ∨ more = linkedTemp)
    (hfirst : rewriteFile (twoFiles (.file c k) (.file c' k') more) ⟨"/a.ts"⟩ doubleRules false = (.ok r, e))
    (hother : (rewriteFile e ⟨"/b.ts"⟩ doubleRules false).1 = .ok r') : ∃ s,
    (doubleRequest.execute hash duration (twoFiles (.file c k) (.file c' k') more)).outcome = .ok s ∧ s.root = ⟨"/"⟩
      ∧ (doubleRequest.execute hash duration (twoFiles (.file c k) (.file c' k') more)).records = [r, r'] := by
  have hroot : (twoFiles (.file c k) (.file c' k') more).absolute doubleRequest.root = ⟨"/"⟩ := absolute_separator rfl
  have hlisted : Walk.checkRoot (twoFiles (.file c k) (.file c' k') more) ⟨"/"⟩ = _ := checkRoot_twoFiles hmore
  generalize twoFiles (.file c k) (.file c' k') more = d at hroot hlisted hfirst ⊢
  have hremovals : doubleRequest.removals d = ([], d) := rfl
  have hopening := RunRequest.opening_records (q := doubleRequest) (d := d) hash
  have hcandidate : Walk.isCandidate (doubleRequest.walkSettings ⟨"/"⟩ []) ⟨"/a.ts"⟩ = true
      ∧ Walk.isCandidate (doubleRequest.walkSettings ⟨"/"⟩ []) ⟨"/b.ts"⟩ = true
      ∧ Walk.isCandidate (doubleRequest.walkSettings ⟨"/"⟩ []) ⟨"/c"⟩ = false := by
    decide
  obtain ⟨base, hlead⟩ := Walk.checkRoot_ok_iff.1 ⟨_, hlisted⟩
  obtain ⟨s, hok⟩ := RunRequest.execute_isOk (q := doubleRequest) hash duration (hroot ▸ hlead)
  obtain ⟨w, hrun, -, -, hrecords, -⟩ := RunRequest.execute_ok hok
  refine ⟨s, hok, (RunRequest.execute_trace hok).1.trans hroot, ?_⟩
  generalize doubleRequest.opening hash d = g at hrun hopening
  have hdeleted : Deletion.deleted [] = [] := rfl
  have hwalked : (doubleRequest.walkSettings ⟨"/"⟩ []).root = ⟨"/"⟩ := rfl
  simp only [hremovals, hroot, hdeleted, Walk.run, hwalked, hlisted] at hrun
  obtain rfl := Except.ok.inj hrun
  have hvisit (depth : Nat) (st : Walk.State Progress) (p : Path)
      (h : Walk.isCandidate (doubleRequest.walkSettings ⟨"/"⟩ []) p = true) :
      Walk.visitEntry (doubleRequest.walkSettings ⟨"/"⟩ []) (doubleRequest.process ⟨"/"⟩) depth st ⟨p, false⟩
        = { st with
          value := st.value.note ⟨"/"⟩ false (p, (rewriteFile st.disk p doubleRules false).1)
          disk := (rewriteFile st.disk p doubleRules false).2 } := by
    rw [Walk.visitEntry_file, if_pos h, RunRequest.process_eq]
    rfl
  rw [hrecords]
  simp only [List.foldl_cons, List.foldl_nil]
  rw [hvisit _ _ _ hcandidate.1, hvisit _ _ _ hcandidate.2.1, Walk.visitEntry_file, if_neg (by simp [hcandidate.2.2])]
  simp only [hfirst, hother, Progress.note_records, hopening]
  rfl

variable {n : Node} {loc : Location} {es : Disk.Entries} {mode : Nat}

/-- In a directory without directories there is nothing but its entries. -/
theorem mem_of_get?_flat (hes : ∀ e ∈ es, e.2.isDir = false) (h : (Node.dir mode es).get? loc = some n) :
    loc = [] ∨ ∃ x, loc = [x] ∧ (x, n) ∈ es := by
  cases loc with
  | nil => exact .inl rfl
  | cons x rest =>
    obtain ⟨m, hm, h⟩ := Option.bind_eq_some_iff.1 h
    have hmem := mem_of_get? hm
    cases rest with
    | nil =>
      obtain rfl : m = n := by simpa using h
      exact .inr ⟨x, rfl, hmem⟩
    | cons y ys =>
      have hnone : m.get? (y :: ys) = none := get?_below_leaf (get?_nil m) (hes _ hmem) y ys
      rw [hnone] at h
      cases h

theorem wellNamed_twoFiles {c c' : ByteArray} {k k' : Nat} (hmore : more = [] ∨ more = linkedTemp) :
    (twoFiles (.file c k) (.file c' k') more).WellNamed := by
  intro loc n h
  have hes : ∀ e ∈ ("a.ts", Node.file c k) :: ("b.ts", .file c' k') :: ("c", .file doubleText.toUTF8 0o644) :: more,
      e.2.isDir = false ∧ IsName e.1 := by
    rcases hmore with rfl | rfl <;> simp only [linkedTemp, List.forall_mem_cons, List.not_mem_nil, false_imp_iff,
      implies_true, and_true, Node.isDir, true_and] <;> decide
  rcases mem_of_get?_flat (fun e he => (hes e he).1) h with rfl | ⟨x, rfl, hmem⟩
  · exact fun s hs => absurd hs List.not_mem_nil
  · exact List.forall_mem_singleton.2 (hes _ hmem).2

theorem unlinked_twoFiles {q : RunRequest} {c c' : ByteArray} {k k' : Nat} (base : Location) :
    q.Unlinked (twoFiles (.file c k) (.file c' k') []) base := by
  intro dir x _ t h
  rcases mem_of_get?_flat (by simp [Node.isDir]) h with hnil | ⟨y, -, hmem⟩
  · simp at hnil
  · simp at hmem

/-- Records of the two files are told with their names. -/
theorem ofRecords_twoFiles {r r' : FileRecord} {t t' u u' : String}
    (hr : r.path = ⟨"/a.ts"⟩ ∧ r.original = t ∧ r.content = u)
    (hr' : r'.path = ⟨"/b.ts"⟩ ∧ r'.original = t' ∧ r'.content = u') (hne : t ≠ u) (hne' : t' ≠ u') :
    FileDiff.ofRecords ⟨"/"⟩ [r, r'] = [⟨"a.ts", Diff.unified "a.ts" t u⟩, ⟨"b.ts", Diff.unified "b.ts" t' u'⟩] := by
  obtain ⟨hpath, rfl, rfl⟩ := hr
  obtain ⟨hpath', rfl, rfl⟩ := hr'
  have hshown : (⟨"/a.ts"⟩ : Path).relativeTo ⟨"/"⟩ = "a.ts" := by decide
  have hshown' : (⟨"/b.ts"⟩ : Path).relativeTo ⟨"/"⟩ = "b.ts" := by decide
  simp [FileDiff.ofRecords, FileRecord.isModified, hne, hne', FileDiff.ofRecord, hpath, hpath', hshown, hshown']

/-- A file that the rules change is listed and told of, and one that they leave alone is not. -/
theorem run_diffs_twoFiles :
    let d := twoFiles (.file "A".toUTF8 0o644) (.file "B".toUTF8 0o644) []
    audience halfSurroundings halfOptions = .programs
    ∧ runSettings halfSurroundings halfOptions (some ⟨"/"⟩) false d = .ok doubleBelow
    ∧ RunRequest.ofConfig doubleBelow = .ok doubleRequest ∧ d.WellNamed
    ∧ (∀ place, ¬ IsLogged doubleBelow.logging d place)
    ∧ (∀ base, doubleRequest.Unlinked (openedDisk doubleBelow.logging d) base)
    ∧ ∃ summary base diffs,
      (executeLogged halfSurroundings doubleBelow.logging doubleRequest doubleBelow.hash d).1.outcome = .ok summary
      ∧ (run halfSurroundings halfOptions (some ⟨"/"⟩) false true d).output
        = jsonLine (runValue doubleBelow.hash summary (some diffs))
      ∧ List.Forall₂ (Tells doubleRequest d base) summary.modified diffs ∧ diffs.map (·.path) = ["a.ts"] := by
  intro d
  obtain ⟨r, hr, hpath, horiginal, hcontent⟩ := rewriteFile_doubled (a := .file "A".toUTF8 0o644)
    (b := .file "B".toUTF8 0o644) (x := "a.ts") (by decide) (by decide) rfl rfl apply_double.1 (by decide)
  have hread : (twoFiles (.file "AA".toUTF8 0o644) (.file "B".toUTF8 0o644) []).readText ⟨"/b.ts"⟩ = .ok "B" :=
    readText_twoFiles (x := "b.ts") (by decide) (by decide) rfl
  have hkept : (FileRecord.of ⟨"/b.ts"⟩ "B" doubleRules).isModified = false := by
    rw [FileRecord.isModified, show (FileRecord.of ⟨"/b.ts"⟩ "B" doubleRules).content = "B" from apply_double.2.2]
    decide
  have hother : (rewriteFile (twoFiles (.file "AA".toUTF8 0o644) (.file "B".toUTF8 0o644) []) ⟨"/b.ts"⟩ doubleRules
      false).1 = .ok (FileRecord.of ⟨"/b.ts"⟩ "B" doubleRules) := by
    rw [rewriteFile, hread]
    simp only [hkept, Bool.false_and, Bool.false_eq_true, if_false]
  obtain ⟨s, hok, hroot, hrecords⟩ := execute_twoFiles doubleBelow.hash halfSurroundings.duration (.inl rfl) hr hother
  have hprograms : audience halfSurroundings halfOptions = .programs := by decide
  have hnamed : d.WellNamed := wellNamed_twoFiles (.inl rfl)
  have hlog (place : Location) : ¬ IsLogged doubleBelow.logging d place := fun h => Bool.false_ne_true h.1
  have hlinks (base : Location) : doubleRequest.Unlinked (openedDisk doubleBelow.logging d) base :=
    unlinked_twoFiles base
  obtain ⟨base, diffs, -, houtput, htells, hpaths, hroots⟩ := run_diffs
    hprograms runSettings_double ofConfig_double hok hnamed (fun base names _ _ => hlog (base ++ names))
    fun _ base _ => hlinks base
  refine ⟨hprograms, runSettings_double, ofConfig_double, hnamed, hlog, hlinks, s, base, diffs, hok, houtput, htells,
    ?_⟩
  rw [hpaths.2 (.inr (hroots (.inl rfl)))]
  obtain ⟨-, rs, htrace⟩ := RunRequest.execute_trace hok
  have hchanged : r.isModified = true := by
    rw [FileRecord.isModified, horiginal, hcontent]
    decide
  rw [htrace.tells.modified, hrecords, hroot]
  simp only [List.filter_cons, hchanged, hkept, if_true, Bool.false_eq_true, if_false, List.filter_nil, List.map_cons,
    List.map_nil, hpath]
  decide

/-- **A link at the name of the second file** of one file leads to another one: its change is told from what has been
written to it, and not from what it held before. -/
theorem linked_change_printed :
    let d := twoFiles (.file "A".toUTF8 0o644) (.file "B".toUTF8 0o644) linkedTemp
    audience halfSurroundings halfOptions = .programs
    ∧ runSettings halfSurroundings halfOptions (some ⟨"/"⟩) false d = .ok doubleBelow
    ∧ RunRequest.ofConfig doubleBelow = .ok doubleRequest ∧ d.WellNamed
    ∧ d.readText ⟨"/b.ts"⟩ = .ok "B" ∧ (doubleRequest.rules.apply "B").content = "B"
    ∧ ∃ summary, (executeLogged halfSurroundings doubleBelow.logging doubleRequest doubleBelow.hash d).1.outcome
        = .ok summary
      ∧ (run halfSurroundings halfOptions (some ⟨"/"⟩) false true d).output
        = jsonLine (runValue doubleBelow.hash summary
          (some [⟨"a.ts", Diff.unified "a.ts" "A" "AA"⟩, ⟨"b.ts", Diff.unified "b.ts" "AA" "AAAA"⟩]))
      ∧ Diff.unified "b.ts" "AA" "AAAA" ≠ Diff.unified "b.ts" "B" (doubleRequest.rules.apply "B").content := by
  intro d
  obtain ⟨r, hr, hfirst⟩ := rewriteFile_first
  obtain ⟨r', hr', hother⟩ := rewriteFile_doubled (a := .link "b.ts") (b := .file "AA".toUTF8 0o644)
    (x := "b.ts") (by decide) (by decide) rfl rfl apply_double.2.1 (by decide)
  obtain ⟨s, hok, -, hrecords⟩ := execute_twoFiles doubleBelow.hash halfSurroundings.duration (.inr rfl) hr
    (congrArg Prod.fst hr')
  have hprograms : audience halfSurroundings halfOptions = .programs := by decide
  have hcompletes : (executeLogged halfSurroundings doubleBelow.logging doubleRequest doubleBelow.hash d).1.outcome
      = .ok s := hok
  have houtput := run_output hprograms runSettings_double ofConfig_double
    hcompletes
  have hshown : d.absolute doubleBelow.engine.root = ⟨"/"⟩ := absolute_separator rfl
  have hread : d.readText ⟨"/b.ts"⟩ = .ok "B" := readText_twoFiles (x := "b.ts") (by decide) (by decide) rfl
  have hkept : (doubleRequest.rules.apply "B").content = "B" := apply_double.2.2
  refine ⟨hprograms, runSettings_double, ofConfig_double, wellNamed_twoFiles (.inr rfl), hread, hkept, s, hcompletes,
    ?_, ?_⟩
  · have hrecorded : (executeLogged halfSurroundings doubleBelow.logging doubleRequest doubleBelow.hash d).1.records
        = [r, r'] := hrecords
    rw [houtput, hshown, hrecorded, ofRecords_twoFiles hfirst hother (by decide) (by decide)]
  · rw [hkept, (Diff.unified_eq_empty "b.ts").2 (rfl : "B" = "B"), ne_eq, Diff.unified_eq_empty]
    decide

end Sample

end CommandLine

end Codemod
