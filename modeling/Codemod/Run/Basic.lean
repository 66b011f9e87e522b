/-
A whole run: listed files are removed, the files below the root are rewritten one after the other,
and a summary says what has been done. Only a root that is no directory ends a run early, before
anything is changed.
-/
import Codemod.Config.Basic
import Codemod.Log.Event
import Codemod.Phase
import Codemod.Run.Deletion
import Codemod.Run.Rewrite
import Codemod.Run.Walk
import Codemod.Sha256

namespace Codemod

structure RunRequest where
  root : Path
  rules : RuleSet
  extensions : List String
  excludedDirs : List String
  excludedSuffixes : List String := []
  deletions : List Path := []
  dryRun : Bool := false

namespace RunRequest

/-- The run that settings ask for. -/
def ofConfig (c : Config) : Except Error RunRequest := do
  return {
    root := c.engine.root
    rules := ← RuleSet.ofSpecs c.rules
    extensions := c.engine.extensions
    excludedDirs := c.excludedSet
    excludedSuffixes := c.engine.excludedSuffixes
    deletions := c.deletions
    dryRun := c.engine.dryRun }

end RunRequest

/-- What has come of a run so far. -/
structure Progress where
  summary : Summary
  events : List Event := []
  records : List FileRecord := []
  deriving DecidableEq, Repr

namespace Progress

def log (g : Progress) (e : Event) : Progress := { g with events := g.events ++ [e] }

/-- The rules that are off. -/
def logDisabled (g : Progress) (rules : RuleSet) : Progress :=
  rules.disabled.foldl (fun g f => g.log (.ruleFailed f.ruleId none f.reason)) g

/-- What became of one entry of the list of files to remove. -/
def logRemoval (root : Path) (dryRun : Bool) (g : Progress) (entry : Path × Removal) : Progress :=
  match entry with
  | (_, .removed p) => g.log (.fileDeleted (p.relativeTo root) dryRun)
  | (_, .missing) => g
  | (p, .failed e) => g.log (.fileFailed p.text e.code e.message)

/-- The removals, in the log as they happen and in the summary by their outcome. -/
def addRemovals (g : Progress) (root : Path) (dryRun : Bool) (report : List (Path × Removal)) :
    Progress :=
  let g := report.foldl (logRemoval root dryRun) g
  let s := (Deletion.deleted report).foldl Summary.recordDeleted g.summary
  let s := (Deletion.errors report).foldl (fun s (p, e) => s.recordError p e false) s
  { g with summary := s }

/-- A file that was read and rewritten. -/
def addRecord (g : Progress) (root : Path) (dryRun : Bool) (r : FileRecord) : Progress :=
  let path := r.path.relativeTo root
  let g := r.failures.foldl (fun g f => g.log (.ruleFailed f.ruleId (some path) f.reason)) g
  let g :=
    if r.isModified then
      g.log (.fileRewritten path r.hits (Sha256.hex r.original.toUTF8)
        (Sha256.hex r.content.toUTF8) dryRun)
    else g
  { g with summary := g.summary.recordFile r, records := g.records ++ [r] }

/-- A file that went wrong. -/
def addError (g : Progress) (root p : Path) (e : Error) : Progress :=
  let g := g.log (.fileFailed (p.relativeTo root) e.code e.message)
  { g with summary := g.summary.recordError p e true }

/-- Directories that could not be listed, and the end of the run. -/
def finish (g : Progress) (root : Path) (skipped : List SkippedDir) (duration : Nat) : Progress :=
  let g := skipped.foldl (fun g d => g.log (.dirSkipped (d.path.relativeTo root) d.reason)) g
  let s := g.summary.finish skipped duration
  { g with summary := s }.log
    (.runCompleted s.scanned s.modified.length (s.errors.length + s.ruleErrors.length) duration
      s.dryRun)

end Progress

namespace RunRequest

def walkSettings (q : RunRequest) (root : Path) (skip : List Path) : Walk.Settings :=
  ⟨root, q.extensions, q.excludedDirs, q.excludedSuffixes, skip⟩

/-- Rewrites one file and notes what came of it. -/
def process (q : RunRequest) (root : Path) : Walk.Visit Progress := fun d g p =>
  match rewriteFile d p q.rules q.dryRun with
  | (.ok r, d) => (g.addRecord root q.dryRun r, d)
  | (.error e, d) => (g.addError root p e, d)

end RunRequest

/-- The state of a run under way. -/
structure RunState where
  disk : Disk
  phase : Phase := .idle
  progress : Progress

/-- Steps of a run: what they have done stays done when one of them fails. -/
abbrev RunStep := ExceptT Error (StateM RunState)

namespace RunStep

/-- Goes on to a later phase. -/
def enter (next : Phase) : RunStep Unit := do
  let st ← get
  let phase ← st.phase.advance next
  set { st with phase }

def note (f : Progress → Progress) : RunStep Unit :=
  modify fun st => { st with progress := f st.progress }

end RunStep

/-- What a run leaves. -/
structure RunResult where
  outcome : Except Error Summary
  events : List Event
  records : List FileRecord
  disk : Disk

namespace RunRequest

open RunStep

/-- Removes the listed files and gives those that are gone. -/
def remove (q : RunRequest) (root : Path) : RunStep (List Path) := do
  let st ← get
  let (report, disk) := Deletion.run ⟨root, q.excludedDirs, q.dryRun⟩ q.deletions st.disk
  set { st with disk, progress := st.progress.addRemovals root q.dryRun report }
  return Deletion.deleted report

/-- Rewrites the files below the root and gives the directories that could not be listed. -/
def rewrite (q : RunRequest) (root : Path) (gone : List Path) : RunStep (List SkippedDir) := do
  let st ← get
  let walk ← Walk.run (q.walkSettings root gone) (q.process root) st.progress st.disk
  set { st with disk := walk.disk, progress := walk.value }
  return walk.skipped

/-- The steps of a run below a root. -/
def steps (q : RunRequest) (root : Path) (configHash : String) (duration : Nat) :
    RunStep Unit := do
  note fun g => g.log (.runStarted root.text configHash q.rules.rules.length q.dryRun)
  note fun g => g.logDisabled q.rules
  enter .deleting
  let gone ← q.remove root
  enter .scanning
  enter .rewriting
  let skipped ← q.rewrite root gone
  enter .reporting
  note fun g => g.finish root skipped duration
  enter .done

/-- Carries out a run that takes so many milliseconds. The hash names the settings in the log. -/
def execute (q : RunRequest) (configHash : String) (duration : Nat) (d : Disk) : RunResult :=
  let root := d.absolute q.root
  match Walk.checkRoot d root with
  | .error e => ⟨.error e, [], [], d⟩
  | .ok _ =>
    let start : RunState := { disk := d, progress := { summary := .start root q.dryRun q.rules } }
    let (result, st) := (q.steps root configHash duration).run.run start
    ⟨result.map fun _ => st.progress.summary, st.progress.events, st.progress.records, st.disk⟩

end RunRequest

end Codemod
