/-
A run from the command line: the settings with what the arguments say, a log if the settings want
one, and the summary, with the changes of the files if they are asked for.
-/
import Codemod.CommandLine.Reply
import Codemod.Config.Load
import Codemod.Diff.Unified
import Codemod.Log.Writer
import Codemod.Run.Basic

namespace Codemod.CommandLine

open Data

/-- The change of one file. -/
structure FileDiff where
  path : String
  diff : String
  deriving DecidableEq, Repr

namespace FileDiff

def ofRecord (root : Path) (r : FileRecord) : FileDiff :=
  let path := r.path.relativeTo root
  ⟨path, Diff.unified path r.original r.content⟩

/-- The changes of the files that have changed, in the order of the run. -/
def ofRecords (root : Path) (records : List FileRecord) : List FileDiff :=
  (records.filter (·.isModified)).map (ofRecord root)

def toValue (f : FileDiff) : Value := .table [("path", .text f.path), ("diff", .text f.diff)]

end FileDiff

/-- The settings of a run: the arguments come before the file. -/
def runSettings (s : Surroundings) (o : Options) (root : Option Path) (dryRun : Bool) (d : Disk) :
    Except Error Config := do
  let c ← Config.load d s.home s.settingVars o.config
  return { c with
    engine.root := root.getD c.engine.root
    engine.dryRun := c.engine.dryRun || dryRun }

/-- Carries out a run and logs it, if it is to be logged. The log is opened before the run. What the
log has put on the error output comes with the result. -/
def executeLogged (s : Surroundings) (logging : LoggingSettings) (q : RunRequest) (hash : String)
    (d : Disk) : RunResult × String :=
  if logging.enabled then
    let log := Log.start { path := logging.path } d
    let r := q.execute hash s.duration log.disk
    let log := { log with disk := r.disk }
    let log := (r.events.foldl (fun l e => l.writeEntry (e.entry s.time)) log).finish
    ({ r with disk := log.disk }, log.stderr)
  else (q.execute hash s.duration d, "")

/-- The first line of a run that says much. -/
def openingLine (c : Config) (q : RunRequest) : String :=
  "[SRW-RUN] config=" ++ c.file.text ++ " hash=" ++ c.hash ++ s!" rules={q.rules.rules.length}"
    ++ s!" dry_run={q.dryRun}\n"

def skippedLine (d : SkippedDir) : String :=
  "[SRW-WALK] skipping unreadable directory " ++ d.path.text ++ ": " ++ d.reason ++ "\n"

/-- What a run that says little puts on the error output. -/
def problemLines (s : Summary) : String :=
  String.join (s.errors.map fun e => "[" ++ e.code ++ "] " ++ e.path.text ++ ": " ++ e.reason ++ "\n")
  ++ String.join (s.ruleErrors.map fun e => "[SRW-2201] rule " ++ e.ruleId ++ ": " ++ e.reason ++ "\n")

def closingLine (s : Surroundings) (o : Options) (summary : Summary) : String :=
  "\n" ++ (if summary.isClean then paint s o .green "Done."
    else paint s o .yellow s!"Done with {summary.problems} problem(s).") ++ "\n"

/-- A summary for programs; the changes are there only if they were asked for. -/
def runValue (hash : String) (summary : Summary) (diffs : Option (List FileDiff)) : Value :=
  .table ([("command", .text "run"), ("config_hash", .text hash), ("summary", summary.toValue)]
    ++ match diffs with
      | some fs => [("diffs", .list (fs.map FileDiff.toValue))]
      | none => [])

/-- Prints what a run has done. -/
def reportRun (s : Surroundings) (o : Options) (hash : String) (summary : Summary)
    (diffs : Option (List FileDiff)) (r : Reply) : Reply :=
  match audience s o with
  | .programs => { r with output := jsonLine (runValue hash summary diffs) }
  | .people =>
    if o.quiet then { r with errors := r.errors ++ problemLines summary }
    else { r with
      output := String.join ((diffs.getD []).map (·.diff)) ++ summary.render
        ++ closingLine s o summary }

def run (s : Surroundings) (o : Options) (root : Option Path) (dryRun diff : Bool) (d : Disk) :
    Reply :=
  let prepared := do
    let c ← runSettings s o root dryRun d
    return (c, ← RunRequest.ofConfig c)
  match prepared with
  | .error e => .ofError d e
  | .ok (c, q) =>
    let shown := d.absolute c.engine.root
    let (result, logged) := executeLogged s c.logging q c.hash d
    let opening := if o.verbose then openingLine c q else ""
    let reply (skipped : String) : Reply :=
      { errors := opening ++ skipped ++ logged, disk := result.disk }
    match result.outcome with
    | .error e => (reply "").fail (.ofError e)
    | .ok summary =>
      let diffs := if diff then some (FileDiff.ofRecords shown result.records) else none
      reportRun s o c.hash summary diffs
        (reply (String.join (summary.skipped.map skippedLine)))

end Codemod.CommandLine
