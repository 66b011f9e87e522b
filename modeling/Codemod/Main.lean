/-
The program. The files that it works on are taken into memory, the command line is carried out on
them, and what has changed is written back. The files below the root of a run are named on the
standard input, one to a line.
-/
import Codemod.CommandLine.Execute
import Codemod.Disk.Changes
import Codemod.Log.Time
import Std.Time.DateTime.Timestamp

namespace Codemod.Program

open CommandLine

/-- The environment variables that matter. -/
def variableNames : List String :=
  ["HOME", "SRW_ENGINE_ROOT", "SRW_ENGINE_DRY_RUN", "SRW_ENGINE_EXTENSIONS",
    "SRW_ENGINE_EXCLUDED_DIRS", "SRW_ENGINE_EXCLUDED_SUFFIXES", "SRW_LOGGING_ENABLED",
    "SRW_LOGGING_JSONL_PATH", "SRW_OUTPUT_FORMAT", "CLICOLOR", "CLICOLOR_FORCE", "NO_COLOR"]

def readVariables : IO Config.Variables := do
  let values ← variableNames.mapM fun name => do return (name, ← IO.getEnv name)
  return fun name => (values.find? fun v => v.1 == name).bind (·.2)

/-- Takes a file into memory, if there is one. -/
def load (d : Disk) (p : Path) : IO Disk := do
  try
    return d.withFile p (← IO.FS.readBinFile (d.here.join p).text)
  catch _ => return d

def loadAll (d : Disk) (ps : List Path) : IO Disk := ps.foldlM load d

/-- The lines of the standard input. -/
partial def readLines (input : IO.FS.Stream) (lines : List String) : IO (List String) := do
  let line ← input.getLine
  if line.isEmpty then return lines.reverse
  readLines input (line.trimAsciiEnd.toString :: lines)

/-- The files of a run besides the ones it rewrites: those to remove, and the log with its older
parts. -/
def filesOf (c : Config) : List Path :=
  let log := c.logging.path
  c.deletions.map c.engine.root.join
    ++ log :: (List.range 3).map fun n => Log.rotatedName log (n + 1)

/-- A disk with the files that a command line needs. -/
def loadDisk (s : Surroundings) (i : Invocation) : IO Disk := do
  let here : Path := ⟨toString (← IO.currentDir)⟩
  let empty : Disk := { root := .dir Disk.dirMode [], workDir := Disk.pathPieces here.text }
  let d ← load (empty.makeDirs here).2 (i.options.config.getD s.home.configPath)
  match i.command with
  | .run root dryRun _ =>
    match runSettings s i.options root dryRun d with
    | .error _ => return d
    | .ok c =>
      let names ← readLines (← IO.getStdin) []
      loadAll d (filesOf c ++ (names.filter (!·.isEmpty)).map Path.mk)
  | _ => return d

/-- Writes back one change. A file gets its new content all at once. -/
def store : Disk.Change → IO Unit
  | .removed p => IO.FS.removeFile p.text
  | .written p content => do
    let temp := p.withFileName (Disk.tempName ((p.fileName?).getD ""))
    if let some above := p.parent? then IO.FS.createDirAll above.text
    IO.FS.writeBinFile temp.text content
    IO.FS.rename temp.text p.text

/-- Carries out a command line on the files of the machine, and gives its status. -/
def start (args : List String) : IO UInt32 := do
  let begun ← IO.monoMsNow
  let vars ← readVariables
  let now := (← Std.Time.Timestamp.now).toMillisecondsSinceUnixEpoch
  let s : Surroundings := {
    vars
    terminal := ← (← IO.getStdout).isTty
    time := Time.text now.val.toNat }
  let d ← match parse args with
    | .ok i => loadDisk s i
    | .error _ => pure { root := .dir Disk.dirMode [], workDir := [] }
  let r := execute args { s with duration := (← IO.monoMsNow) - begun } d
  (Disk.changes d r.disk).forM store
  IO.eprint r.errors
  IO.print r.output
  return r.status.toUInt32

end Codemod.Program

def main (args : List String) : IO UInt32 := Codemod.Program.start args
