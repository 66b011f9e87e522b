/-
What a run has done: totals for each rule, the files that changed or went, and everything that went
wrong.
-/
import Codemod.Data.Value
import Codemod.Decimal.Binary
import Codemod.Run.Record

namespace Codemod

open Data

/-- What a rule comes to over a run. These counts, and those of a summary, are natural numbers: that a machine word may
overflow is left out. -/
structure RuleTotal where
  ruleId : String
  hits : Nat := 0
  /-- Files in which the rule had a hit. -/
  files : Nat := 0
  deriving DecidableEq, Repr

structure FileSummary where
  path : Path
  hits : HitCounts
  deriving DecidableEq, Repr

/-- An error that counts against one file. -/
structure FileError where
  path : Path
  code : String
  reason : String
  deriving DecidableEq, Repr

/-- A rule that failed on a file, or for the whole run if there is no path. -/
structure RuleError where
  ruleId : String
  path : Option Path
  reason : String
  deriving DecidableEq, Repr

/-- A directory that could not be listed. -/
structure SkippedDir where
  path : Path
  reason : String
  deriving DecidableEq, Repr

structure Summary where
  root : Path
  dryRun : Bool
  deleted : List Path := []
  modified : List FileSummary := []
  scanned : Nat := 0
  totals : List RuleTotal
  errors : List FileError := []
  ruleErrors : List RuleError
  skipped : List SkippedDir := []
  /-- Milliseconds. -/
  duration : Nat := 0
  deriving DecidableEq, Repr

namespace Summary

/-- Before anything has been done: no hits, and the rules that are off. -/
def start (root : Path) (dryRun : Bool) (rules : RuleSet) : Summary where
  root := root
  dryRun := dryRun
  totals := rules.rules.map fun r => { ruleId := r.id }
  ruleErrors := rules.disabled.map fun f => ⟨f.ruleId, none, f.reason⟩

/-- A path as seen from the root, if it is below it. -/
def relative (s : Summary) (p : Path) : Path := (p.below? s.root).getD p

def recordDeleted (s : Summary) (p : Path) : Summary :=
  { s with deleted := s.deleted ++ [s.relative p] }

/-- Adds the hits of one file to the total of one rule. -/
def addHits (hits : HitCounts) (t : RuleTotal) : RuleTotal :=
  match hits.find? fun h => h.1 == t.ruleId with
  | some (_, n) => { t with hits := t.hits + n, files := t.files + 1 }
  | none => t

def recordFile (s : Summary) (r : FileRecord) : Summary :=
  let path := s.relative r.path
  { s with
    scanned := s.scanned + 1
    totals := s.totals.map (addHits r.hits)
    ruleErrors := s.ruleErrors ++ r.failures.map fun f => ⟨f.ruleId, some path, f.reason⟩
    modified := if r.isModified then s.modified ++ [⟨path, r.hits⟩] else s.modified }

/-- A file that went wrong; it may have been scanned all the same. -/
def recordError (s : Summary) (p : Path) (e : Error) (scanned : Bool) : Summary :=
  { s with
    scanned := if scanned then s.scanned + 1 else s.scanned
    errors := s.errors ++ [⟨s.relative p, e.code, e.message⟩] }

def finish (s : Summary) (skipped : List SkippedDir) (duration : Nat) : Summary :=
  { s with skipped, duration }

def hitsFor (s : Summary) (id : String) : Nat :=
  match s.totals.find? fun t => t.ruleId == id with
  | some t => t.hits
  | none => 0

/-- Nothing went wrong. -/
def isClean (s : Summary) : Bool :=
  s.errors.isEmpty && s.ruleErrors.isEmpty && s.skipped.isEmpty

/-- How many things went wrong. -/
def problems (s : Summary) : Nat := s.errors.length + s.ruleErrors.length + s.skipped.length

/-! ## As data -/

def hitsValue (h : HitCounts) : Value := .table (h.map fun (id, n) => (id, .nat n))

def pathValue (p : Path) : Value := .text p.text

def toValue (s : Summary) : Value :=
  .table [
    ("root", pathValue s.root), ("dry_run", .bool s.dryRun),
    ("deleted_paths", .list (s.deleted.map pathValue)),
    ("modified_files", .list (s.modified.map fun f =>
      .table [("path", pathValue f.path), ("hits", hitsValue f.hits)])),
    ("total_files_scanned", .nat s.scanned),
    ("rule_totals", .list (s.totals.map fun t =>
      .table [("rule_id", .text t.ruleId), ("hits", .nat t.hits), ("files", .nat t.files)])),
    ("errors", .list (s.errors.map fun e =>
      .table [("path", pathValue e.path), ("code", .text e.code), ("reason", .text e.reason)])),
    ("rule_errors", .list (s.ruleErrors.map fun e =>
      .table [("rule_id", .text e.ruleId), ("path", .ofOption pathValue e.path),
        ("reason", .text e.reason)])),
    ("skipped_dirs", .list (s.skipped.map fun d =>
      .table [("path", pathValue d.path), ("reason", .text d.reason)])),
    ("duration_ms", .nat s.duration)]

/-! ## As text -/

/-- How many items of a list are shown. -/
def listLimit : Nat := 30

/-- The lines of a list, cut short where it is too long. -/
def limited (items : List String) : List String :=
  let shown := (items.take listLimit).map fun i => "  " ++ i
  if items.length > listLimit then
    shown ++ [s!"  ... and {items.length - listLimit} more"]
  else shown

/-- A list under its title, a blank line before it; nothing where the list is empty. -/
def titled (title : String) (lines : List String) : List String :=
  if lines.isEmpty then [] else "" :: title :: lines

def pad (width : Nat) (s : String) : String :=
  s ++ String.ofList (List.replicate (width - s.length) ' ')

def fileLine (f : FileSummary) : String :=
  let hits := f.hits.map fun (id, n) => id ++ " x" ++ toString n
  f.path.text ++ " (" ++ ", ".intercalate hits ++ ")"

/-- The totals of the rules that had hits, the counts below one another. -/
def totalLines (totals : List RuleTotal) : List String :=
  let active := totals.filter fun t => t.hits > 0
  let width := (active.map fun t => t.ruleId.utf8ByteSize).foldl max 0
  active.map fun t => "  " ++ pad width t.ruleId ++ s!"  {t.hits} in {t.files} file(s)"

def ruleErrorLine (e : RuleError) : String :=
  match e.path with
  | some p => e.ruleId ++ " in " ++ p.text ++ ": " ++ e.reason
  | none => e.ruleId ++ " (disabled): " ++ e.reason

def lines (s : Summary) : List String :=
  [ "Rewrite summary" ++ (if s.dryRun then " (dry run)" else "") ++ ":",
    "  Root: " ++ s.root.text,
    s!"  Files scanned: {s.scanned}",
    s!"  Files modified: {s.modified.length}",
    s!"  Files deleted: {s.deleted.length}",
    "  Duration: " ++ Decimal.secondsText s.duration ++ "s" ]
  ++ titled (if s.dryRun then "Would delete:" else "Deleted:") (limited (s.deleted.map (·.text)))
  ++ titled (if s.dryRun then "Would modify:" else "Modified:") (limited (s.modified.map fileLine))
  ++ titled "Rule hits:" (totalLines s.totals)
  ++ titled "Errors:" (limited (s.errors.map fun e =>
      "[" ++ e.code ++ "] " ++ e.path.text ++ ": " ++ e.reason))
  ++ titled "Rule errors:" (limited (s.ruleErrors.map ruleErrorLine))
  ++ titled "Skipped directories:" (limited (s.skipped.map fun d =>
      d.path.relativeTo s.root ++ ": " ++ d.reason))

def render (s : Summary) : String := String.join (s.lines.map (· ++ "\n"))

end Summary

end Codemod
