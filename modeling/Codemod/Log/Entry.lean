/-
Entries of the activity log. An entry is one line of JSON; what it does not say is left out of it.
-/
import Codemod.Data.Decode
import Codemod.Data.Json
import Codemod.Rule.Chain

namespace Codemod

open Data

inductive Severity where
  | info
  | warning
  | error
  deriving DecidableEq, Repr

namespace Severity

def name : Severity → String
  | info => "info"
  | warning => "warning"
  | error => "error"

def ofName? (s : String) : Option Severity := [info, warning, error].find? fun x => x.name == s

end Severity

/-- What an entry is about. -/
inductive EntryKind where
  | runStart
  | fileDelete
  | fileRewrite
  | fileFail
  | ruleFail
  | dirSkip
  | runComplete
  | error
  deriving DecidableEq, Repr

namespace EntryKind

def name : EntryKind → String
  | runStart => "run_start"
  | fileDelete => "file_delete"
  | fileRewrite => "file_rewrite"
  | fileFail => "file_fail"
  | ruleFail => "rule_fail"
  | dirSkip => "dir_skip"
  | runComplete => "run_complete"
  | error => "error"

def all : List EntryKind :=
  [runStart, fileDelete, fileRewrite, fileFail, ruleFail, dirSkip, runComplete, error]

def ofName? (s : String) : Option EntryKind := all.find? fun x => x.name == s

end EntryKind

structure LogEntry where
  /-- When it happened, as a text. -/
  time : String
  kind : EntryKind
  severity : Severity
  path : Option String := none
  ruleId : Option String := none
  hits : Option HitCounts := none
  /-- Digests of a file before and after it was rewritten. -/
  before : Option String := none
  after : Option String := none
  scanned : Option Nat := none
  modified : Option Nat := none
  dryRun : Option Bool := none
  duration : Option Nat := none
  ok : Option Bool := none
  errorCode : Option String := none
  errorMessage : Option String := none
  details : Option String := none
  deriving DecidableEq, Repr

namespace LogEntry

def hitsOfValue? : Value → Option HitCounts
  | .table es => es.foldlM (fun h (id, v) => v.nat?.map fun n => h.set id n) []
  | _ => none

def hitsValue (h : HitCounts) : Value := .table (h.map fun (id, n) => (id, .nat n))

/-- A field of an entry, if the entry has it. -/
def present (key : String) (f : α → Value) (o : Option α) : List (String × Value) :=
  match o with
  | some a => [(key, f a)]
  | none => []

def toValue (e : LogEntry) : Value :=
  .table ([("ts", .text e.time), ("event", .text e.kind.name), ("severity", .text e.severity.name)]
    ++ present "path" .text e.path
    ++ present "rule_id" .text e.ruleId
    ++ present "hits" hitsValue e.hits
    ++ present "sha256_before" .text e.before
    ++ present "sha256_after" .text e.after
    ++ present "files_scanned" .nat e.scanned
    ++ present "files_modified" .nat e.modified
    ++ present "dry_run" .bool e.dryRun
    ++ present "duration_ms" .nat e.duration
    ++ present "ok" .bool e.ok
    ++ present "error_code" .text e.errorCode
    ++ present "error_message" .text e.errorMessage
    ++ present "details" .text e.details)

def fields : List String :=
  ["ts", "event", "severity", "path", "rule_id", "hits", "sha256_before", "sha256_after",
    "files_scanned", "files_modified", "dry_run", "duration_ms", "ok", "error_code",
    "error_message", "details"]

def ofValue? (v : Value) : Option LogEntry := do
  let es ← v.fullRecord? fields
  return {
    time := ← Value.required es "ts" Value.text?
    kind := ← Value.required es "event" fun v => v.word?.bind EntryKind.ofName?
    severity := ← Value.required es "severity" fun v => v.word?.bind Severity.ofName?
    path := ← Value.maybe es "path" Value.text?
    ruleId := ← Value.maybe es "rule_id" Value.text?
    hits := ← Value.maybe es "hits" hitsOfValue?
    before := ← Value.maybe es "sha256_before" Value.text?
    after := ← Value.maybe es "sha256_after" Value.text?
    scanned := ← Value.maybe es "files_scanned" Value.nat?
    modified := ← Value.maybe es "files_modified" Value.nat?
    dryRun := ← Value.maybe es "dry_run" Value.bool?
    duration := ← Value.maybe es "duration_ms" Value.nat?
    ok := ← Value.maybe es "ok" Value.bool?
    errorCode := ← Value.maybe es "error_code" Value.text?
    errorMessage := ← Value.maybe es "error_message" Value.text?
    details := ← Value.maybe es "details" Value.text? }

def line (e : LogEntry) : String := Json.write e.toValue ++ "\n"

/-- Reads a line without its line break. -/
def ofLine? (line : String) : Option LogEntry := (Json.parse? line).bind ofValue?

end LogEntry

end Codemod
