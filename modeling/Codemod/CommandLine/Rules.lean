/-
The list of the configured rules, each with what keeps it from being used.
-/
import Codemod.CommandLine.Reply
import Codemod.Config.Load

namespace Codemod.CommandLine

open Data

/-- A rule as the list shows it. -/
structure RuleRow where
  id : String
  kind : String
  description : String
  /-- Why the rule cannot be used. -/
  error : Option Error

namespace RuleRow

def ofSpec (s : RuleSpec) : RuleRow where
  id := s.id
  kind := s.kind
  description := s.description
  error := match s.build with
    | .ok _ => none
    | .error e => some (.invalidRule s.id e.message)

def toValue (r : RuleRow) : Value :=
  .table [
    ("id", .text r.id), ("kind", .text r.kind), ("description", .text r.description),
    ("ok", .bool r.error.isNone), ("error", .ofOption (fun e => .text e.message) r.error)]

/-- Fills a text up to a width with blanks behind it. -/
def padRight (width : Nat) (s : String) : String :=
  s ++ String.ofList (List.replicate (width - s.length) ' ')

/-- Fills a text up to a width with blanks before it. -/
def padLeft (width : Nat) (s : String) : String :=
  String.ofList (List.replicate (width - s.length) ' ') ++ s

/-- The lines of a rule: its place in the list, and below it what is wrong with it. -/
def lines (label : String) (width number : Nat) (r : RuleRow) : String :=
  padLeft 3 (toString number) ++ ". " ++ padRight width r.id ++ "  " ++ padRight 16 r.kind ++ "  "
    ++ r.description ++ "\n"
  ++ match r.error with
    | some e => "       " ++ label ++ " " ++ e.message ++ "\n"
    | none => ""

/-- The rules below one another, numbered from one. -/
def render (label : String) (rows : List RuleRow) : String :=
  let width := (rows.map fun r => r.id.utf8ByteSize).foldl max 0
  String.join ((rows.zipIdx 1).map fun (r, n) => r.lines label width n)

end RuleRow

def rules (s : Surroundings) (o : Options) (d : Disk) : Reply :=
  match Config.load d s.home s.settingVars o.config with
  | .error e => .ofError d e
  | .ok c =>
    let rows := c.rules.map RuleRow.ofSpec
    .ofOutput d (match audience s o with
      | .programs =>
        jsonLine (.table [("command", .text "rules"), ("rules", .list (rows.map RuleRow.toValue))])
      | .people =>
        if rows.isEmpty then "No rules configured (" ++ c.file.text ++ ").\n"
        else RuleRow.render (paint s o .red "error:") rows)

end Codemod.CommandLine
