/-
Rule specs as data: reading them, and writing them with every default filled in.
-/
import Codemod.Data.Decode
import Codemod.Rule.Spec

namespace Codemod

open Data

namespace MatchFlags

def ofValue? (v : Value) : Option MatchFlags := do
  let es ← v.record? ["case_insensitive", "multi_line", "dot_matches_new_line"]
  return {
    caseInsensitive := ← Value.defaulted es "case_insensitive" Value.bool? false
    multiLine := ← Value.defaulted es "multi_line" Value.bool? false
    dotMatchesNewLine := ← Value.defaulted es "dot_matches_new_line" Value.bool? false }

def toValue (f : MatchFlags) : Value :=
  .table [("case_insensitive", .bool f.caseInsensitive), ("multi_line", .bool f.multiLine),
    ("dot_matches_new_line", .bool f.dotMatchesNewLine)]

end MatchFlags

namespace ReplacementSpec

def ofValue? : Value → Option ReplacementSpec
  | .text s => some (.text s)
  | .table es => (Value.required es "strip" (Value.list? Value.text?)).map .strip
  | _ => none

def toValue : ReplacementSpec → Value
  | text s => .text s
  | strip needles => .table [("strip", .list (needles.map .text))]

end ReplacementSpec

namespace Relocation

def ofEntries? (es : List (String × Value)) : Option Relocation := do
  return {
    source := ← Value.required es "from" Value.text?
    target := ← Value.required es "to" Value.text?
    depths := ← Value.defaulted es "depths" (Value.list? Value.nat?) []
    targetDepth := ← Value.maybe es "to_depth" Value.nat?
    isDirectory := ← Value.defaulted es "prefix" Value.bool? false }

def ofValue? (v : Value) : Option Relocation :=
  (v.record? ["from", "to", "depths", "to_depth", "prefix"]).bind ofEntries?

def entries (r : Relocation) : List (String × Value) :=
  [("from", .text r.source), ("to", .text r.target), ("depths", .list (r.depths.map .nat)),
    ("to_depth", .ofOption .nat r.targetDepth), ("prefix", .bool r.isDirectory)]

end Relocation

namespace ClosedSet

def ofEntries? (es : List (String × Value)) : Option ClosedSet := do
  return {
    call := ← Value.required es "call" Value.text?
    remove := ← Value.required es "remove" (Value.list? Value.text?)
    default := ← Value.maybe es "default" Value.text?
    emptyReplacement := ← Value.maybe es "empty_replacement" Value.text?
    fallbackContext := ← Value.maybe es "fallback_context" Value.text? }

def ofValue? (v : Value) : Option ClosedSet :=
  (v.record? ["call", "remove", "default", "empty_replacement", "fallback_context"]).bind
    ofEntries?

def entries (s : ClosedSet) : List (String × Value) :=
  [("call", .text s.call), ("remove", .list (s.remove.map .text)),
    ("default", .ofOption .text s.default),
    ("empty_replacement", .ofOption .text s.emptyReplacement),
    ("fallback_context", .ofOption .text s.fallbackContext)]

end ClosedSet

namespace RuleAction

/-- The fields of each kind in their order, for the kinds that may be written as a list. -/
def fieldOrder? (kind : String) : Option (List String) :=
  match kind with
  | "literal" => some ["id", "description", "needle", "replacement"]
  | "regex" => some ["id", "description", "pattern", "flags", "replacement", "expand"]
  | "block" =>
    some ["id", "description", "start", "flags", "delimiters", "replacement", "expand"]
  | "marked" => some ["id", "description", "start", "end", "flags", "replacement", "expand"]
  | _ => none

def ofEntries? (kind : String) (es : List (String × Value)) : Option RuleAction :=
  let flags := Value.defaulted es "flags" MatchFlags.ofValue? {}
  let replacement := Value.defaulted es "replacement" ReplacementSpec.ofValue? (.text "")
  let expand := Value.defaulted es "expand" Value.bool? false
  match kind with
  | "literal" => do return .literal (← Value.required es "needle" Value.text?) (← replacement)
  | "regex" => do
    return .regex (← Value.required es "pattern" Value.text?) (← flags) (← replacement) (← expand)
  | "block" => do
    return .block (← Value.required es "start" Value.text?) (← flags)
      (← Value.defaulted es "delimiters" Value.text? "\x7b\x7d") (← replacement) (← expand)
  | "marked" => do
    return .marked (← Value.required es "start" Value.text?) (← Value.required es "end" Value.text?)
      (← flags) (← replacement) (← expand)
  | "import_relocation" => (Relocation.ofEntries? es).map .relocation
  | "closed_set" => (ClosedSet.ofEntries? es).map .closedSet
  | _ => none

def entries : RuleAction → List (String × Value)
  | literal needle replacement =>
    [("needle", .text needle), ("replacement", replacement.toValue)]
  | regex pattern flags replacement expand =>
    [("pattern", .text pattern), ("flags", flags.toValue), ("replacement", replacement.toValue),
      ("expand", .bool expand)]
  | block start flags delimiters replacement expand =>
    [("start", .text start), ("flags", flags.toValue), ("delimiters", .text delimiters),
      ("replacement", replacement.toValue), ("expand", .bool expand)]
  | marked start stop flags replacement expand =>
    [("start", .text start), ("end", .text stop), ("flags", flags.toValue),
      ("replacement", replacement.toValue), ("expand", .bool expand)]
  | relocation r => r.entries
  | closedSet s => s.entries

end RuleAction

namespace RuleSpec

def ofEntries? (kind : String) (es : List (String × Value)) : Option RuleSpec := do
  return {
    id := ← Value.required es "id" Value.text?
    description := ← Value.defaulted es "description" Value.text? ""
    action := ← RuleAction.ofEntries? kind es }

/-- A spec is a table that names its kind, or a list with the kind before the fields. -/
def ofValue? : Value → Option RuleSpec
  | .table es => do ofEntries? (← Value.required es "kind" Value.text?) es
  | .list (.text kind :: items) => do
    let fields ← RuleAction.fieldOrder? kind
    ofEntries? kind (← Value.record? fields (.list items))
  | _ => none

def toValue (s : RuleSpec) : Value :=
  .table ([("kind", .text s.kind), ("id", .text s.id), ("description", .text s.description)]
    ++ s.action.entries)

end RuleSpec

end Codemod
