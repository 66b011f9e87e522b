/-
Rules as a rule file describes them.
-/
import Codemod.Rule.Basic
import Codemod.Rule.ClosedSet
import Codemod.Rule.Relocation

namespace Codemod

/-- What a rule does, by its kind. -/
inductive RuleAction where
  | literal (needle : String) (replacement : ReplacementSpec)
  | regex (pattern : String) (flags : MatchFlags) (replacement : ReplacementSpec) (expand : Bool)
  /-- The delimiters are an opening and a closing character. -/
  | block (start : String) (flags : MatchFlags) (delimiters : String)
    (replacement : ReplacementSpec) (expand : Bool)
  | marked (start stop : String) (flags : MatchFlags) (replacement : ReplacementSpec)
    (expand : Bool)
  | relocation (r : Relocation)
  | closedSet (s : ClosedSet)
  deriving DecidableEq, Repr

structure RuleSpec where
  id : String
  description : String := ""
  action : RuleAction
  deriving DecidableEq, Repr

namespace RuleAction

def kind : RuleAction → String
  | literal .. => "literal"
  | regex .. => "regex"
  | block .. => "block"
  | marked .. => "marked"
  | relocation _ => "import_relocation"
  | closedSet _ => "closed_set"

def build : RuleAction → Except Refusal (Matcher × Replacement)
  | literal needle replacement => do
    return (← Matcher.literal? needle, replacement.build false)
  | regex pattern flags replacement expand => do
    return (← Matcher.regex? pattern flags, replacement.build expand)
  | block start flags delimiters replacement expand =>
    match delimiters.toList with
    | [opening, closing] => do
      return (← Matcher.block? start flags opening closing, replacement.build expand)
    | _ => .error (.badDelimiters delimiters)
  | marked start stop flags replacement expand => do
    return (← Matcher.marked? start stop flags, replacement.build expand)
  | relocation r => r.build
  | closedSet s => s.build

end RuleAction

namespace RuleSpec

def kind (s : RuleSpec) : String := s.action.kind

/-- Compiles the rule. -/
def build (s : RuleSpec) : Except Refusal Rule := do
  let (matcher, replacement) ← s.action.build
  Rule.create s.id matcher replacement s.description

end RuleSpec

end Codemod
