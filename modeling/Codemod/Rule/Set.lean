/-
Rule sets: rules in the order in which they run, under distinct ids. A rule that does not compile is
left out and reported; the others run.
-/
import Codemod.Rule.Spec

namespace Codemod

open Text

/-- A rule that is off, or that failed on a text, and why. -/
structure RuleFailure where
  ruleId : String
  reason : String
  deriving DecidableEq, Repr

structure RuleSet where
  rules : List Rule
  disabled : List RuleFailure

namespace RuleSet

def empty : RuleSet := ⟨[], []⟩

/-- The first id that an earlier one repeats. -/
def duplicate? : List String → List String → Option String
  | _, [] => none
  | seen, id :: ids => if seen.contains id then some id else duplicate? (id :: seen) ids

def ofRules (rules : List Rule) : Except Error RuleSet :=
  match duplicate? [] (rules.map Rule.id) with
  | some id => .error (.duplicateRule id)
  | none => .ok ⟨rules, []⟩

/-- The first spec with an empty id or the id of an earlier one. -/
def checkIds : List String → List RuleSpec → Except Error Unit
  | _, [] => .ok ()
  | seen, s :: specs =>
    if isBlankText s.id then .error (.invalidConfig ("a " ++ s.kind ++ " rule has an empty id"))
    else if seen.contains s.id then .error (.duplicateRule s.id)
    else checkIds (s.id :: seen) specs

/-- Compiles every spec, keeping the order of those that compile and of those that do not. -/
def compile : List RuleSpec → RuleSet
  | [] => empty
  | s :: specs =>
    let set := compile specs
    match s.build with
    | .ok r => { set with rules := r :: set.rules }
    | .error e => { set with disabled := ⟨s.id, e.message⟩ :: set.disabled }

def ofSpecs (specs : List RuleSpec) : Except Error RuleSet := do
  checkIds [] specs
  return compile specs

def get? (s : RuleSet) (id : String) : Option Rule := s.rules.find? fun r => r.id == id

end RuleSet

end Codemod
