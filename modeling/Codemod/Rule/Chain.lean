/-
Running the rules of a set over a text, each on what the rules before it have made. A rule that fails
is recorded and changes nothing.
-/
import Codemod.Rule.Set

namespace Codemod

/-- Hits for each rule that had any, ordered by rule id. -/
abbrev HitCounts := List (String × Nat)

namespace HitCounts

def set (id : String) (n : Nat) : HitCounts → HitCounts
  | [] => [(id, n)]
  | (key, m) :: rest =>
    if id < key then (id, n) :: (key, m) :: rest
    else if id == key then (id, n) :: rest
    else (key, m) :: set id n rest

def total (h : HitCounts) : Nat := (h.map (·.2)).foldr (· + ·) 0

end HitCounts

structure Outcome where
  content : String
  hits : HitCounts := []
  failures : List RuleFailure := []
  deriving DecidableEq, Repr

namespace RuleSet

/-- One more rule on an outcome. -/
def applyRule (o : Outcome) (r : Rule) : Outcome :=
  match r.apply o.content with
  | .ok none => o
  | .ok (some (content, n)) => { o with content, hits := o.hits.set r.id n }
  | .error e => { o with failures := o.failures ++ [⟨r.id, e.message⟩] }

def apply (s : RuleSet) (content : String) : Outcome := s.rules.foldl applyRule { content }

end RuleSet

end Codemod
