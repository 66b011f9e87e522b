/-
The phases of a run. A run only moves on to later phases; it may leave some out.
-/
import Codemod.Error

namespace Codemod

inductive Phase where
  | idle
  | deleting
  | scanning
  | rewriting
  | reporting
  | done
  deriving DecidableEq, Repr

namespace Phase

def rank : Phase → Nat
  | idle => 0
  | deleting => 1
  | scanning => 2
  | rewriting => 3
  | reporting => 4
  | done => 5

def name : Phase → String
  | idle => "Idle"
  | deleting => "Deleting"
  | scanning => "Scanning"
  | rewriting => "Rewriting"
  | reporting => "Reporting"
  | done => "Done"

def advance (p next : Phase) : Except Error Phase :=
  if p.rank < next.rank then .ok next
  else .error (.runtime ("run phase cannot move from " ++ p.name ++ " to " ++ next.name))

end Phase

end Codemod
