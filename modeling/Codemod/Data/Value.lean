/-
Values as data formats hold them.
-/
namespace Codemod.Data

inductive Value where
  | null
  | bool (b : Bool)
  | int (n : Int)
  /-- A number that is not written as an integer, kept as it is written. -/
  | float (text : String)
  /-- A date or a time, kept as it is written. -/
  | moment (text : String)
  | text (s : String)
  | list (items : List Value)
  | table (entries : List (String × Value))
  deriving Repr, Inhabited

namespace Value

/-- The value under a key; the last one counts where a key comes twice. -/
def lookup (key : String) (entries : List (String × Value)) : Option Value :=
  (entries.reverse.find? fun e => e.1 == key).map (·.2)

def get? (v : Value) (key : String) : Option Value :=
  match v with
  | table entries => lookup key entries
  | _ => none

def nat (n : Nat) : Value := .int n

/-- An absent value is null. -/
def ofOption (f : α → Value) (o : Option α) : Value :=
  match o with
  | some a => f a
  | none => .null

mutual

/-- A value whose tables have their keys in order. -/
def sorted : Value → Value
  | .list items => .list (sortedItems items)
  | .table es => .table ((sortedEntries es).mergeSort fun a b => decide (a.1 ≤ b.1))
  | v => v

def sortedItems : List Value → List Value
  | [] => []
  | v :: vs => sorted v :: sortedItems vs

def sortedEntries : List (String × Value) → List (String × Value)
  | [] => []
  | (k, v) :: es => (k, sorted v) :: sortedEntries es

end

end Value

end Codemod.Data
