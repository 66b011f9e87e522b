/-
Reading domain values out of data. A reading gives nothing where the value has the wrong shape.
-/
import Codemod.Data.Value

namespace Codemod.Data.Value

def text? : Value → Option String
  | .text s => some s
  | _ => none

def bool? : Value → Option Bool
  | .bool b => some b
  | _ => none

/-- An unsigned number of 64 bits. -/
def nat? : Value → Option Nat
  | .int n => if 0 ≤ n ∧ n < 0x10000000000000000 then some n.toNat else none
  | _ => none

/-- A signed number of 64 bits. -/
def int? : Value → Option Int
  | .int n => if -0x8000000000000000 ≤ n ∧ n < 0x8000000000000000 then some n else none
  | _ => none

def list? (read : Value → Option α) : Value → Option (List α)
  | .list items => items.mapM read
  | _ => none

/-- An optional value is absent where it is null. -/
def optional? (read : Value → Option α) : Value → Option (Option α)
  | .null => some none
  | v => (read v).map some

/-- The entries of a record, which is a table, or a list of the fields in their order. A moment has
none of the fields. -/
def record? (fields : List String) : Value → Option (List (String × Value))
  | .table entries => some entries
  | .list items => if items.length ≤ fields.length then some (fields.zip items) else none
  | .moment _ => some []
  | _ => none

/-- The entries of a record; of a list that is too long the rest is left out. -/
def looseRecord? (fields : List String) : Value → Option (List (String × Value))
  | .list items => some (fields.zip items)
  | v => v.record? fields

/-- The entries of a record of which a list gives every field. -/
def fullRecord? (fields : List String) : Value → Option (List (String × Value))
  | .table entries => some entries
  | .list items => if items.length == fields.length then some (fields.zip items) else none
  | _ => none

/-- A name that stands alone, or as the key of a table that says nothing else. -/
def word? : Value → Option String
  | .text s => some s
  | .table [(s, .null)] => some s
  | _ => none

/-- A field that has to be there. -/
def required (entries : List (String × Value)) (key : String) (read : Value → Option α) :
    Option α :=
  (lookup key entries).bind read

/-- A field with a default for where it is not there. -/
def defaulted (entries : List (String × Value)) (key : String) (read : Value → Option α)
    (default : α) : Option α :=
  match lookup key entries with
  | some v => read v
  | none => some default

/-- A field that may be absent or null. -/
def maybe (entries : List (String × Value)) (key : String) (read : Value → Option α) :
    Option (Option α) :=
  match lookup key entries with
  | some v => optional? read v
  | none => some none

end Codemod.Data.Value
