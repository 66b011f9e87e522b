/-
A TOML document as it is put together, statement by statement. How a table came about decides whether
a later statement may add to it.
-/
import Codemod.Data.Value

namespace Codemod.Data.Toml

/-- How a table came about. -/
inductive Origin where
  /-- By a header of its own. -/
  | stated
  /-- By a longer header that runs through it. -/
  | implied
  /-- By a dotted key. -/
  | dotted
  deriving DecidableEq, Repr

inductive Node where
  | value (v : Value)
  | table (origin : Origin) (entries : List (String × Node))
  /-- The tables that repeated headers open, each with its entries, the last one first. -/
  | tables (items : List (List (String × Node)))

abbrev Entries := List (String × Node)

namespace Entries

def get? (key : String) (es : Entries) : Option Node := (es.find? fun e => e.1 == key).map (·.2)

/-- Replaces what is under a key, or adds it behind the others. -/
def put (key : String) (node : Node) : Entries → Entries
  | [] => [(key, node)]
  | (k, n) :: es => if k == key then (key, node) :: es else (k, n) :: put key node es

/-- Changes the last table of a list. -/
def changeLast (f : Entries → Option Entries) (items : List Entries) : Option (List Entries) :=
  match items with
  | es :: items => (f es).map fun es => es :: items
  | [] => none

/-- Changes the table that a header's keys lead to; tables on the way come to be if they are not
there, and of a list the last one is meant. -/
def change (f : Entries → Option Entries) : List String → Entries → Option Entries
  | [], es => f es
  | key :: path, es =>
    match es.get? key with
    | none => (change f path []).map fun sub => es ++ [(key, .table .implied sub)]
    | some (.value _) => none
    | some (.table origin sub) =>
      (change f path sub).map fun sub => es.put key (.table origin sub)
    | some (.tables items) =>
      (changeLast (change f path) items).map fun items => es.put key (.tables items)

/-- Adds a value under a dotted key. Tables with a header are closed to it, and it may end only in
a table that dotted keys have made. -/
def assign (value : Value) (last : String) : List String → Entries → Option Entries
  | [], es => if (es.get? last).isSome then none else some (es ++ [(last, .value value)])
  | key :: path, es =>
    match es.get? key with
    | none => (assign value last path []).map fun sub => es ++ [(key, .table .dotted sub)]
    | some (.value _) => none
    | some (.table .stated _) => none
    | some (.table .implied sub) =>
      if path.isEmpty then none
      else (assign value last path sub).map fun sub => es.put key (.table .implied sub)
    | some (.table .dotted sub) =>
      (assign value last path sub).map fun sub => es.put key (.table .dotted sub)
    | some (.tables items) =>
      if path.isEmpty then none
      else (changeLast (assign value last path) items).map fun items => es.put key (.tables items)

/-- A header opens a table that is not there yet, or that only longer headers have named. -/
def openTable (last : String) (es : Entries) : Option Entries :=
  match es.get? last with
  | none => some (es ++ [(last, .table .stated [])])
  | some (.table .implied sub) => some (es.put last (.table .stated sub))
  | some _ => none

/-- A doubled header opens one more table of a list. -/
def openItem (last : String) (es : Entries) : Option Entries :=
  match es.get? last with
  | none => some (es ++ [(last, .tables [[]])])
  | some (.tables items) => some (es.put last (.tables ([] :: items)))
  | some _ => none

mutual

def toValue : Node → Value
  | .value v => v
  | .table _ es => .table (toFields es)
  | .tables items => .list (toItems items [])

def toFields : List (String × Node) → List (String × Value)
  | [] => []
  | (key, n) :: es => (key, toValue n) :: toFields es

def toItems : List (List (String × Node)) → List Value → List Value
  | [], behind => behind
  | es :: items, behind => toItems items (.table (toFields es) :: behind)

end

end Entries

/-- One line of a document, or more where a value runs over lines. -/
inductive Statement where
  | assign (path : List String) (last : String) (value : Value)
  | table (path : List String) (last : String)
  | item (path : List String) (last : String)

/-- A document with the header under which assignments go. -/
structure Document where
  entries : Entries := []
  heading : List String := []

namespace Document

def add (d : Document) : Statement → Option Document
  | .assign path last value =>
    (Entries.change (Entries.assign value last path) d.heading d.entries).map fun es =>
      { d with entries := es }
  | .table path last =>
    (Entries.change (Entries.openTable last) path d.entries).map fun es =>
      ⟨es, path ++ [last]⟩
  | .item path last =>
    (Entries.change (Entries.openItem last) path d.entries).map fun es => ⟨es, path ++ [last]⟩

/-- The fields that the statements give together. -/
def ofStatements? (statements : List Statement) : Option (List (String × Value)) :=
  (statements.foldlM add {}).map fun d => Entries.toFields d.entries

end Document

end Codemod.Data.Toml
