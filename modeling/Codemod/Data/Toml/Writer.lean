/-
Writing TOML: the plain fields of a table come first, then each table under a header of its own, a
blank line before it. A string is written in the plainest way that can hold it.
-/
import Codemod.Data.Toml.Reader

namespace Codemod.Data.Toml

open Text

/-! ## Strings -/

/-- The longest run of a character. -/
def longestRun (c : Char) (cs : List Char) : Nat :=
  (cs.foldl (fun (now, best) x =>
    if x == c then (now + 1, max best (now + 1)) else (0, best)) (0, 0)).2

/-- Controls that no string may hold as they are; a tab or a line break is none of them. -/
def needsEscape (c : Char) : Bool := (c.toNat < 0x20 && c != '\t' && c != '\n') || c.toNat == 0x7F

inductive TextStyle where
  | basic
  | literal
  | basicLines
  | literalLines
  deriving DecidableEq, Repr

namespace TextStyle

/-- The first style that needs no escapes; where there is none, escapes are written. -/
def choose (cs : List Char) : TextStyle :=
  let coded := cs.any needsEscape
  let broken := cs.contains '\n'
  let slashed := cs.contains '\\'
  let doubles := longestRun '"' cs
  let singles := longestRun '\'' cs
  if !coded && !slashed && doubles == 0 && !broken then basic
  else if !coded && singles == 0 && !broken then literal
  else if !coded && !slashed && doubles ≤ 2 then basicLines
  else if !coded && singles ≤ 2 then literalLines
  else if broken then basicLines
  else basic

def mark : TextStyle → List Char
  | basic => ['"']
  | literal => ['\'']
  | basicLines => ['"', '"', '"']
  | literalLines => ['\'', '\'', '\'']

end TextStyle

/-- How a character is written in double quotes; in three of them a line break stays. -/
def escapeText (lines : Bool) (c : Char) : List Char :=
  if c == '\x08' then ['\\', 'b']
  else if c == '\t' then ['\\', 't']
  else if c == '\n' then if lines then ['\n'] else ['\\', 'n']
  else if c == '\x0c' then ['\\', 'f']
  else if c == '\r' then ['\\', 'r']
  else if c == '\\' then ['\\', '\\']
  else if needsEscape c then '\\' :: 'u' :: (Hex.padded 4 c.toNat).map Char.toUpper
  else [c]

/-- Escapes a text; `allowed` quotes may stand in a row, and `row` of them stand already. -/
def escapeTexts (lines : Bool) (allowed : Nat) : Nat → List Char → List Char
  | _, [] => []
  | row, c :: cs =>
    if c == '"' then
      if row < allowed then '"' :: escapeTexts lines allowed (row + 1) cs
      else '\\' :: '"' :: escapeTexts lines allowed 0 cs
    else escapeText lines c ++ escapeTexts lines allowed 0 cs

def writeText (s : String) : String :=
  let cs := s.toList
  let style := TextStyle.choose cs
  let inside := match style with
    | .basic => escapeTexts false 0 0 cs
    | .basicLines => escapeTexts true 2 0 cs
    | .literal | .literalLines => cs
  let opening := if cs.contains '\n' && style.mark.length == 3 then ['\n'] else []
  String.ofList (style.mark ++ opening ++ inside ++ style.mark)

/-! ## Values -/

def writeKey (key : String) : String :=
  if !key.isEmpty && key.toList.all isBare then key else writeText key

mutual

def writeValue : Value → String
  | .null => ""
  | .bool b => if b then "true" else "false"
  | .int n => toString n
  | .float text => text
  | .moment text => text
  | .text s => writeText s
  | .list items =>
    if items.length ≤ 1 then "[" ++ writeItems items ++ "]" else "[\n" ++ writeLines items ++ "]"
  | .table es => if es.isEmpty then "\x7b\x7d" else "\x7b " ++ writePairs es ++ " \x7d"

def writeItems : List Value → String
  | [] => ""
  | v :: items => writeValue v ++ writeItems items

/-- The items of a list, one on a line. -/
def writeLines : List Value → String
  | [] => ""
  | v :: items => "    " ++ writeValue v ++ ",\n" ++ writeLines items

def writePairs : List (String × Value) → String
  | [] => ""
  | [(key, v)] => writeKey key ++ " = " ++ writeValue v
  | (key, v) :: es => writeKey key ++ " = " ++ writeValue v ++ ", " ++ writePairs es

end

/-! ## Documents -/

def isTable : Value → Bool
  | .table _ => true
  | _ => false

/-- Whether a value goes under headers of its own. -/
def hasHeader : Value → Bool
  | .table _ => true
  | .list items => !items.isEmpty && items.all isTable
  | _ => false

/-- The plain fields of a table, one on a line. What is null is left out. -/
def writeFields (es : List (String × Value)) : String :=
  String.join (es.map fun (key, v) => match v with
    | .null => ""
    | v => if hasHeader v then "" else writeKey key ++ " = " ++ writeValue v ++ "\n")

def writePath (path : List String) : String := ".".intercalate (path.map writeKey)

mutual

/-- The parts that a field makes, each with its header. -/
def parts (path : List String) : Value → List String
  | .table es => ("[" ++ writePath path ++ "]\n" ++ writeFields es) :: partsOfFields path es
  | .list items =>
    if !items.isEmpty && items.all isTable then partsOfItems path items else []
  | _ => []

def partsOfFields (path : List String) : List (String × Value) → List String
  | [] => []
  | (key, v) :: es => parts (path ++ [key]) v ++ partsOfFields path es

def partsOfItems (path : List String) : List Value → List String
  | [] => []
  | v :: items => partsOfItem path v ++ partsOfItems path items

def partsOfItem (path : List String) : Value → List String
  | .table es => ("[[" ++ writePath path ++ "]]\n" ++ writeFields es) :: partsOfFields path es
  | _ => []

end

/-- The text of a document. -/
def write (es : List (String × Value)) : String :=
  let plain := writeFields es
  let rest := partsOfFields [] es
  "\n".intercalate (if plain.isEmpty then rest else plain :: rest)

end Codemod.Data.Toml
