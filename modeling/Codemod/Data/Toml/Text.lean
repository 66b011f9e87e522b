/-
Strings in TOML: in double quotes, where a backslash escapes, or in single quotes, where nothing does;
three quotes hold texts of more than one line.
-/
import Codemod.Data.Toml.Layout
import Codemod.Text.Hex

namespace Codemod.Data.Toml

open Text

/-- The character that as many digits of base sixteen write. -/
def readCode (count : Nat) (cs : List Char) : Option (Char × List Char) :=
  let ds := cs.take count
  let n := Hex.number ds
  if ds.length == count && ds.all Hex.isDigit && n.isValidChar then
    some (Char.ofNat n, cs.drop count)
  else none

/-- Reads an escape behind its backslash. -/
def readEscape : List Char → Option (Char × List Char)
  | 'b' :: rest => some ('\x08', rest)
  | 't' :: rest => some ('\t', rest)
  | 'n' :: rest => some ('\n', rest)
  | 'f' :: rest => some ('\x0c', rest)
  | 'r' :: rest => some ('\r', rest)
  | '"' :: rest => some ('"', rest)
  | '\\' :: rest => some ('\\', rest)
  | 'u' :: rest => readCode 4 rest
  | 'U' :: rest => readCode 8 rest
  | _ => none

/-- Reads a line in double quotes behind the opening one; `done` has the last character first. -/
def readBasic : Nat → List Char → List Char → Option (String × List Char)
  | 0, _, _ => none
  | fuel + 1, done, cs =>
    match cs with
    | [] => none
    | '"' :: rest => some (String.ofList done.reverse, rest)
    | '\\' :: rest => do
      let (c, rest) ← readEscape rest
      readBasic fuel (c :: done) rest
    | c :: rest => if isPlain c then readBasic fuel (c :: done) rest else none

/-- Reads a line in single quotes behind the opening one. -/
def readLiteral (cs : List Char) : Option (String × List Char) :=
  let inside := cs.takeWhile fun c => c != '\'' && isPlain c
  match cs.drop inside.length with
  | '\'' :: rest => some (String.ofList inside, rest)
  | _ => none

/-- A backslash at the end of a line skips to the next character that is neither blank nor a line
break. -/
def lineJoin? (cs : List Char) : Option (List Char) := (lineBreak? (skipGap cs)).map skipLines

/-- What a run of quotes means inside three of them: less than three stand for themselves; of more,
the last three close, and up to two before them stand for themselves. -/
def closing? (run : Nat) : Option Nat := if run < 3 then none else some (min (run - 3) 2)

/-- Reads lines between three double quotes, or with `raw` three single ones, behind the opening
ones. -/
def readLines (raw : Bool) : Nat → List Char → List Char → Option (String × List Char)
  | 0, _, _ => none
  | fuel + 1, done, cs =>
    let mark := if raw then '\'' else '"'
    let run := (cs.takeWhile (· == mark)).length
    if 0 < run then
      match closing? run with
      | some n =>
        some (String.ofList (List.replicate n mark ++ done).reverse, cs.drop (n + 3))
      | none => readLines raw fuel (List.replicate run mark ++ done) (cs.drop run)
    else match cs with
      | [] => none
      | '\n' :: rest => readLines raw fuel ('\n' :: done) rest
      | '\r' :: '\n' :: rest => readLines raw fuel ('\n' :: done) rest
      | c :: rest =>
        if c == '\\' && !raw then
          match lineJoin? rest with
          | some rest => readLines raw fuel done rest
          | none => do
            let (c, rest) ← readEscape rest
            readLines raw fuel (c :: done) rest
        else if isPlain c then readLines raw fuel (c :: done) rest
        else none

/-- Reads a string with its quotes. A line break right behind three opening quotes is left out. -/
def readText (fuel : Nat) (cs : List Char) : Option (String × List Char) :=
  match cs with
  | '"' :: '"' :: '"' :: rest => readLines false fuel [] (skipBreak rest)
  | '"' :: rest => readBasic fuel [] rest
  | '\'' :: '\'' :: '\'' :: rest => readLines true fuel [] (skipBreak rest)
  | '\'' :: rest => readLiteral rest
  | _ => none

end Codemod.Data.Toml
