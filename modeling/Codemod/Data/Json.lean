/-
JSON texts: writing a value without blanks, and reading one.
-/
import Codemod.Data.Value
import Codemod.Text.Hex

namespace Codemod.Data.Json

open Text

/-- A character inside a string: quotes, backslashes and controls are escaped. -/
def escapeChar (c : Char) : List Char :=
  if c == '"' then ['\\', '"']
  else if c == '\\' then ['\\', '\\']
  else if c.toNat < 0x20 then
    if c == '\x08' then ['\\', 'b']
    else if c == '\t' then ['\\', 't']
    else if c == '\n' then ['\\', 'n']
    else if c == '\x0c' then ['\\', 'f']
    else if c == '\r' then ['\\', 'r']
    else ['\\', 'u', '0', '0', Hex.digit (c.toNat / 16), Hex.digit (c.toNat % 16)]
  else [c]

def string (s : String) : String :=
  String.ofList ('"' :: s.toList.flatMap escapeChar ++ ['"'])

mutual

/-- Writes a value behind what has been written. -/
def append (out : String) : Value → String
  | .null => out ++ "null"
  | .bool b => out ++ if b then "true" else "false"
  | .int n => out ++ toString n
  | .float text => out ++ text
  | .moment text => out ++ string text
  | .text s => out ++ string s
  | .list items => appendItems (out ++ "[") items ++ "]"
  | .table entries => appendEntries (out ++ "\x7b") entries ++ "\x7d"

def appendItems (out : String) : List Value → String
  | [] => out
  | [v] => append out v
  | v :: items => appendItems (append out v ++ ",") items

def appendEntries (out : String) : List (String × Value) → String
  | [] => out
  | [(key, v)] => append (out ++ string key ++ ":") v
  | (key, v) :: entries => appendEntries (append (out ++ string key ++ ":") v ++ ",") entries

end

/-- The text of a value, without blanks. -/
def write (v : Value) : String := append "" v

def isSpace (c : Char) : Bool := c == ' ' || c == '\n' || c == '\r' || c == '\t'

def skip (cs : List Char) : List Char := cs.dropWhile isSpace

/-- Reads four digits of base sixteen. -/
def readUnit (cs : List Char) : Option (Nat × List Char) :=
  let ds := cs.take 4
  if ds.length == 4 && ds.all Hex.isDigit then some (Hex.number ds, cs.drop 4) else none

/-- Reads the code behind a `\u`, two of them where the first is half of a pair. -/
def readCode (cs : List Char) : Option (Char × List Char) := do
  let (n, rest) ← readUnit cs
  if 0xD800 ≤ n ∧ n < 0xDC00 then
    match rest with
    | '\\' :: 'u' :: rest =>
      let (m, rest) ← readUnit rest
      if 0xDC00 ≤ m ∧ m < 0xE000 then
        return (Char.ofNat (0x10000 + (n - 0xD800) * 1024 + (m - 0xDC00)), rest)
      else none
    | _ => none
  else if n.isValidChar then return (Char.ofNat n, rest)
  else none

/-- The character that a short escape stands for. -/
def shortEscape? (c : Char) : Option Char :=
  match c with
  | '"' => some '"'
  | '\\' => some '\\'
  | '/' => some '/'
  | 'b' => some '\x08'
  | 'f' => some '\x0c'
  | 'n' => some '\n'
  | 'r' => some '\r'
  | 't' => some '\t'
  | _ => none

/-- Reads a string behind its opening quote; `done` holds what has been read, the last first. -/
def readString : Nat → List Char → List Char → Option (String × List Char)
  | 0, _, _ => none
  | fuel + 1, done, cs =>
    match cs with
    | [] => none
    | '"' :: rest => some (String.ofList done.reverse, rest)
    | '\\' :: 'u' :: rest => do
      let (c, rest) ← readCode rest
      readString fuel (c :: done) rest
    | '\\' :: c :: rest => do readString fuel ((← shortEscape? c) :: done) rest
    | c :: rest => if c.toNat < 0x20 then none else readString fuel (c :: done) rest

def digitsValue (cs : List Char) : Nat := cs.foldl (fun n c => 10 * n + (c.toNat - 48)) 0

/-- Reads the digits behind a decimal point or in an exponent, with what leads them. -/
def readTail (lead : List Char) (cs : List Char) : Option (List Char × List Char) :=
  let ds := cs.takeWhile Char.isDigit
  if ds.isEmpty then none else some (lead ++ ds, cs.dropWhile Char.isDigit)

def readFraction (cs : List Char) : Option (List Char × List Char) :=
  match cs with
  | '.' :: rest => readTail ['.'] rest
  | cs => some ([], cs)

def readExponent (cs : List Char) : Option (List Char × List Char) :=
  match cs with
  | e :: rest =>
    if e == 'e' || e == 'E' then
      match rest with
      | s :: more => if s == '+' || s == '-' then readTail [e, s] more else readTail [e] rest
      | [] => none
    else some ([], cs)
  | [] => some ([], [])

def readNumber (cs : List Char) : Option (Value × List Char) := do
  let (negative, cs) := match cs with
    | '-' :: rest => (true, rest)
    | cs => (false, cs)
  let ds := cs.takeWhile Char.isDigit
  if ds.isEmpty || (ds.length > 1 && ds.head? == some '0') then none
  let (fraction, rest) ← readFraction (cs.dropWhile Char.isDigit)
  let (exponent, rest) ← readExponent rest
  let n := digitsValue ds
  if fraction.isEmpty && exponent.isEmpty && !(negative && n == 0) then
    return (.int (if negative then -(n : Int) else n), rest)
  else
    let sign := if negative then ['-'] else []
    return (.float (String.ofList (sign ++ ds ++ fraction ++ exponent)), rest)

mutual

/-- Reads a value, blanks before it left out. The fuel bounds the length of what is read. -/
def read : Nat → List Char → Option (Value × List Char)
  | 0, _ => none
  | fuel + 1, cs =>
    match skip cs with
    | 'n' :: 'u' :: 'l' :: 'l' :: rest => some (.null, rest)
    | 't' :: 'r' :: 'u' :: 'e' :: rest => some (.bool true, rest)
    | 'f' :: 'a' :: 'l' :: 's' :: 'e' :: rest => some (.bool false, rest)
    | '"' :: rest => (readString fuel [] rest).map fun (s, rest) => (.text s, rest)
    | '[' :: rest => match skip rest with
      | ']' :: rest => some (.list [], rest)
      | rest => (readItems fuel [] rest).map fun (l, rest) => (.list l, rest)
    | '{' :: rest => match skip rest with
      | '}' :: rest => some (.table [], rest)
      | rest => (readEntries fuel [] rest).map fun (l, rest) => (.table l, rest)
    | cs => readNumber cs

def readItems : Nat → List Value → List Char → Option (List Value × List Char)
  | 0, _, _ => none
  | fuel + 1, done, cs =>
    match read fuel cs with
    | none => none
    | some (v, rest) => match skip rest with
      | ',' :: rest => readItems fuel (v :: done) rest
      | ']' :: rest => some ((v :: done).reverse, rest)
      | _ => none

def readEntries : Nat → List (String × Value) → List Char →
    Option (List (String × Value) × List Char)
  | 0, _, _ => none
  | fuel + 1, done, cs =>
    match skip cs with
    | '"' :: rest => match readString fuel [] rest with
      | none => none
      | some (key, rest) => match skip rest with
        | ':' :: rest => match read fuel rest with
          | none => none
          | some (v, rest) => match skip rest with
            | ',' :: rest => readEntries fuel ((key, v) :: done) rest
            | '}' :: rest => some (((key, v) :: done).reverse, rest)
            | _ => none
        | _ => none
    | _ => none

end

/-- The value that a text holds, with nothing but blanks around it. -/
def parse? (s : String) : Option Value :=
  match read (2 * s.utf8ByteSize + 2) s.toList with
  | some (v, rest) => if (skip rest).isEmpty then some v else none
  | none => none

end Codemod.Data.Json
