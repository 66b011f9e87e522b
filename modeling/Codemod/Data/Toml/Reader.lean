/-
Reading TOML: keys, values, and the statements of a document. The fuel bounds how much is read.
-/
import Codemod.Data.Toml.Document
import Codemod.Data.Toml.Moment
import Codemod.Data.Toml.Number
import Codemod.Data.Toml.Text

namespace Codemod.Data.Toml

/-- How far values may be nested, and how many parts a key may have. -/
def maxDepth : Nat := 79

def isBare (c : Char) : Bool := c.isAlphanum || c == '-' || c == '_'

def readKeyPart (fuel : Nat) (cs : List Char) : Option (String × List Char) :=
  match cs with
  | '"' :: rest => readBasic fuel [] rest
  | '\'' :: rest => readLiteral rest
  | cs =>
    let name := cs.takeWhile isBare
    if name.isEmpty then none else some (String.ofList name, cs.drop name.length)

/-- Reads the parts of a key with the dots between them, blanks around each part left out. -/
def readKeyParts (fuel : Nat) : Nat → List Char → Option (List String × String × List Char)
  | 0, _ => none
  | room + 1, cs => do
    let (part, rest) ← readKeyPart fuel (skipGap cs)
    match skipGap rest with
    | '.' :: rest =>
      let (path, last, rest) ← readKeyParts fuel room rest
      return (part :: path, last, rest)
    | rest => return ([], part, rest)

/-- Reads a key: what leads to its last part, and the last part. -/
def readKey (fuel : Nat) (cs : List Char) : Option (List String × String × List Char) :=
  readKeyParts fuel maxDepth cs

mutual

/-- Reads a value. `room` is how much deeper it may be nested; the fuel bounds the length. -/
def readValue : Nat → Nat → List Char → Option (Value × List Char)
  | 0, _, _ => none
  | fuel + 1, room, cs =>
    match cs with
    | '"' :: _ => (readText fuel cs).map fun (s, rest) => (.text s, rest)
    | '\'' :: _ => (readText fuel cs).map fun (s, rest) => (.text s, rest)
    | '[' :: rest => match room with
      | 0 => none
      | room + 1 => do
        match ← skipFiller false rest with
        | ']' :: rest => return (.list [], rest)
        | rest =>
          let (items, rest) ← readItems fuel room [] rest
          return (.list items, rest)
    | '{' :: rest => match room with
      | 0 => none
      | room + 1 => match skipGap rest with
        | '}' :: rest => some (.table [], rest)
        | rest => do
          let (es, rest) ← readPairs fuel room [] rest
          return (.table (Entries.toFields es), rest)
    | 't' :: 'r' :: 'u' :: 'e' :: rest => some (.bool true, rest)
    | 'f' :: 'a' :: 'l' :: 's' :: 'e' :: rest => some (.bool false, rest)
    | cs => match readMoment cs with
      | some (text, rest) => some (.moment text, rest)
      | none => readNumber cs

/-- Reads the items of a list up to its end; a comma may stand behind the last one. -/
def readItems : Nat → Nat → List Value → List Char → Option (List Value × List Char)
  | 0, _, _, _ => none
  | fuel + 1, room, done, cs => do
    let (v, rest) ← readValue fuel room cs
    match ← skipFiller false rest with
    | ']' :: rest => return ((v :: done).reverse, rest)
    | ',' :: rest => match ← skipFiller false rest with
      | ']' :: rest => return ((v :: done).reverse, rest)
      | rest => readItems fuel room (v :: done) rest
    | _ => none

/-- Reads the pairs of a table in braces up to its end. -/
def readPairs : Nat → Nat → Entries → List Char → Option (Entries × List Char)
  | 0, _, _, _ => none
  | fuel + 1, room, done, cs => do
    let (path, last, rest) ← readKey fuel cs
    match rest with
    | '=' :: rest =>
      let (v, rest) ← readValue fuel room (skipGap rest)
      let done ← Entries.assign v last path done
      match skipGap rest with
      | '}' :: rest => return (done, rest)
      | ',' :: rest => readPairs fuel room done rest
      | _ => none
    | _ => none

end

/-- Reads a header behind its opening brackets. -/
def readHeader (fuel : Nat) (doubled : Bool) (cs : List Char) :
    Option (Statement × List Char) := do
  let (path, last, rest) ← readKey fuel cs
  match doubled, rest with
  | true, ']' :: ']' :: rest => return (.item path last, rest)
  | false, ']' :: rest => return (.table path last, rest)
  | _, _ => none

def readStatement (fuel : Nat) (cs : List Char) : Option (Statement × List Char) :=
  match cs with
  | '[' :: '[' :: rest => readHeader fuel true rest
  | '[' :: rest => readHeader fuel false rest
  | cs => do
    let (path, last, rest) ← readKey fuel cs
    match rest with
    | '=' :: rest =>
      let (v, rest) ← readValue fuel maxDepth (skipGap rest)
      return (.assign path last v, rest)
    | _ => none

/-- Reads the statements of a text, each on lines of its own. -/
def readStatements : Nat → List Statement → List Char → Option (List Statement)
  | 0, _, _ => none
  | fuel + 1, done, cs => do
    match ← skipFiller false cs with
    | [] => return done.reverse
    | cs =>
      let (s, rest) ← readStatement fuel cs
      readStatements fuel (s :: done) (← lineEnd? rest)

/-- The fields of a document; a byte order mark may stand before it. -/
def parse? (text : String) : Option (List (String × Value)) :=
  let cs := match text.toList with
    | '\uFEFF' :: rest => rest
    | cs => cs
  (readStatements (2 * cs.length + 2) [] cs).bind Document.ofStatements?

end Codemod.Data.Toml
