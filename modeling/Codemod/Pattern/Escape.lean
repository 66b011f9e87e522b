/-
Reading the pieces of a pattern that stand for one character, a class of characters or a condition
when they follow a backslash.
-/
import Codemod.Pattern.Flags
import Codemod.Pattern.Node
import Codemod.Text.Blank
import Codemod.Unicode.Class
import Codemod.Unicode.Folding
import Codemod.Unicode.Name

namespace Codemod.Pattern

open Text Unicode

/-- Skips blanks and comments; `comment` says that one has begun. -/
def skipBlanks (comment : Bool) : List Char → List Char
  | [] => []
  | c :: rest =>
    if comment then skipBlanks (c != '\n') rest
    else if isBlank c then skipBlanks false rest
    else if c == '#' then skipBlanks true rest
    else c :: rest

/-- Skips what a verbose pattern leaves out. -/
def Flags.skip (f : Flags) (cs : List Char) : List Char :=
  if f.verbose then skipBlanks false cs else cs

/-- The characters up to a closing brace and the rest behind it. -/
def untilBrace (verbose comment : Bool) : List Char → Option (List Char × List Char)
  | [] => none
  | c :: rest =>
    if comment then untilBrace verbose (c != '\n') rest
    else if verbose && isBlank c then untilBrace verbose false rest
    else if verbose && c == '#' then untilBrace verbose true rest
    else if c == '}' then some ([], rest)
    else (untilBrace verbose false rest).map fun (word, rest) => (c :: word, rest)

def isHexDigit (c : Char) : Bool :=
  ('0' ≤ c && c ≤ '9') || ('a' ≤ c && c ≤ 'f') || ('A' ≤ c && c ≤ 'F')

def charOfCode? (n : Nat) : Option Char :=
  if n.isValidChar then some (Char.ofNat n) else none

/-- What an escape stands for. -/
inductive Primitive where
  /-- A character; `octet` tells that it was written as a two-digit code. -/
  | char (c : Char) (octet : Bool)
  | chars (s : CharSet)
  | look (l : Look)

def ignoreAsciiCase (s : CharSet) : CharSet :=
  let letters := (List.range 26).filter fun i =>
    CharSet.memRanges (0x41 + i) s.ranges || CharSet.memRanges (0x61 + i) s.ranges
  .ofRanges (s.ranges ++ letters.map (fun i => (0x41 + i, 0x41 + i))
    ++ letters.map fun i => (0x61 + i, 0x61 + i))

namespace Flags

/-- Closes a set under case where case is ignored. -/
def fold (f : Flags) (s : CharSet) : CharSet :=
  if f.ignoreCase then if f.unicode then s.foldCase else ignoreAsciiCase s else s

/-- Turns a set around where asked. Without Unicode a set that is turned around would hold parts of
characters, which no text allows. -/
def negate? (f : Flags) (negated : Bool) (s : CharSet) : Option CharSet :=
  if negated then if f.unicode then some s.compl else none else some s

def classSet? (f : Flags) (letter : Char) : Option CharSet :=
  match letter with
  | 'd' => some (if f.unicode then digits else asciiDigits)
  | 's' => some (if f.unicode then spaces else asciiSpaces)
  | 'w' => some (if f.unicode then words else asciiWords)
  | 'D' => if f.unicode then some digits.compl else none
  | 'S' => if f.unicode then some spaces.compl else none
  | 'W' => if f.unicode then some words.compl else none
  | _ => none

/-- The node for a literal character. -/
def literal? (f : Flags) (c : Char) (octet : Bool) : Option Node :=
  if octet && !f.unicode && c.toNat > 0x7F then none
  else some (.ofSet (f.fold (.single c)))

def dot? (f : Flags) : Option Node :=
  if !f.unicode then none
  else if f.dotAll then some (.chars .all)
  else if f.crlf then some (.chars (CharSet.ofChars ['\n', '\r']).compl)
  else some (.chars (CharSet.single '\n').compl)

def lineStart (f : Flags) : Look :=
  if f.multiLine then if f.crlf then .lineStartCr else .lineStart else .textStart

def lineEnd (f : Flags) : Look :=
  if f.multiLine then if f.crlf then .lineEndCr else .lineEnd else .textEnd

end Flags

/-- Splits a property query at its `!=`, `:` or `=`, whichever of them is looked for first and is
there. The first part of the answer tells whether it was `!=`. -/
def splitQuery (query : List Char) : Option (Bool × List Char × List Char) :=
  match notEqual query with
  | some parts => some (true, parts)
  | none => match single ':' query with
    | some parts => some (false, parts)
    | none => (single '=' query).map fun parts => (false, parts)
where
  notEqual : List Char → Option (List Char × List Char)
    | '!' :: '=' :: rest => some ([], rest)
    | c :: rest => (notEqual rest).map fun (a, b) => (c :: a, b)
    | [] => none
  single (sep : Char) (cs : List Char) : Option (List Char × List Char) :=
    match cs.span (· != sep) with
    | (a, _ :: b) => some (a, b)
    | (_, []) => none

/-- The set that a query names, and whether the query asks for what is not in it. -/
def querySet? (query : List Char) : Option (Bool × CharSet) :=
  match splitQuery query with
  | some (unequal, name, value) =>
    (setOf? (String.ofList name) (String.ofList value)).map fun s => (unequal, s)
  | none => (setNamed? (String.ofList query)).map fun s => (false, s)

/-- Reads the name of a property behind `\p` or `\P`. -/
def readProperty (f : Flags) (negated : Bool) (rest : List Char) :
    Option (Primitive × List Char) := do
  let (query, rest) ← match f.skip rest with
    | [] => none
    | '{' :: rest => untilBrace f.verbose false rest
    | '\\' :: _ => none
    | c :: rest => some ([c], f.skip rest)
  if !f.unicode then none
  let (unequal, s) ← querySet? query
  return (.chars (← f.negate? (negated != unequal) (f.fold s)), rest)

def readHexDigits (f : Flags) : Nat → Nat → List Char → Option (Nat × List Char)
  | 0, code, rest => some (code, rest)
  | n + 1, code, c :: rest =>
    if isHexDigit c then readHexDigits f n (16 * code + CharSet.hexDigit c) (f.skip rest) else none
  | _ + 1, _, [] => none

/-- Reads a code in base sixteen: as many digits as given, or any number of them in braces. -/
def readCode (f : Flags) (count : Nat) (rest : List Char) : Option (Primitive × List Char) :=
  match f.skip rest with
  | '{' :: rest => do
    let (word, rest) ← untilBrace f.verbose false rest
    if word.isEmpty || !word.all isHexDigit then none
    return (.char (← charOfCode? (CharSet.readHex word)) false, f.skip rest)
  | rest => do
    let (code, rest) ← readHexDigits f count 0 rest
    return (.char (← charOfCode? code) (count == 2), rest)

/-- Characters that stand for themselves behind a backslash: all of ASCII but letters, digits and
angle brackets. -/
def isEscapable (c : Char) : Bool :=
  c.toNat ≤ 0x7F && !c.isAlphanum && c != '<' && c != '>'

/-- Reads what may follow `\b` in braces. Where no word starts behind the brace, the brace belongs to
a counted repetition. -/
def readBoundary (f : Flags) (rest : List Char) : Option (Primitive × List Char) :=
  match rest with
  | '{' :: inner =>
    match f.skip inner with
    | [] => none
    | c :: _ =>
      if c.isAlpha || c == '-' then
        match untilBrace f.verbose false inner with
        | some (word, rest) =>
          match String.ofList word with
          | "start" => some (.look (.wordStart f.unicode), rest)
          | "end" => some (.look (.wordEnd f.unicode), rest)
          | "start-half" => some (.look (.wordStartHalf f.unicode), rest)
          | "end-half" => some (.look (.wordEndHalf f.unicode), rest)
          | _ => none
        | none => none
      else some (.look (.wordBoundary f.unicode), rest)
  | rest => some (.look (.wordBoundary f.unicode), rest)

/-- Reads an escape; the text begins behind the backslash. -/
def readEscape (f : Flags) : List Char → Option (Primitive × List Char)
  | [] => none
  | c :: rest =>
    match c with
    | 'x' => readCode f 2 rest
    | 'u' => readCode f 4 rest
    | 'U' => readCode f 8 rest
    | 'p' => readProperty f false rest
    | 'P' => readProperty f true rest
    | 'd' | 's' | 'w' | 'D' | 'S' | 'W' => (f.classSet? c).map fun s => (.chars s, rest)
    | 'a' => some (.char '\x07' false, rest)
    | 'f' => some (.char '\x0C' false, rest)
    | 't' => some (.char '\t' false, rest)
    | 'n' => some (.char '\n' false, rest)
    | 'r' => some (.char '\r' false, rest)
    | 'v' => some (.char '\x0B' false, rest)
    | 'A' => some (.look .textStart, rest)
    | 'z' => some (.look .textEnd, rest)
    | 'b' => readBoundary f rest
    | 'B' => some (.look (.notWordBoundary f.unicode), rest)
    | '<' => some (.look (.wordStart f.unicode), rest)
    | '>' => some (.look (.wordEnd f.unicode), rest)
    | c => if isEscapable c then some (.char c false, rest) else none

end Codemod.Pattern
