/-
Reading a pattern. One pass over the text builds the node, resolving the switches on the way; groups
that are still open wait on a list. A pattern is refused where it is malformed, nests too deep or takes
too much room when it is laid out.
-/
import Codemod.Pattern.Bracket
import Codemod.Pattern.Layout
import Codemod.Unicode.Latest

namespace Codemod.Pattern

open Text Unicode

inductive PatternError where
  | malformed
  | tooLarge
  deriving DecidableEq, Repr

def PatternError.message : PatternError → String
  | malformed => "regex parse error"
  | tooLarge => "Compiled regex exceeds size limit of 10485760 bytes."

def nestingLimit : Nat := 250

/-- A part of a pattern that has been read. -/
structure Piece where
  node : Node
  /-- How deep the part nests. -/
  depth : Nat
  /-- Switches and the empty pattern cannot be repeated. -/
  repeatable : Bool := true

namespace Piece

def empty : Piece := ⟨.empty, 0, false⟩

def ofNode (x : Node) : Piece := ⟨x, 0, true⟩

/-- What encloses parts nests one deeper than the deepest of them. -/
def depthOver (items : List Piece) : Nat := items.foldl (fun d p => max d p.depth) 0 + 1

/-- Joins what follows one another; the list has the last part first. -/
def concat (items : List Piece) : Piece :=
  match items with
  | [] => empty
  | [p] => p
  | items => ⟨.concat (items.reverse.map (·.node)), depthOver items, true⟩

/-- Joins alternatives; the list has the last one first. -/
def choice (items : List Piece) : Piece :=
  match items with
  | [] => empty
  | [p] => p
  | items => ⟨.either (items.reverse.map (·.node)), depthOver items, true⟩

def times (p : Piece) (low : Nat) (high : Option Nat) (greedy : Bool) : Piece :=
  ⟨p.node.times low high greedy, p.depth + 1, true⟩

end Piece

/-- A group that is still open, and what it interrupted. -/
structure Frame where
  choices : List Piece
  items : List Piece
  /-- The number of the group if it captures. -/
  index : Option Nat
  flags : Flags

structure Reading where
  rest : List Char
  flags : Flags
  /-- Finished alternatives of the innermost group, the last one first. -/
  choices : List Piece := []
  /-- The parts of the alternative being read, the last one first. -/
  items : List Piece := []
  frames : List Frame := []
  /-- Number of the last group opened. -/
  groups : Nat := 0
  names : List (String × Nat) := []

namespace Reading

def push (r : Reading) (p : Piece) (rest : List Char) : Reading :=
  { r with items := p :: r.items, rest }

/-- The whole of the innermost group. -/
def body (r : Reading) : Piece := .choice (.concat r.items :: r.choices)

def isNameChar (first : Bool) (c : Char) : Bool :=
  if first then c == '_' || alphabetic.contains c
  else c == '_' || c == '.' || c == '[' || c == ']' || alphanumeric.contains c

/-- Reads the name of a group up to its closing bracket. -/
def readName (rest : List Char) : Option (String × List Char) :=
  match rest.span (· != '>') with
  | (c :: name, _ :: rest) =>
    if isNameChar true c && name.all (isNameChar false) then some (String.ofList (c :: name), rest)
    else none
  | _ => none

def openGroup (r : Reading) (index : Option Nat) (flags : Flags) (rest : List Char) : Reading :=
  { r with
    rest, flags, choices := [], items := []
    frames := ⟨r.choices, r.items, index, r.flags⟩ :: r.frames
    groups := if index.isSome then r.groups + 1 else r.groups }

def openNamed (r : Reading) (rest : List Char) : Option Reading := do
  let (name, rest) ← readName rest
  if r.names.any (·.1 == name) then none
  let i := r.groups + 1
  return { r.openGroup (some i) r.flags rest with names := r.names ++ [(name, i)] }

/-- Reads behind an opening parenthesis: a group, or switches for what follows. -/
def readGroup (r : Reading) (rest : List Char) : Option Reading :=
  match r.flags.skip rest with
  | '?' :: '=' :: _ => none
  | '?' :: '!' :: _ => none
  | '?' :: '<' :: '=' :: _ => none
  | '?' :: '<' :: '!' :: _ => none
  | '?' :: 'P' :: '<' :: rest => r.openNamed rest
  | '?' :: '<' :: rest => r.openNamed rest
  | '?' :: rest => do
    let (flags, any, closing, rest) ← r.flags.read true [] rest
    if closing == ')' then
      if any then return { r.push .empty rest with flags } else none
    else return r.openGroup none flags rest
  | rest => some (r.openGroup (some (r.groups + 1)) r.flags rest)

def closeGroup (r : Reading) (rest : List Char) : Option Reading :=
  match r.frames with
  | [] => none
  | frame :: frames =>
    let p := r.body
    let node := match frame.index with
      | some i => .group i p.node
      | none => p.node
    some { r with
      rest, frames, flags := frame.flags, choices := frame.choices
      items := ⟨node, p.depth + 1, true⟩ :: frame.items }

def repeatLast (r : Reading) (low : Nat) (high : Option Nat) (greedy : Bool) (rest : List Char) :
    Option Reading :=
  match r.items with
  | p :: items =>
    if p.repeatable then
      some { r with rest, items := p.times low high (greedy != r.flags.swapGreed) :: items }
    else none
  | [] => none

/-- Reads the mark of a reluctant repetition. -/
def readGreed : List Char → Bool × List Char
  | '?' :: rest => (false, rest)
  | rest => (true, rest)

def readDigits (verbose comment : Bool) : List Char → List Char × List Char
  | [] => ([], [])
  | c :: rest =>
    if comment then readDigits verbose (c != '\n') rest
    else if verbose && isBlank c then readDigits verbose false rest
    else if verbose && c == '#' then readDigits verbose true rest
    else if c.isDigit then
      let (ds, rest) := readDigits verbose false rest
      (c :: ds, rest)
    else ([], c :: rest)

/-- Reads a count, with blanks around it. -/
def readCount (f : Flags) (rest : List Char) : Option (Nat × List Char) :=
  match readDigits f.verbose false (rest.dropWhile isBlank) with
  | ([], _) => none
  | (ds, rest) =>
    let n := ds.foldl (fun n c => 10 * n + (c.toNat - 48)) 0
    if n < 0x100000000 then some (n, rest.dropWhile isBlank) else none

/-- Reads a counted repetition; the text begins behind the brace. -/
def readCounted (r : Reading) (rest : List Char) : Option Reading := do
  let (low, rest) ← readCount r.flags (r.flags.skip rest)
  let (high, rest) ← match rest with
    | ',' :: rest => match r.flags.skip rest with
      | '}' :: rest => some (none, '}' :: rest)
      | rest => (readCount r.flags rest).map fun (high, rest) => (some high, rest)
    | rest => some (some low, rest)
  match rest with
  | '}' :: rest =>
    if high.any (· < low) then none
    let (greedy, rest) := readGreed (r.flags.skip rest)
    r.repeatLast low high greedy rest
  | _ => none

/-- Reads one part; the character has been taken off the text. -/
def step (r : Reading) (fuel : Nat) (c : Char) (rest : List Char) : Option Reading :=
  match c with
  | '(' => r.readGroup rest
  | ')' => r.closeGroup rest
  | '|' => some { r with rest, choices := .concat r.items :: r.choices, items := [] }
  | '[' => do
    let (s, depth, rest) ← readBracket r.flags fuel rest
    return r.push ⟨.ofSet s, depth, true⟩ rest
  | '?' => let (greedy, rest) := readGreed rest; r.repeatLast 0 (some 1) greedy rest
  | '*' => let (greedy, rest) := readGreed rest; r.repeatLast 0 none greedy rest
  | '+' => let (greedy, rest) := readGreed rest; r.repeatLast 1 none greedy rest
  | '{' => r.readCounted rest
  | '\\' => do
    let (p, rest) ← readEscape r.flags rest
    let node ← match p with
      | .char c octet => r.flags.literal? c octet
      | .chars s => some (.ofSet s)
      | .look l => some (.look l)
    return r.push (.ofNode node) rest
  | '.' => do return r.push (.ofNode (← r.flags.dot?)) rest
  | '^' => some (r.push (.ofNode (.look r.flags.lineStart)) rest)
  | '$' => some (r.push (.ofNode (.look r.flags.lineEnd)) rest)
  | c => do return r.push (.ofNode (← r.flags.literal? c false)) rest

def run : Nat → Reading → Option Reading
  | 0, _ => none
  | fuel + 1, r =>
    match r.flags.skip r.rest with
    | [] => some r
    | c :: rest => (r.step fuel c rest).bind (run fuel)

end Reading

/-- The node of a pattern and the numbers of its named groups. -/
def parse (flags : Flags) (text : List Char) : Except PatternError (Node × List (String × Nat)) :=
  match Reading.run (2 * text.length + 2) { rest := text, flags } with
  | none => .error .malformed
  | some r =>
    let p := r.body
    if !r.frames.isEmpty || p.depth > nestingLimit then .error .malformed
    else if fits p.node then .ok (p.node, r.names)
    else .error .tooLarge

end Codemod.Pattern
