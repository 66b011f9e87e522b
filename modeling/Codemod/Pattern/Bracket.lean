/-
Reading a set of characters in brackets. Sets nest, and two sets can be intersected (`&&`),
subtracted (`--`) or compared (`~~`); operators group to the left.
-/
import Codemod.Pattern.Escape

namespace Codemod.Pattern

open Text Unicode

inductive SetOp where
  | inter
  | diff
  | symmDiff

def SetOp.apply : SetOp → CharSet → CharSet → CharSet
  | inter, s, t => s.inter t
  | diff, s, t => s.diff t
  | symmDiff, s, t => s.symmDiff t

/-- The members read so far at one level, the last first, and how deep they nest. -/
structure Members where
  sets : List CharSet := []
  depth : Nat := 0

namespace Members

def add (m : Members) (s : CharSet) (depth : Nat) : Members := ⟨s :: m.sets, max m.depth depth⟩

def hyphens (n : Nat) : Members := ⟨List.replicate n (.single '-'), 0⟩

def set (m : Members) : CharSet := .unions m.sets

/-- Several members count as one more level of nesting. -/
def nesting (m : Members) : Nat :=
  match m.sets with
  | _ :: _ :: _ => m.depth + 1
  | _ => m.depth

end Members

/-- What is suspended while a set is read: the set around it, or the left side of an operator. -/
inductive Level where
  | bracket (outer : Members) (negated : Bool)
  | operator (op : SetOp) (left : CharSet) (depth : Nat)

def namedAscii? (name : String) : Option CharSet :=
  match name with
  | "alnum" => some (.ofTable "30-39 41-5A 61-7A")
  | "alpha" => some (.ofTable "41-5A 61-7A")
  | "ascii" => some (.ofTable "0-7F")
  | "blank" => some (.ofTable "9 20")
  | "cntrl" => some (.ofTable "0-1F 7F")
  | "digit" => some (.ofTable "30-39")
  | "graph" => some (.ofTable "21-7E")
  | "lower" => some (.ofTable "61-7A")
  | "print" => some (.ofTable "20-7E")
  | "punct" => some (.ofTable "21-2F 3A-40 5B-60 7B-7E")
  | "space" => some (.ofTable "9-D 20")
  | "upper" => some (.ofTable "41-5A")
  | "word" => some (.ofTable "30-39 41-5A 5F 61-7A")
  | "xdigit" => some (.ofTable "30-39 41-46 61-66")
  | _ => none

/-- Reads a named set such as `[:alpha:]`; the text begins behind the bracket. The outer option
tells whether there is one. -/
def readNamed (f : Flags) (rest : List Char) : Option (Option CharSet × List Char) :=
  match rest with
  | ':' :: rest =>
    let (negated, rest) := match rest with
      | '^' :: rest => (true, rest)
      | rest => (false, rest)
    match rest.span (· != ':') with
    | (name, ':' :: ']' :: rest) =>
      (namedAscii? (String.ofList name)).map fun s => (f.negate? negated (f.fold s), rest)
    | _ => none
  | _ => none

/-- Leading hyphens stand for themselves. -/
def readHyphens (verbose comment : Bool) : List Char → Nat × List Char
  | [] => (0, [])
  | c :: rest =>
    if comment then readHyphens verbose (c != '\n') rest
    else if verbose && isBlank c then readHyphens verbose false rest
    else if verbose && c == '#' then readHyphens verbose true rest
    else if c == '-' then
      let (n, rest) := readHyphens verbose false rest
      (n + 1, rest)
    else (0, c :: rest)

/-- Reads the start of a set behind its bracket: a `^` turns it around, and a closing bracket that
comes first is a member. -/
def readOpening (f : Flags) (rest : List Char) : Option (Bool × Members × List Char) := do
  let (negated, rest) := match f.skip rest with
    | '^' :: rest => (true, f.skip rest)
    | rest => (false, rest)
  let (hyphens, rest) := readHyphens f.verbose false rest
  match rest with
  | [] => none
  | ']' :: rest' =>
    if hyphens == 0 then
      let rest' := f.skip rest'
      if rest'.isEmpty then none
      return (negated, ({} : Members).add (.single ']') 0, rest')
    else return (negated, .hyphens hyphens, rest)
  | rest =>
    return (negated, .hyphens hyphens, rest)

/-- One end of a range, or a member on its own. -/
def readMember (f : Flags) : List Char → Option (Primitive × List Char)
  | [] => none
  | '\\' :: rest => readEscape f rest
  | c :: rest => some (.char c false, rest)

/-- The character of a member that is one. Without Unicode it has to be in ASCII. -/
def memberChar? (f : Flags) : Primitive → Option Char
  | .char c _ => if !f.unicode && c.toNat > 0x7F then none else some c
  | _ => none

def memberSet? (f : Flags) : Primitive → Option CharSet
  | .chars s => some s
  | .look _ => none
  | p => (memberChar? f p).map CharSet.single

/-- The character behind the hyphen at the head. In a verbose pattern blanks do not count, nor does
the sign that starts a comment. -/
def peekBehind (f : Flags) (rest : List Char) : Option Char :=
  if !f.verbose then rest.head?
  else match rest.dropWhile isBlank with
    | [] => rest.head?
    | '#' :: more => match more.dropWhile isBlank with
      | [] => rest.head?
      | c :: _ => some c
    | c :: _ => some c

/-- Reads a member or a range of characters. -/
def readRange (f : Flags) (rest : List Char) : Option (CharSet × List Char) := do
  let (first, rest) ← readMember f rest
  match f.skip rest with
  | [] => none
  | '-' :: behind =>
    let peeked := peekBehind f behind
    if peeked == some ']' || peeked == some '-' then
      return (← memberSet? f first, '-' :: behind)
    let (last, rest) ← readMember f (f.skip behind)
    let a ← memberChar? f first
    let b ← memberChar? f last
    if a.toNat ≤ b.toNat then return (.range a.toNat b.toNat, rest) else none
  | rest => return (← memberSet? f first, rest)

structure SetReading where
  members : Members
  levels : List Level
  rest : List Char

/-- Finishes the members read since the last operator, together with that operator. -/
def SetReading.operand (f : Flags) (r : SetReading) : CharSet × Nat × List Level :=
  match r.levels with
  | .operator op left depth :: levels =>
    (op.apply (f.fold left) (f.fold r.members.set), max depth r.members.nesting + 1, levels)
  | levels => (r.members.set, r.members.nesting, levels)

def SetReading.operator (f : Flags) (op : SetOp) (r : SetReading) (rest : List Char) :
    SetReading :=
  let (left, depth, levels) := r.operand f
  ⟨{}, .operator op left depth :: levels, rest⟩

/-- Reads to the bracket that closes the outermost set; gives the set, its nesting and the rest. -/
def readMembers (f : Flags) : Nat → SetReading → Option (CharSet × Nat × List Char)
  | 0, _ => none
  | fuel + 1, r =>
    match f.skip r.rest with
    | [] => none
    | '[' :: rest =>
      match readNamed f rest with
      | some (s?, rest) => do
        let s ← s?
        readMembers f fuel { r with members := r.members.add s 0, rest }
      | none => do
        let (negated, members, rest) ← readOpening f rest
        readMembers f fuel ⟨members, .bracket r.members negated :: r.levels, rest⟩
    | ']' :: rest => do
      let (s, depth, levels) := r.operand f
      match levels with
      | .bracket outer negated :: levels =>
        let s ← f.negate? negated (f.fold s)
        match levels with
        | [] => return (s, depth + 1, rest)
        | levels => readMembers f fuel ⟨outer.add s (depth + 1), levels, rest⟩
      | _ => none
    | '&' :: '&' :: rest => readMembers f fuel (r.operator f .inter rest)
    | '-' :: '-' :: rest => readMembers f fuel (r.operator f .diff rest)
    | '~' :: '~' :: rest => readMembers f fuel (r.operator f .symmDiff rest)
    | rest => do
      let (s, rest) ← readRange f rest
      readMembers f fuel { r with members := r.members.add s 0, rest }

/-- Reads a set; the text begins behind its opening bracket, and the fuel bounds its length. -/
def readBracket (f : Flags) (fuel : Nat) (rest : List Char) :
    Option (CharSet × Nat × List Char) := do
  let (negated, members, rest) ← readOpening f rest
  readMembers f fuel ⟨members, [.bracket {} negated], rest⟩

end Codemod.Pattern
