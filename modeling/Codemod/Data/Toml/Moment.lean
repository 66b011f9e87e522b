/-
Dates and times in TOML: a date, a time of day, or both with or without an offset.
-/
namespace Codemod.Data.Toml

/-- Reads a number of as many digits that lies within bounds. -/
def readPart (count low high : Nat) (cs : List Char) : Option (Nat × List Char) :=
  let ds := cs.take count
  let n := ds.foldl (fun n c => 10 * n + (c.toNat - 48)) 0
  if ds.length == count && ds.all Char.isDigit && low ≤ n && n ≤ high then some (n, cs.drop count)
  else none

def readMark (mark : Char) : List Char → Option (List Char)
  | c :: rest => if c == mark then some rest else none
  | [] => none

def isLeap (year : Nat) : Bool := year % 4 == 0 && (year % 100 != 0 || year % 400 == 0)

def daysIn (year month : Nat) : Nat :=
  if month == 2 then if isLeap year then 29 else 28
  else if [4, 6, 9, 11].contains month then 30
  else 31

def readDate (cs : List Char) : Option (List Char) := do
  let (year, cs) ← readPart 4 0 9999 cs
  let cs ← readMark '-' cs
  let (month, cs) ← readPart 2 1 12 cs
  let cs ← readMark '-' cs
  let (_, cs) ← readPart 2 1 (daysIn year month) cs
  return cs

def readSecondsFraction : List Char → List Char
  | '.' :: c :: rest => if c.isDigit then rest.dropWhile Char.isDigit else '.' :: c :: rest
  | cs => cs

/-- Reads a time of day; seconds have to be there. -/
def readTime (cs : List Char) : Option (List Char) := do
  let (_, cs) ← readPart 2 0 23 cs
  let cs ← readMark ':' cs
  let (_, cs) ← readPart 2 0 59 cs
  let cs ← readMark ':' cs
  let (_, cs) ← readPart 2 0 60 cs
  return readSecondsFraction cs

def readOffset (cs : List Char) : Option (List Char) :=
  match cs with
  | c :: rest =>
    if c == 'Z' || c == 'z' then some rest
    else if c == '+' || c == '-' then do
      let (_, rest) ← readPart 2 0 23 rest
      let rest ← readMark ':' rest
      let (_, rest) ← readPart 2 0 59 rest
      return rest
    else some cs
  | [] => some []

/-- Reads the time behind a date, if there is one. -/
def readTimeOfDate (cs : List Char) : Option (List Char) :=
  match cs with
  | c :: rest =>
    if c == 'T' || c == 't' || c == ' ' then
      match readTime rest with
      | some rest => readOffset rest
      | none => some cs
    else some cs
  | [] => some []

/-- Reads a date or a time and gives its text. -/
def readMoment (cs : List Char) : Option (String × List Char) := do
  let rest ← match readDate cs with
    | some rest => readTimeOfDate rest
    | none => readTime cs
  return (String.ofList (cs.take (cs.length - rest.length)), rest)

end Codemod.Data.Toml
