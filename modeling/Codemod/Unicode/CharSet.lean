/-
Sets of characters, held as ranges of code points in rising order with a gap between neighbours.
Membership stops at the first range that lies beyond the character.
-/
namespace Codemod.Unicode

structure CharSet where
  /-- First and last code point of each range. -/
  ranges : List (Nat × Nat)
  deriving DecidableEq, Repr, Inhabited

namespace CharSet

def lastCode : Nat := 0x10FFFF

def empty : CharSet := ⟨[]⟩

def all : CharSet := ⟨[(0, lastCode)]⟩

def range (first last : Nat) : CharSet := ⟨[(first, last)]⟩

def single (c : Char) : CharSet := ⟨[(c.toNat, c.toNat)]⟩

def memRanges (n : Nat) : List (Nat × Nat) → Bool
  | [] => false
  | (a, b) :: rest => if n < a then false else if n ≤ b then true else memRanges n rest

def contains (s : CharSet) (c : Char) : Bool := memRanges c.toNat s.ranges

/-- Joins ranges that touch or overlap; the list is sorted by first code point. -/
def coalesce : List (Nat × Nat) → List (Nat × Nat)
  | [] => []
  | [r] => [r]
  | (a, b) :: (c, d) :: rest =>
    if c ≤ b + 1 then coalesce ((a, max b d) :: rest) else (a, b) :: coalesce ((c, d) :: rest)
termination_by l => l.length

def ofRanges (l : List (Nat × Nat)) : CharSet :=
  ⟨coalesce (l.mergeSort fun r s => r.1 ≤ s.1)⟩

def ofChars (cs : List Char) : CharSet := ofRanges (cs.map fun c => (c.toNat, c.toNat))

def union (s t : CharSet) : CharSet := ofRanges (s.ranges ++ t.ranges)

def unions (l : List CharSet) : CharSet := ofRanges (l.flatMap ranges)

/-- The gaps between ranges, from `next` on. -/
def gaps (next : Nat) : List (Nat × Nat) → List (Nat × Nat)
  | [] => if next ≤ lastCode then [(next, lastCode)] else []
  | (a, b) :: rest => if next < a then (next, a - 1) :: gaps (b + 1) rest else gaps (b + 1) rest

def compl (s : CharSet) : CharSet := ⟨gaps 0 s.ranges⟩

def inter (s t : CharSet) : CharSet := (s.compl.union t.compl).compl

def diff (s t : CharSet) : CharSet := s.inter t.compl

def symmDiff (s t : CharSet) : CharSet := (s.diff t).union (t.diff s)

def hexDigit (c : Char) : Nat :=
  if '0' ≤ c ∧ c ≤ '9' then c.toNat - 48
  else if 'A' ≤ c ∧ c ≤ 'F' then c.toNat - 55
  else c.toNat - 87

def readHex (cs : List Char) : Nat := cs.foldl (fun n c => 16 * n + hexDigit c) 0

/-- The words of a table, which blanks and line ends separate. -/
def tableWords (text : String) : List (List Char) :=
  let (word, words) := text.toList.foldr
    (fun c (word, words) =>
      if c == ' ' || c == '\n' then ([], if word.isEmpty then words else word :: words)
      else (c :: word, words))
    ([], [])
  if word.isEmpty then words else word :: words

/-- Reads a table of code points in base sixteen, such as `41-5A 5F`. -/
def ofTable (text : String) : CharSet :=
  ofRanges ((tableWords text).map fun word =>
    match word.span (· != '-') with
    | (a, _ :: b) => (readHex a, readHex b)
    | (a, []) => (readHex a, readHex a))

end CharSet

end Codemod.Unicode
