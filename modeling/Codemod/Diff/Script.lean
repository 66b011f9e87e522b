/-
Edit scripts. The script that turns one list of lines into another is as short as can be: the search
runs from both ends of the two lists and meets on a run of equal lines in the middle, which splits
the lists in two.
-/
import Std.Data.HashSet

namespace Codemod.Diff

inductive EditKind where
  | equal
  | delete
  | insert
  deriving DecidableEq, Repr

/-- So many lines that stay, go or come, and where they stand in the old and the new list. -/
structure Edit where
  kind : EditKind
  old : Nat
  new : Nat
  len : Nat
  deriving DecidableEq, Repr

/-- A part of a list: the position where it starts and the one behind its end. -/
structure Span where
  start : Nat
  stop : Nat
  deriving DecidableEq, Repr

namespace Span

def size (s : Span) : Nat := s.stop - s.start

end Span

/-- The two lists. -/
structure Sides where
  old : Array String
  new : Array String

namespace Sides

def same (s : Sides) (i j : Nat) : Bool :=
  if _ : i < s.old.size then
    if _ : j < s.new.size then s.old[i] == s.new[j] else false
  else false

/-- Adds the number of equal lines from two places on; `n` bounds it. -/
def runFrom (s : Sides) : Nat → Nat → Nat → Nat → Nat
  | 0, _, _, found => found
  | n + 1, i, j, found => if s.same i j then s.runFrom n (i + 1) (j + 1) (found + 1) else found

/-- Adds the number of equal lines before two places. -/
def runUpTo (s : Sides) : Nat → Nat → Nat → Nat → Nat
  | 0, _, _, found => found
  | n + 1, i, j, found =>
    if s.same (i - 1) (j - 1) then s.runUpTo n (i - 1) (j - 1) (found + 1) else found

/-- The number of equal lines at the start of two parts. -/
def headLength (s : Sides) (a b : Span) : Nat := s.runFrom (min a.size b.size) a.start b.start 0

/-- The number of equal lines at the end of two parts. -/
def tailLength (s : Sides) (a b : Span) : Nat := s.runUpTo (min a.size b.size) a.stop b.stop 0

/-- Whether two parts have no line in common. -/
def apart (s : Sides) (a b : Span) : Bool :=
  let lines := (s.old.extract a.start a.stop).foldl Std.HashSet.insert (∅ : Std.HashSet String)
  (s.new.extract b.start b.stop).all fun line => !lines.contains line

end Sides

/-- Two parts and the end that a search starts from. Diagonals are numbered such that `middle` is the
one through that end; on each, a search has come so `far` into the old part. -/
structure Search where
  sides : Sides
  old : Span
  new : Span
  fromStart : Bool
  middle : Nat

/-- What comes of one more edit: how far the search has come now, or where it meets the other one,
with the run of equal lines there. -/
inductive Advance where
  | open (far : Array Nat)
  | met (x y run : Nat)

namespace Search

/-- The run of equal lines behind `x` old and `y` new lines. -/
def run (s : Search) (x y : Nat) : Nat :=
  if x < s.old.size && y < s.new.size then
    let n := min (s.old.size - x) (s.new.size - y)
    if s.fromStart then s.sides.runFrom n (s.old.start + x) (s.new.start + y) 0
    else s.sides.runUpTo n (s.old.stop - x) (s.new.stop - y) 0
  else 0

/-- Whether having come to `x` on a diagonal meets the other search, which has `edits` behind it. -/
def meets (s : Search) (other : Array Nat) (edits diagonal x : Nat) : Bool :=
  let mirror := 2 * s.middle + s.old.size - (diagonal + s.new.size)
  s.middle ≤ mirror + edits && mirror ≤ s.middle + edits
    && s.old.size ≤ x + other.getD mirror 0

/-- The `d`-th edit on every second diagonal from `middle + d` down to `middle - d`, of which `n` are
left. Each goes on from the neighbour that is further. `check` tells that the searches can meet: with
an odd number of lines in all, only when one of them is an edit ahead. -/
def sweep (s : Search) (d : Nat) (check : Bool) (other : Array Nat) (edits : Nat) :
    Nat → Array Nat → Advance
  | 0, far => .open far
  | n + 1, far =>
    let diagonal := s.middle - d + 2 * n
    let before := far.getD (diagonal - 1) 0
    let behind := far.getD (diagonal + 1) 0
    let x := if n == 0 || (n != d && before < behind) then behind else before + 1
    let y := x + s.middle - diagonal
    let run := s.run x y
    let far := far.setIfInBounds diagonal (x + run)
    if check && s.meets other edits diagonal (x + run) then .met x y run
    else s.sweep d check other edits n far

end Search

/-- Where the searches meet in parts that have no line in common. -/
def middleApart (a b : Span) : Nat × Nat :=
  let all := a.size + b.size
  if all % 2 == 1 then
    if b.size < a.size then (a.start + (all + 1) / 2, b.start)
    else (a.stop, b.start + (b.size - a.size + 1) / 2)
  else if b.size ≤ a.size then (a.stop - all / 2, b.stop)
  else (a.start, b.stop - (b.size - a.size) / 2)

/-- After so many edits it is worth a look whether there is a common line at all. -/
def patience : Nat := 64

/-- Where to split two parts that differ at both ends. -/
def middle? (s : Sides) (a b : Span) : Option (Nat × Nat) :=
  let limit := (a.size + b.size + 1) / 2 + 1
  let odd := (a.size + b.size) % 2 == 1
  let forth : Search := ⟨s, a, b, true, limit + 1⟩
  let back : Search := ⟨s, a, b, false, limit + 1⟩
  let rec go : Nat → Nat → Array Nat → Array Nat → Option (Nat × Nat)
    | 0, _, _, _ => none
    | n + 1, d, far, near =>
      if d == patience && s.apart a b then some (middleApart a b)
      else match forth.sweep d odd near (d - 1) (d + 1) far with
        | .met x y _ => some (a.start + x, b.start + y)
        | .open far =>
          match back.sweep d (!odd) far d (d + 1) near with
          | .met x y run => some (a.stop - (x + run), b.stop - (y + run))
          | .open near => go n (d + 1) far near
  let nowhere := Array.replicate (2 * limit + 3) 0
  go limit 0 nowhere nowhere

/-- Whether a place splits two parts into smaller ones. -/
def splits (a b : Span) (place : Nat × Nat) : Bool :=
  a.start ≤ place.1 && place.1 ≤ a.stop && b.start ≤ place.2 && place.2 ≤ b.stop
    && place != (a.start, b.start) && place != (a.stop, b.stop)

/-- The script for two parts. The fuel bounds how often the parts are split. -/
def scriptFor (s : Sides) : Nat → Span → Span → List Edit
  | 0, _, _ => []
  | fuel + 1, a, b =>
    let head := s.headLength a b
    let a' : Span := ⟨a.start + head, a.stop⟩
    let b' : Span := ⟨b.start + head, b.stop⟩
    let tail := s.tailLength a' b'
    let a' : Span := ⟨a'.start, a'.stop - tail⟩
    let b' : Span := ⟨b'.start, b'.stop - tail⟩
    let inner :=
      if a'.size == 0 && b'.size == 0 then []
      else if b'.size == 0 then [⟨.delete, a'.start, b'.start, a'.size⟩]
      else if a'.size == 0 then [⟨.insert, a'.start, b'.start, b'.size⟩]
      else match (middle? s a' b').filter (splits a' b') with
        | some (x, y) =>
          scriptFor s fuel ⟨a'.start, x⟩ ⟨b'.start, y⟩ ++ scriptFor s fuel ⟨x, a'.stop⟩ ⟨y, b'.stop⟩
        | none =>
          [⟨.delete, a'.start, b'.start, a'.size⟩, ⟨.insert, a'.start, b'.start, b'.size⟩]
    (if head == 0 then [] else [⟨.equal, a.start, b.start, head⟩]) ++ inner
      ++ (if tail == 0 then [] else [⟨.equal, a'.stop, b'.stop, tail⟩])

def script (s : Sides) : List Edit :=
  scriptFor s (s.old.size + s.new.size + 1) ⟨0, s.old.size⟩ ⟨0, s.new.size⟩

end Codemod.Diff
