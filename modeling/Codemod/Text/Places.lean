/-
Sets of places in a text. A place is known by the number of characters ahead of it, and a set by a
number with a bit for each place, so that a step of all its places at once is a shift.
-/
namespace Codemod.Text

structure Places where
  bits : Nat
  deriving DecidableEq, Repr, Inhabited

namespace Places

def contains (s : Places) (left : Nat) : Bool := s.bits.testBit left

def none : Places := ⟨0⟩

def isNone (s : Places) : Bool := s.bits == 0

/-- The places with no more than so many characters ahead. -/
def upTo (left : Nat) : Places := ⟨(1 <<< (left + 1)) - 1⟩

def union (s t : Places) : Places := ⟨s.bits ||| t.bits⟩

def inter (s t : Places) : Places := ⟨s.bits &&& t.bits⟩

/-- So many characters back from each place. -/
def back (s : Places) (n : Nat) : Places := ⟨s.bits <<< n⟩

/-- The places of a stretch of twice doubled length that pass a test: `depth` doublings from `base`
on. -/
def gather (test : Nat → Bool) : Nat → Nat → Nat
  | 0, base => if test base then 1 else 0
  | depth + 1, base =>
    gather test depth base ||| (gather test depth (base + (1 <<< depth))) <<< (1 <<< depth)

/-- The places up to a number that pass a test. -/
def ofTest (count : Nat) (test : Nat → Bool) : Places :=
  ⟨gather (fun i => i < count && test i) (count.log2 + 1) 0⟩

/-- The places from which any number of steps over the given characters leads into a set, where a
character is known by the place behind it: added to the characters, a place carries over all that
stand without a gap before it. -/
def flood (behind s : Places) : Places :=
  ⟨(((s.bits &&& behind.bits) + behind.bits) ^^^ behind.bits) ||| s.bits⟩

/-- Applies a step again and again, but not when it changes nothing. -/
def iterate (step : Places → Places) : Nat → Places → Places
  | 0, s => s
  | n + 1, s =>
    let t := step s
    if t = s then s else iterate step n t

/-- A set laid out in stretches of 32 places each, so that looking up a place takes only a small
number into hand. -/
structure Index where
  stretches : Array Nat
  deriving Inhabited

/-- Lays out the bits by halves, the low ones first. -/
def layOut : Nat → Nat → Array Nat → Array Nat
  | 0, bits, a => a.push bits
  | depth + 1, bits, a =>
    let width := 32 <<< depth
    layOut depth (bits >>> width) (layOut depth (bits &&& ((1 <<< width) - 1)) a)

def index (s : Places) : Index :=
  if s.isNone then ⟨#[]⟩ else ⟨layOut ((s.bits.log2 / 32).log2 + 1) s.bits #[]⟩

namespace Index

def stretch (x : Index) (i : Nat) : Nat := x.stretches.getD i 0

def contains (x : Index) (left : Nat) : Bool := (x.stretch (left / 32)).testBit (left % 32)

/-- The first place, in the order of the text, of the stretches below one. -/
def firstBelow? (x : Index) : Nat → Option Nat
  | 0 => Option.none
  | i + 1 =>
    let bits := x.stretch i
    if bits == 0 then x.firstBelow? i else some (32 * i + bits.log2)

/-- The first place, in the order of the text, with no more than so many characters ahead. -/
def first? (x : Index) (left : Nat) : Option Nat :=
  let i := left / 32
  let bits := x.stretch i &&& ((2 <<< (left % 32)) - 1)
  if bits == 0 then x.firstBelow? (min i x.stretches.size) else some (32 * i + bits.log2)

end Index

end Places

end Codemod.Text
