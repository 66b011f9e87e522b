/-
A pattern laid over a text. `ways x k` are the places from which `x` can lead to one of the places
`k`; they are found for all places at once, going back through the pattern.
-/
import Codemod.Pattern.Node
import Codemod.Text.Places
import Codemod.Unicode.Class

namespace Codemod.Pattern

open Text Unicode

def isWord (unicode : Bool) (c : Char) : Bool :=
  if unicode then words.contains c else asciiWords.contains c

/-- Whether a condition holds between two characters. -/
def Look.holds (l : Look) (before after : Option Char) : Bool :=
  let word (unicode : Bool) (o : Option Char) := o.any (isWord unicode)
  match l with
  | textStart => before.isNone
  | textEnd => after.isNone
  | lineStart => before.all (· == '\n')
  | lineEnd => after.all (· == '\n')
  | lineStartCr => before.all fun b => b == '\n' || (b == '\r' && after != some '\n')
  | lineEndCr => after.all fun a => a == '\r' || (a == '\n' && before != some '\r')
  | wordBoundary u => word u before != word u after
  | notWordBoundary u => word u before == word u after
  | wordStart u => !word u before && word u after
  | wordEnd u => word u before && !word u after
  | wordStartHalf u => !word u before
  | wordEndHalf u => !word u after

namespace Node

/-- The sets that the characters of a match are tested against. -/
def sets : Node → List CharSet
  | word cs => cs.map .single
  | chars s => [s]
  | group _ x => x.sets
  | seq x y => x.sets ++ y.sets
  | alt x y => x.sets ++ y.sets
  | loop x _ _ _ => x.sets
  | _ => []

def looks : Node → List Look
  | look l => [l]
  | group _ x => x.looks
  | seq x y => x.looks ++ y.looks
  | alt x y => x.looks ++ y.looks
  | loop x _ _ _ => x.looks
  | _ => []

end Node

/-- A text, with the places behind a character of certain sets and those where certain conditions
hold. -/
structure Sheet where
  /-- The characters, the last one first. -/
  chars : Array Char
  sets : List (CharSet × Places)
  looks : List (Look × Places)

namespace Sheet

def behind (chars : Array Char) (s : CharSet) : Places :=
  .ofTest chars.size fun i => (chars[i]?).any s.contains

def holding (chars : Array Char) (l : Look) : Places :=
  .ofTest (chars.size + 1) fun i =>
    l.holds chars[i]? (if i = 0 then none else chars[i - 1]?)

/-- A sheet with what a pattern asks about. -/
def ofText (text : List Char) (x : Node) : Sheet :=
  let chars := text.reverse.toArray
  ⟨chars, x.sets.eraseDups.map fun s => (s, behind chars s),
    x.looks.eraseDups.map fun l => (l, holding chars l)⟩

def placesOf (h : Sheet) (s : CharSet) : Places :=
  match h.sets.find? fun b => b.1 = s with
  | some b => b.2
  | none => behind h.chars s

def placesAt (h : Sheet) (l : Look) : Places :=
  match h.looks.find? fun b => b.1 = l with
  | some b => b.2
  | none => holding h.chars l

end Sheet

/-- A pattern laid over a text, with the places behind each of its characters and those where its
conditions hold. -/
inductive Course where
  | empty
  | word (cs : List Char) (behind : List Places)
  | chars (s : CharSet) (behind : Places)
  | look (l : Look) (here : Places)
  | group (index : Nat) (x : Course)
  | seq (x y : Course)
  | alt (x y : Course)
  | loop (x : Course) (low : Nat) (high : Option Nat) (greedy : Bool)

def Sheet.lay (h : Sheet) : Node → Course
  | .empty => .empty
  | .word cs => .word cs (cs.map fun c => h.placesOf (.single c))
  | .chars s => .chars s (h.placesOf s)
  | .look l => .look l (h.placesAt l)
  | .group i x => .group i (h.lay x)
  | .seq x y => .seq (h.lay x) (h.lay y)
  | .alt x y => .alt (h.lay x) (h.lay y)
  | .loop x low high greedy => .loop (h.lay x) low high greedy

namespace Course

/-- Whether the course can lead from a place to itself somewhere. -/
def nullable : Course → Bool
  | empty => true
  | word cs _ => cs.isEmpty
  | chars _ _ => false
  | look _ _ => true
  | group _ x => x.nullable
  | seq x y => x.nullable && y.nullable
  | alt x y => x.nullable || y.nullable
  | loop x low _ _ => low == 0 || x.nullable

/-- The single characters that a round of a loop can consist of. -/
def singles : Course → Places
  | word _ [behind] => behind
  | chars _ behind => behind
  | group _ x => x.singles
  | alt x y => x.singles.union y.singles
  | loop x low _ _ => if low ≤ 1 then x.singles else .none
  | _ => .none

/-- The places where a character comes next that leads into `k`. -/
def before (behind k : Places) : Places := if k.isNone then k else (k.inter behind).back 1

/-- The places from which any number of rounds leads into `k`; `round` steps back one round, and
`behind` are the places behind characters that are rounds of their own. -/
def rounds (size : Nat) (behind : Places) (round : Places → Places) (k : Places) : Places :=
  if k.isNone then k
  else
    Places.iterate (fun s => Places.flood behind (s.union (round s))) size
      (Places.flood behind k)

/-- The places from which a course leads into `k`. Where the course is a round of a loop without
upper limit, a loop in it need not go round twice. No loop needs more than `size` rounds. -/
def ways (size : Nat) (looping : Bool) : Course → Places → Places
  | empty, k => k
  | word _ behind, k => behind.foldr before k
  | chars _ behind, k => before behind k
  | look _ here, k => k.inter here
  | group _ x, k => x.ways size looping k
  | seq x y, k => x.ways size false (y.ways size false k)
  | alt x y, k => (x.ways size looping k).union (y.ways size looping k)
  | loop x low high _, k =>
    if looping && low ≤ 1 then x.ways size true k
    else
      let rest := match high with
        | none => rounds size x.singles (x.ways size true) k
        | some high => Places.iterate (fun s => k.union (x.ways size false s)) (high - low) k
      Places.iterate (x.ways size false) low rest

end Course

end Codemod.Pattern
