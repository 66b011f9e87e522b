/-
What a pattern matches, as a tree. The trees are built by `cat`, `either` and `times`, which keep
them simple: neighbouring characters form words, alternatives that are characters form one set, and
what all alternatives start with is matched before the choice.
-/
import Codemod.Unicode.CharSet

namespace Codemod.Pattern

open Unicode

/-- Conditions on a place in the text. -/
inductive Look where
  | textStart
  | textEnd
  | lineStart
  | lineEnd
  /-- The ends of lines that `\r`, `\n` or `\r\n` close. -/
  | lineStartCr
  | lineEndCr
  | wordBoundary (unicode : Bool)
  | notWordBoundary (unicode : Bool)
  | wordStart (unicode : Bool)
  | wordEnd (unicode : Bool)
  | wordStartHalf (unicode : Bool)
  | wordEndHalf (unicode : Bool)
  deriving DecidableEq, Repr

inductive Node where
  | empty
  /-- These characters, one after the other. -/
  | word (cs : List Char)
  /-- One character of a set. -/
  | chars (s : CharSet)
  | look (l : Look)
  | group (index : Nat) (x : Node)
  | seq (x y : Node)
  /-- The first of two that leads to a match. -/
  | alt (x y : Node)
  /-- As many rounds as there can be if greedy, and as few as there can be if not. -/
  | loop (x : Node) (low : Nat) (high : Option Nat) (greedy : Bool)
  deriving DecidableEq, Repr, Inhabited

namespace Node

/-- Whether the node can match the empty text somewhere. -/
def nullable : Node → Bool
  | empty => true
  | word cs => cs.isEmpty
  | chars _ => false
  | look _ => true
  | group _ x => x.nullable
  | seq x y => x.nullable && y.nullable
  | alt x y => x.nullable || y.nullable
  | loop x low _ _ => low == 0 || x.nullable

/-- Whether the node matches nothing but the empty text. -/
def zeroWidth : Node → Bool
  | empty => true
  | word cs => cs.isEmpty
  | chars _ => false
  | look _ => true
  | group _ x => x.zeroWidth
  | seq x y => x.zeroWidth && y.zeroWidth
  | alt x y => x.zeroWidth && y.zeroWidth
  | loop x _ _ _ => x.zeroWidth

def size : Node → Nat
  | group _ x => x.size + 1
  | seq x y => x.size + y.size + 1
  | alt x y => x.size + y.size + 1
  | loop x _ _ _ => x.size + 1
  | _ => 1

/-- A set with one character is a word. -/
def ofSet (s : CharSet) : Node :=
  match s.ranges with
  | [(a, b)] => if a == b then word [Char.ofNat a] else chars s
  | _ => chars s

/-- Puts a node that is no sequence in front of another. -/
def join (x y : Node) : Node :=
  match x, y with
  | x, empty => x
  | word cs, word ds => word (cs ++ ds)
  | word cs, seq (word ds) z => seq (word (cs ++ ds)) z
  | x, y => seq x y

/-- One node after the other. -/
def cat : Node → Node → Node
  | empty, y => y
  | seq a b, y => join a (b.cat y)
  | x, y => join x y

def concat (xs : List Node) : Node := xs.foldr cat empty

/-- What a sequence consists of. -/
def parts : Node → List Node
  | empty => []
  | seq x y => x :: y.parts
  | x => [x]

/-- The alternatives of a choice. -/
def choices : Node → List Node
  | alt x y => x :: y.choices
  | x => [x]

def ofChoices : List Node → Node
  | [] => chars .empty
  | [x] => x
  | x :: xs => alt x (ofChoices xs)

def char? : Node → Option Char
  | word [c] => some c
  | _ => none

def set? : Node → Option CharSet
  | chars s => some s
  | _ => none

def isSeq : Node → Bool
  | seq _ _ => true
  | _ => false

def commonStart : List Node → List Node → List Node
  | x :: xs, y :: ys => if x = y then x :: commonStart xs ys else []
  | _, _ => []

/-- What several sequences start with in common. -/
def sharedStart (xs : List Node) : List Node :=
  match xs with
  | x :: rest => if xs.all isSeq then rest.foldl (fun s y => commonStart s y.parts) x.parts else []
  | [] => []

def eitherWithin : Nat → List Node → Node
  | 0, xs => ofChoices xs
  | fuel + 1, xs =>
    let xs := xs.flatMap choices
    match xs with
    | [x] => x
    | _ =>
      match xs.mapM char? with
      | some cs => ofSet (.ofChars cs)
      | none => match xs.mapM set? with
        | some ss => ofSet (.unions ss)
        | none => match sharedStart xs with
          | [] => ofChoices xs
          | shared =>
            concat (shared ++
              [eitherWithin fuel (xs.map fun x => concat (x.parts.drop shared.length))])

/-- The first of several that leads to a match. -/
def either (xs : List Node) : Node :=
  eitherWithin (xs.foldr (fun x n => x.size + n) 1) xs

/-- From `low` to `high` rounds, without an upper limit if there is no `high`. Repeating what has no
width adds nothing after the first time. -/
def times (x : Node) (low : Nat) (high : Option Nat) (greedy : Bool) : Node :=
  let still := x.zeroWidth
  let low := if still then min low 1 else low
  let high := if still then some ((high.map (min · 1)).getD 1) else high
  if high == some 0 then empty
  else if low == 1 && high == some 1 then x
  else loop x low high greedy

end Node

end Codemod.Pattern
