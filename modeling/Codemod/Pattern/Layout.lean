/-
How much room the automata of a pattern take. A pattern is run by two automata, one that reads
forward and one that reads backward, and is refused if either takes more than the limit. Repetitions
are written out; characters beyond ASCII are read byte by byte, and the two directions share the
states for equal bytes in different ways.
-/
import Codemod.Pattern.Node
import Codemod.Unicode.Bytes
import Std.Data.HashMap

namespace Codemod.Pattern

open Unicode

/-- The most bytes that one automaton may take. -/
def sizeLimit : Nat := 10485760

/-- What has been laid out: the number of states, and the bytes that some states take beyond the
bytes that every state takes. -/
structure Layout where
  states : Nat := 0
  extra : Nat := 0

def stateSize : Nat := 32

/-- A transition on a range of bytes. -/
def rangeSize : Nat := 8

/-- A way out of a fork. -/
def wayOutSize : Nat := 4

def Layout.size (l : Layout) : Nat := stateSize * l.states + l.extra

/-- Laying out fails where the limit is passed. -/
abbrev Build := StateT Layout Option

namespace Build

/-- Adds a state and gives its number. -/
def state (extra : Nat) : Build Nat := fun l =>
  let l' : Layout := ⟨l.states + 1, l.extra + extra⟩
  if l'.size ≤ sizeLimit then some (l.states, l') else none

/-- Adds ways out to a fork. -/
def waysOut (n : Nat) : Build Unit := fun l =>
  let l' : Layout := ⟨l.states, l.extra + wayOutSize * n⟩
  if l'.size ≤ sizeLimit then some ((), l') else none

def plain : Build Unit := do let _ ← state 0

/-- Adds a fork with so many ways out. -/
def fork (n : Nat) : Build Unit := do let _ ← state (wayOutSize * n)

/-- Leads on from a part whose end may be a fork. -/
def leave (fromFork : Bool) : Build Unit := if fromFork then waysOut 1 else return

def plains : Nat → Build Unit
  | 0 => return
  | n + 1 => do plain; plains n

end Build

open Build

/-- The slot that a table of shared states has for a key. -/
def slotOf (slots : Nat) (key : List Nat) : Nat :=
  let h := key.foldl (fun h n => (h ^^^ n.toUInt64) * 0x100000001B3) (0xCBF29CE484222325 : UInt64)
  h.toNat % slots

/-- States that later parts may share. Each slot remembers the last state put there. -/
abbrev Shared := Std.HashMap Nat (List Nat × Nat)

/-- The state for a key, which is added unless the table remembers it. -/
def shareState (slots extra : Nat) (key : List Nat) (shared : Shared) : Build (Nat × Shared) := do
  let slot := slotOf slots key
  match shared[slot]? with
  | some (key', id) =>
    if key' == key then return (id, shared)
    else
      let id ← state extra
      return (id, shared.insert slot (key, id))
  | none =>
    let id ← state extra
    return (id, shared.insert slot (key, id))

/-! ## Reading a set forward -/

/-- A state that is still being put together: its finished transitions, the last one first, and the
range of the one that is open. A transition is its range and the state it leads to. -/
structure OpenState where
  done : List (List Nat) := []
  last : Option (Nat × Nat) := none

namespace OpenState

def close (s : OpenState) (next : Nat) : OpenState :=
  match s.last with
  | some (a, b) => ⟨[a, b, next] :: s.done, none⟩
  | none => s

def key (s : OpenState) : List Nat := s.done.reverse.flatten

end OpenState

/-- The states on the way to the piece that was read last, the first byte's state first, and those
that are finished. -/
structure SetStates where
  path : List OpenState
  shared : Shared

namespace SetStates

def finish (s : OpenState) (shared : Shared) : Build (Nat × Shared) :=
  shareState 10000 (rangeSize * s.done.length) s.key shared

/-- Finishes the states of a path and closes the one before them, given where the path leads. -/
def finishPath (target : Nat) (s : OpenState) (rest : List OpenState) (shared : Shared) :
    Build (OpenState × Shared) := do
  match rest with
  | [] => return (s.close target, shared)
  | r :: rest =>
    let (r, shared) ← finishPath target r rest shared
    let (id, shared) ← finish r shared
    return (s.close id, shared)

/-- Adds a piece. What it has in common with the path stays open. -/
def add (target : Nat) : List OpenState → Shared → ByteRanges → Build (List OpenState × Shared)
  | s :: rest, shared, r :: rs => do
    if s.last == some r && !rs.isEmpty then
      let (rest, shared) ← add target rest shared rs
      return (s :: rest, shared)
    else
      let (s, shared) ← finishPath target s rest shared
      return ({ s with last := some r } :: rs.map fun r => ⟨[], some r⟩, shared)
  | path, shared, _ => return (path, shared)

end SetStates

/-- Lays out a set that is read forward: states are shared from the last byte back. -/
def forwardSet (pieces : List ByteRanges) : Build Unit := do
  let target ← state 0
  let (path, shared) ← pieces.foldlM
    (fun (path, shared) piece => SetStates.add target path shared piece)
    ([({} : OpenState)], (∅ : Shared))
  match path with
  | [] => return
  | s :: rest =>
    let (s, shared) ← SetStates.finishPath target s rest shared
    let _ ← SetStates.finish s shared

/-! ## Reading a set backward -/

/-- Lays out a set that is read backward: every piece has a way of its own out of a fork, and shares
the states of its first bytes with pieces that start with the same ones. -/
def backwardSet (pieces : List ByteRanges) : Build Unit := do
  fork pieces.length
  let target ← state 0
  let _ ← pieces.foldlM (fun shared piece => do
    let (_, shared) ← piece.foldlM (fun (next, shared) (a, b) =>
      shareState 1000 0 [next, a, b] shared) (target, shared)
    return shared) (∅ : Shared)

/-! ## Alternatives that are words -/

/-- Cuts a list of words where a word ends, which is where the empty word stands. A second end means
nothing as long as no word goes on. -/
def stretches (words : List (List Nat)) : List (List (List Nat)) :=
  let (done, open_, _) := words.foldl
    (fun (done, open_, goesOn) w =>
      if !w.isEmpty then (done, w :: open_, true)
      else if goesOn || done.isEmpty then (open_.reverse :: done, [], goesOn)
      else (done, open_, goesOn))
    (([] : List (List (List Nat))), ([] : List (List Nat)), false)
  (open_.reverse :: done).reverse

/-- What follows each first byte. -/
def byFirst (words : List (List Nat)) : List (List (List Nat)) :=
  let heads := (words.filterMap (·.head?)).eraseDups
  heads.map fun b => (words.filter fun w => w.head? == some b).map (·.drop 1)

/-- Lays out words that share their starts; all of them end in one state, which is there already. -/
def sharedWords : Nat → List (List Nat) → Build Unit
  | 0, _ => return
  | fuel + 1, words => do
    let cut := stretches words
    for stretch in cut do
      let followers := byFirst stretch
      for f in followers do
        if f.any (!·.isEmpty) then sharedWords fuel f
      if followers.length == 1 then plain
      else if followers.length > 1 then
        let _ ← state (rangeSize * followers.length)
    fork ((cut.filter (!·.isEmpty)).length + cut.length - 1)

/-! ## Whole patterns -/

def wordBytes (cs : List Char) : List Nat := cs.flatMap fun c => bytesOf c.toNat

namespace Node

def word? : Node → Option (List Char)
  | word cs => some cs
  | _ => none

/-- The least number of bytes that a match takes, if there can be one. -/
def leastBytes? : Node → Option Nat
  | empty => some 0
  | word cs => some (wordBytes cs).length
  | chars s => s.ranges.head?.map fun r => (bytesOf r.1).length
  | look _ => some 0
  | group _ x => x.leastBytes?
  | seq x y => do return (← x.leastBytes?) + (← y.leastBytes?)
  | alt x y => do return min (← x.leastBytes?) (← y.leastBytes?)
  | loop x low _ _ => x.leastBytes?.map (low * ·)

/-- Whether a match has no width, and whether every match starts where the text does or, going
backward, ends where it ends. -/
def edge (backward : Bool) : Node → Bool × Bool
  | empty => (true, false)
  | word cs => (cs.isEmpty, false)
  | chars _ => (false, false)
  | look l => (true, l == if backward then .textEnd else .textStart)
  | group _ x => x.edge backward
  | seq x y =>
    let (still, held) := x.edge backward
    let (still', held') := y.edge backward
    (still && still',
      if backward then held' || (still' && held) else held || (still && held'))
  | alt x y =>
    let (still, held) := x.edge backward
    let (still', held') := y.edge backward
    (still && still', held && held')
  | loop x low _ _ =>
    let (still, held) := x.edge backward
    (still, low > 0 && held)

end Node

/-- So many more copies of a part, one after the other; `lay` lays out one and tells whether it ends
in a fork. -/
def layMore (lay : Build Bool) : Nat → Bool → Build Bool
  | 0, ends => return ends
  | n + 1, ends => do
    let ends' ← lay
    leave ends
    layMore lay n ends'

def layCopies (lay : Build Bool) : Nat → Build Bool
  | 0 => do plain; return false
  | n + 1 => do layMore lay n (← lay)

/-- The rounds that need not be made, each behind a fork that may leave; gives whether the last one
ends in a fork. -/
def layOptional (lay : Build Bool) : Nat → Bool → Build Bool
  | 0, ends => return ends
  | n + 1, ends => do
    fork 2
    let ends' ← lay
    leave ends
    layOptional lay n ends'

def layLoop (lay : Build Bool) (solid : Bool) (low : Nat) (high : Option Nat) : Build Bool := do
  match low, high with
  | 0, some 1 =>
    fork 2
    let ends ← lay
    plain
    leave ends
    return false
  | 0, none =>
    if solid then
      fork 1
      leave (← lay)
      return true
    else
      let ends ← lay
      fork 2
      leave ends
      fork 2
      plain
      return false
  | n + 1, none =>
    if n == 0 then
      leave (← lay)
    else
      let before ← layCopies lay n
      let last ← lay
      leave before
      leave last
    fork 1
    return true
  | _, some high =>
    if low == high then layCopies lay low
    else
      let ends ← layCopies lay low
      plain
      leave (← layOptional lay (high - low) ends)
      return false

/-- Which alternative of a choice comes next. The fork of a choice is added behind its second
alternative. -/
inductive Turn where
  | first
  | second
  | later
  deriving DecidableEq

/-- Joins an alternative that ends as told to its choice. -/
def joinChoice (turn : Turn) (ends : Bool) : Build Unit := do
  if turn = .second then
    fork 0
    plain
  waysOut 1
  leave ends

/-- Lays out a node; gives whether it ends in a fork. At a turn after the first, the node is the rest
of a choice. -/
def layNode (backward : Bool) : Turn → Node → Build Bool
  | _, .empty => do plain; return false
  | _, .word cs => do plains (wordBytes cs).length; return false
  | _, .chars s => do
    if s.ranges.all fun r => r.2 ≤ 0x7F then
      plain
      let _ ← state (rangeSize * s.ranges.length)
    else
      let pieces := s.ranges.flatMap fun r => byteRanges r.1 r.2
      if backward then backwardSet pieces else forwardSet pieces
    return false
  | _, .look _ => do plain; return false
  | _, .group _ x =>
    if backward then layNode backward .first x
    else do
      plain
      let ends ← layNode backward .first x
      plain
      leave ends
      return false
  | _, .seq x y => do
    if backward then
      let ends ← layNode backward .first y
      let ends' ← layNode backward .first x
      leave ends
      return ends'
    else
      let ends ← layNode backward .first x
      let ends' ← layNode backward .first y
      leave ends
      return ends'
  | turn, .alt x y => do
    match (if turn = .first then (Node.alt x y).choices.mapM Node.word? else none) with
    | some words =>
      plain
      let words := words.map wordBytes
      let words := if backward then words.map List.reverse else words
      sharedWords (words.foldl (fun n w => max n w.length) 1) words
    | none =>
      joinChoice turn (← layNode backward .first x)
      let next := if turn = .first then Turn.second else .later
      if y.choices.length > 1 then
        let _ ← layNode backward next y
      else joinChoice next (← layNode backward .first y)
    return false
  | _, .loop x low high _ =>
    layLoop (layNode backward .first x) (x.leastBytes?.any (· > 0)) low high

/-- Lays out a whole pattern: what skips to where a match starts, unless every match starts where
reading does, and then the pattern itself. -/
def layPattern (backward : Bool) (x : Node) : Build Unit := do
  if (x.edge backward).2 then plain
  else
    fork 2
    plain
    let _ ← state rangeSize
  if backward then
    leave (← layNode backward .first x)
  else
    plain
    leave (← layNode backward .first x)
    plain
  plain

/-- So many words, and nothing but words, are looked up in a table instead. -/
def manyWords : Nat := 3000

/-- Whether both automata of a pattern keep to the limit. -/
def fits (x : Node) : Bool :=
  let words := x.choices.mapM Node.word?
  words.any (·.length ≥ manyWords)
    || ((layPattern false x {}).isSome && (layPattern true x {}).isSome)

end Codemod.Pattern
