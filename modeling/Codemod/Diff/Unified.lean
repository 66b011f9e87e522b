/-
Unified diffs: the changed lines of a text with three unchanged lines around them, in hunks that name
the lines they cover.
-/
import Codemod.Diff.Tidy

namespace Codemod.Diff

/-- Lines of a text, each with the line end that closes it: `\n`, `\r\n` or `\r`. The last line may have none.
`line` holds the characters of the current one, the last first. -/
def linesFrom (line : List Char) : List Char → List (List Char)
  | [] => if line.isEmpty then [] else [line.reverse]
  | '\r' :: '\n' :: rest => ('\n' :: '\r' :: line).reverse :: linesFrom [] rest
  | c :: rest =>
    if c == '\r' || c == '\n' then (c :: line).reverse :: linesFrom [] rest
    else linesFrom (c :: line) rest

def lines (text : String) : List String := (linesFrom [] text.toList).map String.ofList

def isClosed (line : String) : Bool :=
  match line.toList.getLast? with
  | some c => c == '\r' || c == '\n'
  | none => false

/-- Lines that stay, or lines that others replace; either side may have none. -/
structure Block where
  isEqual : Bool
  old : Span
  new : Span
  deriving DecidableEq, Repr

/-- Edits that wait for the next equal line. -/
structure Pending where
  delete : Option Edit := none
  insert : Option Edit := none

namespace Pending

def block? (p : Pending) : Option Block :=
  match p.delete, p.insert with
  | some d, some i => some ⟨false, ⟨d.old, d.old + d.len⟩, ⟨i.new, i.new + i.len⟩⟩
  | some d, none => some ⟨false, ⟨d.old, d.old + d.len⟩, ⟨d.new, d.new⟩⟩
  | none, some i => some ⟨false, ⟨i.old, i.old⟩, ⟨i.new, i.new + i.len⟩⟩
  | none, none => none

end Pending

/-- Lengthens an edit by the next of its kind. -/
def extend (e : Option Edit) (next : Edit) : Option Edit :=
  match e with
  | some e => some { e with len := e.len + next.len }
  | none => some next

/-- Joins deletions and insertions that no equal line separates, and equal lines that nothing
separates. -/
def blocksFrom (p : Pending) (equal : Option Edit) : List Edit → List Block
  | [] => (equalBlock equal).toList ++ p.block?.toList
  | e :: rest =>
    match e.kind with
    | .equal => p.block?.toList ++ blocksFrom {} (extend equal e) rest
    | .delete => (equalBlock equal).toList ++ blocksFrom { p with delete := extend p.delete e } none rest
    | .insert => (equalBlock equal).toList ++ blocksFrom { p with insert := extend p.insert e } none rest
where
  equalBlock (e : Option Edit) : Option Block :=
    e.map fun e => ⟨true, ⟨e.old, e.old + e.len⟩, ⟨e.new, e.new + e.len⟩⟩

/-- Lines shown around a change. -/
def radius : Nat := 3

/-- Keeps the last lines of an equal block. -/
def Block.suffix (b : Block) : Block :=
  let n := b.old.size - radius
  { b with old := ⟨b.old.start + n, b.old.stop⟩, new := ⟨b.new.start + n, b.new.stop⟩ }

/-- Keeps the first lines of an equal block. -/
def Block.firstLines (b : Block) : Block :=
  let n := min b.old.size radius
  { b with old := ⟨b.old.start, b.old.start + n⟩, new := ⟨b.new.start, b.new.start + n⟩ }

def mapHead (f : Block → Block) : List Block → List Block
  | b :: rest => (if b.isEqual then f b else b) :: rest
  | [] => []

def mapLast (f : Block → Block) (l : List Block) : List Block := (mapHead f l.reverse).reverse

/-- Cuts the blocks into hunks: a long run of equal lines ends one and starts the next. The current
hunk has its last block first. -/
def hunksFrom (hunk : List Block) : List Block → List (List Block)
  | [] => match hunk with
    | [] => []
    | [b] => if b.isEqual then [] else [[b]]
    | hunk => [hunk.reverse]
  | b :: rest =>
    if b.isEqual && b.old.size > 2 * radius then
      (b.firstLines :: hunk).reverse :: hunksFrom [b.suffix] rest
    else hunksFrom (b :: hunk) rest

def hunks (blocks : List Block) : List (List Block) :=
  hunksFrom [] (mapLast Block.firstLines (mapHead Block.suffix blocks))

/-- An empty range names the line before it. -/
def rangeText (s : Span) : String :=
  if s.size == 1 then toString (s.start + 1)
  else if s.size == 0 then toString s.start ++ ",0"
  else toString (s.start + 1) ++ "," ++ toString s.size

def lineText (sign : String) (line : String) : String :=
  sign ++ line ++ if isClosed line then "" else "\n\\ No newline at end of file\n"

def linesOf (all : Array String) (s : Span) : List String := (all.extract s.start s.stop).toList

def Block.render (s : Sides) (b : Block) : String :=
  if b.isEqual then String.join ((linesOf s.old b.old).map (lineText " "))
  else String.join ((linesOf s.old b.old).map (lineText "-"))
    ++ String.join ((linesOf s.new b.new).map (lineText "+"))

def renderHunk (s : Sides) (hunk : List Block) : String :=
  match hunk.head?, hunk.getLast? with
  | some first, some last =>
    "@@ -" ++ rangeText ⟨first.old.start, last.old.stop⟩ ++ " +"
      ++ rangeText ⟨first.new.start, last.new.stop⟩ ++ " @@\n"
      ++ String.join (hunk.map (Block.render s))
  | _, _ => ""

/-- The unified diff of two texts under the name of a file; empty where they are equal. -/
def unified (path original modified : String) : String :=
  if original == modified then ""
  else
    let s : Sides := ⟨(lines original).toArray, (lines modified).toArray⟩
    let hunks := hunks (blocksFrom {} none (tidy s (script s)))
    if hunks.isEmpty then ""
    else "--- a/" ++ path ++ "\n+++ b/" ++ path ++ "\n" ++ String.join (hunks.map (renderHunk s))

end Codemod.Diff
