/-
Following a path through a tree, links included. The pieces of the path are taken one by one; a link
puts the pieces of its target before those that are left, and only so many links may be followed.
-/
import Codemod.Disk.Node
import Codemod.Error

namespace Codemod.Disk

/-- Where a path leads: to something that is there, or to a free name in a directory. -/
inductive Spot where
  | node (loc : Location) (n : Node)
  | free (parent : Location) (name : String)

/-- How many links may be followed on one way. -/
def maxLinks : Nat := 40

/-- How many bytes a name may have. -/
def maxName : Nat := 255

/-- The length in bytes from which on a path is too long. -/
def pathLimit : Nat := 4096

/-- The names that a path text passes; a separator at its end asks for a directory, as `.` does. -/
def pathPieces (text : String) : List String :=
  let ps := (Path.pieces text.toList []).filter (!·.isEmpty)
  let ps := if text.toList.getLast? == some '/' && !ps.isEmpty then ps ++ [['.']] else ps
  ps.map String.ofList

def startsAtRoot (text : String) : Bool := text.toList.head? == some '/'

/-- Goes on from a directory. With `follow`, a link at the very end is followed too. -/
def walk (root : Node) (follow : Bool) (links : Nat) (here : Location) (pieces : List String) :
    Except OsError Spot :=
  match pieces with
  | [] => match root.get? here with
    | some n => .ok (.node here n)
    | none => .error .notFound
  | piece :: rest =>
    match root.get? here with
    | none => .error .notFound
    | some (.dir _ es) =>
      if piece == "." then walk root follow links here rest
      else if piece == ".." then walk root follow links here.dropLast rest
      else if piece.utf8ByteSize > maxName then .error .nameTooLong
      else match Entries.get? piece es with
        | none => if rest.isEmpty then .ok (.free here piece) else .error .notFound
        | some (.link target) =>
          if rest.isEmpty && !follow then .ok (.node (here ++ [piece]) (.link target))
          else match links with
            | 0 => .error .linkLoop
            | links + 1 =>
              walk root follow links (if startsAtRoot target then [] else here)
                (pathPieces target ++ rest)
        | some _ => walk root follow links (here ++ [piece]) rest
    | some _ => .error .notDirectory
termination_by (links, pieces.length)

end Codemod.Disk
