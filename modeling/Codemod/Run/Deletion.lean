/-
Removing files that are listed by their paths below a root. An entry is refused if it does not stay
below the root, by its text or by where its directory really is, if it passes an excluded directory,
or if it does not name a plain file. A file that is not there is passed over.
-/
import Codemod.Disk.Basic
import Codemod.Text.Quoted

namespace Codemod

open Text

/-- What becomes of one entry. -/
inductive Removal where
  /-- The file is gone, or would be in a dry run. -/
  | removed (p : Path)
  | missing
  | failed (e : Error)
  deriving DecidableEq, Repr

/-- Leaves out paths with the components of an earlier one. -/
def Path.distinct : List Path → List Path
  | [] => []
  | p :: ps => p :: (distinct ps).filter fun q => q.components != p.components

namespace Deletion

structure Settings where
  root : Path
  excluded : List String
  dryRun : Bool

def refused (p : Path) (reason : String) : Removal := .failed (.deletionRefused p reason)

/-- Why the text of an entry is refused. -/
def textFault? (excluded : List String) (p : Path) : Option String :=
  match p.checkBelow with
  | some e => some e.message
  | none => (p.excludedAncestor? excluded).map fun name =>
    "inside excluded directory " ++ quoted name

/-- Whether the directory of a file is really below the real root. -/
def checkPlace (d : Disk) (realRoot full p : Path) : Except Error Unit :=
  match full.parent? with
  | none => .ok ()
  | some parent => match d.canonical parent with
    | .error e => .error (.ofOs parent e)
    | .ok real =>
      if (real.below? realRoot).isSome then .ok ()
      else .error (.deletionRefused p "resolves outside the run root")

/-- Removes one entry. -/
def removeOne (s : Settings) (realRoot : Path) (d : Disk) (p : Path) : Removal × Disk :=
  match textFault? s.excluded p with
  | some reason => (refused p reason, d)
  | none =>
    let full := s.root.join p
    match d.lstat full with
    | .error e => (if e == .notFound then .missing else .failed (.ofOs full e), d)
    | .ok n => match checkPlace d realRoot full p with
      | .error e => (.failed e, d)
      | .ok () =>
        if n.isLink then (refused p "is a symbolic link", d)
        else if !n.isFile then (refused p "not a regular file", d)
        else if s.dryRun then (.removed full, d)
        else match d.remove full with
          | .ok d => (.removed full, d)
          | .error e => (if e == .notFound then .missing else .failed (.ofOs full e), d)

/-- Removes one entry after the other. -/
def removeAll (s : Settings) (realRoot : Path) : List Path → Disk → List (Path × Removal) × Disk
  | [], d => ([], d)
  | p :: ps, d =>
    let (r, d) := removeOne s realRoot d p
    let (rs, d) := removeAll s realRoot ps d
    ((p, r) :: rs, d)

/-- The root without links, or as it is written if it leads nowhere. -/
def realRoot (d : Disk) (root : Path) : Path :=
  match d.canonical root with
  | .ok p => p
  | .error _ => root

/-- Removes the listed files, each path once, and says what became of every entry. -/
def run (s : Settings) (paths : List Path) (d : Disk) : List (Path × Removal) × Disk :=
  removeAll s (realRoot d s.root) (Path.distinct paths) d

def deleted (report : List (Path × Removal)) : List Path :=
  report.filterMap fun
    | (_, .removed p) => some p
    | _ => none

def errors (report : List (Path × Removal)) : List (Path × Error) :=
  report.filterMap fun
    | (p, .failed e) => some (p, e)
    | _ => none

end Deletion

end Codemod
