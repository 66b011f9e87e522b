/-
Visiting the files below a root, in the order of their paths. A directory is listed when it is
reached; links are never followed, and excluded directories never entered.
-/
import Codemod.Disk.Basic
import Codemod.Run.Summary

namespace Codemod.Walk

structure Settings where
  root : Path
  /-- Ends of the names of files to visit. -/
  extensions : List String
  excludedDirs : List String
  /-- Ends of names that are left out although an extension matches. -/
  excludedSuffixes : List String
  /-- Files that are left out. -/
  skip : List Path

/-- How far a walk has come: the disk, what the visits have gathered, and what could not be
listed. -/
structure State (α : Type) where
  disk : Disk
  value : α
  skipped : List SkippedDir := []

def endsWith (name suffix : String) : Bool := suffix.toList.isSuffixOf name.toList

def isCandidate (s : Settings) (p : Path) : Bool :=
  match p.fileName? with
  | none => false
  | some name =>
    s.extensions.any (endsWith name) && !s.excludedSuffixes.any (endsWith name)
      && !s.skip.any fun q => q.components == p.components

def isExcluded (s : Settings) (p : Path) : Bool :=
  match p.fileName? with
  | none => false
  | some name => s.excludedDirs.contains name

/-- A file or a directory to visit. -/
structure Entry where
  path : Path
  isDir : Bool

/-- The plain files and the directories in a directory, ordered by name. -/
def entriesOf (d : Disk) (dir : Path) : Except OsError (List Entry) :=
  (d.list dir).map fun es =>
    let names := (Disk.Entries.names es).mergeSort fun a b => decide (a ≤ b)
    names.filterMap fun name => match Disk.Entries.get? name es with
      | some (.file ..) => some ⟨dir.join ⟨name⟩, false⟩
      | some (.dir ..) => some ⟨dir.join ⟨name⟩, true⟩
      | _ => none

/-- What is done with a file. -/
abbrev Visit (α : Type) := Disk → α → Path → α × Disk

/-- Visits a file, or what is below a directory. `depth` bounds how far directories lie below one
another. -/
def visitEntry (s : Settings) (visit : Visit α) : Nat → State α → Entry → State α
  | depth, st, e =>
    if e.isDir then
      match depth with
      | 0 => st
      | depth + 1 =>
        if isExcluded s e.path then st
        else match entriesOf st.disk e.path with
          | .ok es => es.foldl (visitEntry s visit depth) st
          | .error err => { st with skipped := st.skipped ++ [⟨e.path, err.message⟩] }
    else if isCandidate s e.path then
      let (value, disk) := visit st.disk st.value e.path
      { st with disk, value }
    else st

/-- The root has to be a directory. -/
def checkRoot (d : Disk) (root : Path) : Except Error (List Entry) :=
  match d.stat root with
  | .error e => .error (.invalidRoot root e.message)
  | .ok n =>
    if n.isDir then (entriesOf d root).mapError fun e => .invalidRoot root e.message
    else .error (.invalidRoot root "not a directory")

/-- Visits all files, starting with a value and changing it and the disk with each visit. -/
def run (s : Settings) (visit : Visit α) (start : α) (d : Disk) : Except Error (State α) :=
  (checkRoot d s.root).map fun es =>
    es.foldl (visitEntry s visit d.root.height) { disk := d, value := start }

/-- The files that are visited, if nothing changes on the way. -/
def files (s : Settings) (d : Disk) : Except Error (List Path × List SkippedDir) :=
  (run s (fun d l p => (l ++ [p], d)) [] d).map fun st => (st.value, st.skipped)

end Codemod.Walk
