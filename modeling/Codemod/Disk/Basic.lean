/-
A disk: a tree with the directory that relative paths start from, and what programs do on it. An
operation that is refused leaves the disk as it was.
-/
import Codemod.Disk.Resolve

namespace Codemod

open Disk

structure Disk where
  root : Node
  workDir : Location

namespace Disk

/-- Permissions of new files and directories. -/
def fileMode : Nat := 0o644

def dirMode : Nat := 0o755

def pathOf (loc : Location) : Path := ⟨"/" ++ "/".intercalate loc⟩

/-- The working directory as a path. -/
def here (d : Disk) : Path := pathOf d.workDir

/-- Follows a path. -/
def resolve (d : Disk) (follow : Bool) (p : Path) : Except OsError Spot :=
  if p.text.toList.contains '\x00' then .error .nulInPath
  else if p.text.isEmpty then .error .notFound
  else if p.text.utf8ByteSize ≥ pathLimit then .error .nameTooLong
  else walk d.root follow maxLinks (if startsAtRoot p.text then [] else d.workDir)
    (pathPieces p.text)

/-- Where a path leads and what is there. -/
def find (d : Disk) (follow : Bool) (p : Path) : Except OsError (Location × Node) := do
  match ← d.resolve follow p with
  | .node loc n => return (loc, n)
  | .free .. => .error .notFound

/-- What a path leads to, links followed. -/
def stat (d : Disk) (p : Path) : Except OsError Node := (d.find true p).map (·.2)

/-- What a path names; a link at its end is not followed. -/
def lstat (d : Disk) (p : Path) : Except OsError Node := (d.find false p).map (·.2)

def exists? (d : Disk) (p : Path) : Bool := (d.stat p).isOk

def isDir (d : Disk) (p : Path) : Bool :=
  match d.stat p with
  | .ok n => n.isDir
  | .error _ => false

/-- The absolute path without links that leads to the same place; it has to be short enough for a
path. -/
def canonical (d : Disk) (p : Path) : Except OsError Path :=
  match d.find true p with
  | .error e => .error e
  | .ok (loc, _) =>
    if (pathOf loc).text.utf8ByteSize ≥ pathLimit then .error .nameTooLong else .ok (pathOf loc)

def read (d : Disk) (p : Path) : Except OsError ByteArray := do
  match ← d.stat p with
  | .file content _ => return content
  | .dir .. => .error .isDirectory
  | _ => return .empty

def list (d : Disk) (p : Path) : Except OsError Entries := do
  match ← d.stat p with
  | .dir _ es => return es
  | _ => .error .notDirectory

/-! ## Changes -/

/-- Opens a file for writing, at the location that is given back; it is made if it is not there, and
emptied if that is asked for. -/
def openFile (d : Disk) (empty : Bool) (p : Path) : Except OsError (Location × Disk) := do
  match ← d.resolve true p with
  | .free parent name =>
    let loc := parent ++ [name]
    return (loc, { d with root := d.root.put loc (.file .empty fileMode) })
  | .node loc (.file _ mode) =>
    return (loc, if empty then { d with root := d.root.put loc (.file .empty mode) } else d)
  | .node loc .full => return (loc, d)
  | .node _ (.dir ..) => .error .isDirectory
  | .node _ (.link _) => .error .linkLoop

/-- Adds to the end of an open file. What is no longer there takes the data and loses it. -/
def append (d : Disk) (loc : Location) (bytes : ByteArray) : Except OsError Disk :=
  match d.root.get? loc with
  | some (.file content mode) =>
    .ok { d with root := d.root.put loc (.file (content ++ bytes) mode) }
  | some .full => if bytes.isEmpty then .ok d else .error .noSpace
  | _ => .ok d

/-- Makes sure that what was written is on the disk, which a device does not offer. -/
def sync (d : Disk) (loc : Location) : Except OsError Unit :=
  match d.root.get? loc with
  | some .full => .error .invalidArgument
  | _ => .ok ()

def size (d : Disk) (loc : Location) : Nat :=
  match d.root.get? loc with
  | some (.file content _) => content.size
  | _ => 0

def setMode (d : Disk) (p : Path) (mode : Nat) : Except OsError Disk := do
  let (loc, n) ← d.find true p
  return { d with root := d.root.put loc (n.withMode mode) }

/-- Removes a name; a link goes, and what it leads to stays. -/
def remove (d : Disk) (p : Path) : Except OsError Disk := do
  let (loc, n) ← d.find false p
  if n.isDir then .error .isDirectory else return { d with root := d.root.erase loc }

def endsWithSeparator (p : Path) : Bool := p.text.toList.getLast? == some '/'

/-- Whether a path ends in no name that an entry could have: it is that of the root, or ends in `.` or
`..`. -/
def isNameless (p : Path) : Bool :=
  match ((Path.pieces p.text.toList []).filter (!·.isEmpty)).getLast? with
  | some piece => piece == ['.'] || piece == ['.', '.']
  | none => true

/-- Whether a node may take the place of another. -/
def mayReplace (source target : Location × Node) : Except OsError Unit :=
  match source.2, target.2 with
  | .dir .., .dir _ es => if es.isEmpty then .ok () else .error .notEmpty
  | .dir .., _ => .error .notDirectory
  | _, .dir .. => .error .isDirectory
  | _, _ => .ok ()

/-- Gives a node another name, in place of whatever has it now. -/
def rename (d : Disk) (p q : Path) : Except OsError Disk := do
  let (source, n) ← d.find false p
  if isNameless p || isNameless q then d.resolve false q >>= fun _ => .error .busy
  if !n.isDir && (endsWithSeparator p || endsWithSeparator q) then .error .notDirectory
  let move (target : Location) : Disk :=
    { d with root := (d.root.erase source).put target n }
  match ← d.resolve false q with
  | .node target m =>
    if target == source then return d
    else if source.isPrefixOf target then .error .invalidArgument
    else if target.isPrefixOf source then .error .notEmpty
    else
      mayReplace (source, n) (target, m)
      return move target
  | .free parent name =>
    if source.isPrefixOf parent then .error .invalidArgument else return move (parent ++ [name])

/-- Makes one directory. -/
def makeDir (d : Disk) (p : Path) : Except OsError Disk := do
  let q : Path := ⟨String.ofList (p.text.toList.reverse.dropWhile (· == '/')).reverse⟩
  match ← d.resolve false (if q.text.isEmpty then p else q) with
  | .free parent name =>
    return { d with root := d.root.put (parent ++ [name]) (.dir dirMode []) }
  | .node .. => .error .alreadyExists

/-- A path and the directories above it, as its text names them, the path first. -/
def chain : Nat → Path → List Path
  | 0, p => [p]
  | n + 1, p => match p.parent? with
    | some q => p :: chain n q
    | none => [p]

/-- Makes the first directory of a chain; those behind it are made before it where they are missing. -/
def makeChain (d : Disk) : List Path → Except OsError Unit × Disk
  | [] => (.error .notFound, d)
  | p :: above =>
    if p.text.isEmpty then (.ok (), d)
    else match d.makeDir p with
      | .ok d => (.ok (), d)
      | .error e =>
        if e == .notFound then
          match makeChain d above with
          | (.error e, d) => (.error e, d)
          | (.ok (), d) => match d.makeDir p with
            | .ok d => (.ok (), d)
            | .error e => (if d.isDir p then .ok () else .error e, d)
        else (if d.isDir p then .ok () else .error e, d)

/-- Makes a directory and those above it where they are missing. What could be made stays. -/
def makeDirs (d : Disk) (p : Path) : Except OsError Unit × Disk :=
  d.makeChain (chain p.components.length p)

/-- Resolves a path to an absolute one: without links where it leads to something, by its text
alone where it does not. -/
def absolute (d : Disk) (p : Path) : Path :=
  let q := d.here.join p
  match d.canonical q with
  | .ok c => c
  | .error _ => q.normalize

end Disk

end Codemod
