/-
Rewriting one file on a disk. A file gets its new content by way of a second file beside it, which
takes its place when it is complete; a file whose content stays is not written at all.
-/
import Codemod.Disk.Basic
import Codemod.Run.Record
import Codemod.Text.Utf8

namespace Codemod

open Text

namespace Disk

/-- The name that a file's new content has until it is complete. -/
def tempName (name : String) : String := "." ++ name ++ ".srw-tmp"

/-- Fills the second file and puts it in the place of the first. The disk is given back with what
has been done, also where that fails. -/
def fillAndSwap (d : Disk) (p temp : Path) (mode : Nat) (content : ByteArray) :
    Except OsError Unit × Disk :=
  match d.openFile true temp with
  | .error e => (.error e, d)
  | .ok (loc, d) => match d.append loc content with
    | .error e => (.error e, d)
    | .ok d => match d.sync loc with
      | .error e => (.error e, d)
      | .ok () => match d.setMode temp mode with
        | .error e => (.error e, d)
        | .ok d => match d.rename temp p with
          | .error e => (.error e, d)
          | .ok d => (.ok (), d)

/-- Replaces the content of a file and keeps its permissions. A file that nobody may write is
refused, although its directory would allow it. -/
def replaceFile (d : Disk) (p : Path) (content : ByteArray) : Except Error Unit × Disk :=
  match d.stat p with
  | .error e => (.error (.ofOs p e), d)
  | .ok n =>
    if n.isReadOnly then (.error (.permissionDenied p), d)
    else match p.fileName? with
      | none => (.error (.runtime ("cannot write to " ++ p.text ++ ": no file name")), d)
      | some name =>
        let temp := p.withFileName (tempName name)
        match d.fillAndSwap p temp n.mode content with
        | (.ok (), d) => (.ok (), d)
        | (.error e, d) =>
          let d := match d.remove temp with
            | .ok d => d
            | .error _ => d
          (.error (.ofOs p e), d)

/-- Reads a file as text. -/
def readText (d : Disk) (p : Path) : Except Error String :=
  match d.read p with
  | .error e => .error (.ofOs p e)
  | .ok bytes => match Utf8.decode bytes with
    | .ok text => .ok text
    | .error fault => .error (.decode p fault.message)

end Disk

/-- What a rule set makes of a file's content. -/
def FileRecord.of (p : Path) (text : String) (rules : RuleSet) : FileRecord :=
  let o := rules.apply text
  ⟨p, text, o.content, o.hits, o.failures, false⟩

/-- Reads and rewrites one file, and stores it if it has changed and the run is not a dry one. -/
def rewriteFile (d : Disk) (p : Path) (rules : RuleSet) (dryRun : Bool) :
    Except Error FileRecord × Disk :=
  match d.readText p with
  | .error e => (.error e, d)
  | .ok text =>
    let r := FileRecord.of p text rules
    if r.isModified && !dryRun then
      match d.replaceFile p r.content.toUTF8 with
      | (.ok (), d) => (.ok { r with written := true }, d)
      | (.error e, d) => (.error e, d)
    else (.ok r, d)

end Codemod
