/-
Filling a disk with files, and the files in which two disks differ.
-/
import Codemod.Disk.Basic

namespace Codemod.Disk

/-- A disk with a file of this content, and with the directories above it. -/
def withFile (d : Disk) (p : Path) (content : ByteArray) : Disk :=
  let d := match p.parent? with
    | some q => (d.makeDirs q).2
    | none => d
  match d.openFile true p with
  | .error _ => d
  | .ok (loc, d) => match d.append loc content with
    | .ok d => d
    | .error _ => d

mutual

/-- The files of a tree at a place, with their own places. -/
def filesAt (here : Location) : Node → List (Location × ByteArray)
  | .file content _ => [(here, content)]
  | .dir _ es => filesIn here es
  | .link _ | .full => []

def filesIn (here : Location) : List (String × Node) → List (Location × ByteArray)
  | [] => []
  | (name, n) :: es => filesAt (here ++ [name]) n ++ filesIn here es

end

/-- What has become of a file. -/
inductive Change where
  | written (p : Path) (content : ByteArray)
  | removed (p : Path)

/-- What has to be done to the files of the first disk to make them those of the second. -/
def changes (old new : Disk) : List Change :=
  let before := filesAt [] old.root
  let after := filesAt [] new.root
  let find (files : List (Location × ByteArray)) (loc : Location) : Option ByteArray :=
    (files.find? fun f => f.1 == loc).map (·.2)
  (before.filter fun f => (find after f.1).isNone).map (fun f => .removed (pathOf f.1))
  ++ (after.filter fun f => (find before f.1).map (·.data) != some f.2.data).map
    fun f => .written (pathOf f.1) f.2

end Codemod.Disk
