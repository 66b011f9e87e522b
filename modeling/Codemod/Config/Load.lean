/-
Loading settings from a file. A file that was asked for has to be there; without one at the usual
place the defaults hold.
-/
import Codemod.Config.Form
import Codemod.Config.Override
import Codemod.Disk.Basic
import Codemod.Text.Utf8

namespace Codemod.Config

open Text

def notText : OsError := .plain false "stream did not contain valid UTF-8"

def readText (d : Disk) (p : Path) : Except Error String :=
  match d.read p with
  | .error e => .error (.ofOs p e)
  | .ok bytes => match Utf8.decode bytes with
    | .ok text => .ok text
    | .error _ => .error (.ofOs p notText)

/-- Reads, overrides, normalizes and checks. -/
def load (d : Disk) (home : Home) (vars : Variables) (asked : Option Path) :
    Except Error Config := do
  let path := asked.getD home.configPath
  let base ←
    if d.exists? path then do ofToml home (← readText d path)
    else if asked.isSome then .error (.missingConfig path)
    else .ok (Config.default home)
  let c ← override vars { base with file := path }
  let c := normalize c
  check c
  return c

end Codemod.Config
