/-
What settings have to satisfy before a run may use them.
-/
import Codemod.Config.Basic
import Codemod.Rule.Set
import Codemod.Text.Quoted

namespace Codemod.Config

open Text

def invalid (details : String) : Except Error Unit := .error (.invalidConfig details)

/-- A name that a directory can have, without a separator of any system. -/
def isDirName (name : String) : Bool :=
  !(name.isEmpty || name == "." || name == ".."
    || name.toList.any fun c => c == '/' || c == '\\')

def trimmed (s : String) : String := String.ofList (trim s.toList)

/-- Takes blanks off the entries of lists, and separators off the end of the root. -/
def normalize (c : Config) : Config :=
  let root := c.engine.root.text
  let cs := root.toList.reverse
  let root :=
    if root.utf8ByteSize > 1 && cs.head? == some '/' then
      String.ofList (cs.dropWhile (· == '/')).reverse
    else root
  { c with engine := { c.engine with
      root := ⟨root⟩
      extensions := c.engine.extensions.map trimmed
      excludedDirs := c.engine.excludedDirs.map trimmed
      excludedSuffixes := c.engine.excludedSuffixes.map trimmed } }

def checkDirNames : List String → Except Error Unit
  | [] => .ok ()
  | name :: names =>
    if isDirName name then checkDirNames names
    else invalid ("engine.excluded_dirs entries must be plain directory names, got " ++ quoted name)

/-- Every file to remove lies below the root and in no excluded directory. -/
def checkDeletions (excluded : List String) : List Path → Except Error Unit
  | [] => .ok ()
  | p :: paths =>
    match p.checkBelow with
    | some e => invalid ("deletion path " ++ p.text ++ ": " ++ e.message)
    | none => match p.excludedAncestor? excluded with
      | some name =>
        invalid ("deletion path " ++ p.text ++ " is inside excluded directory " ++ quoted name)
      | none => checkDeletions excluded paths

def check (c : Config) : Except Error Unit := do
  let e := c.engine
  if e.root.text.isEmpty then invalid "engine.root must not be empty"
  if e.extensions.isEmpty then invalid "engine.extensions must not be empty"
  if e.extensions.any String.isEmpty then invalid "engine.extensions contains an empty entry"
  checkDirNames e.excludedDirs
  if e.excludedSuffixes.any String.isEmpty then
    invalid "engine.excluded_suffixes contains an empty entry"
  checkDeletions e.excludedDirs c.deletions
  RuleSet.checkIds [] c.rules
  if c.logging.enabled && c.logging.path.text.isEmpty then
    invalid "logging.jsonl_path must be set when logging is enabled"

end Codemod.Config
