/-
Environment variables that take the place of settings.
-/
import Codemod.Config.Check

namespace Codemod.Config

open Text

/-- The values of environment variables. -/
abbrev Variables := String → Option String

def readBool (name value : String) : Except Error Bool :=
  match trimmed value with
  | "true" => .ok true
  | "false" => .ok false
  | _ => .error (.configParse "env"
      (name ++ "=" ++ quoted value ++ ": provided string was not `true` or `false`"))

/-- Items between commas, without the blank ones. -/
def readList (value : String) : List String :=
  ((value.splitOn ",").map trimmed).filter (!·.isEmpty)

/-- Takes a value from a variable, if it is set. -/
def overrideWith (vars : Variables) (name : String) (read : String → Except Error α) (old : α) :
    Except Error α :=
  match vars name with
  | some value => read value
  | none => .ok old

def override (vars : Variables) (c : Config) : Except Error Config := do
  let path (value : String) : Except Error Path := .ok ⟨value⟩
  let list (value : String) : Except Error (List String) := .ok (readList value)
  let e := c.engine
  let root ← overrideWith vars "SRW_ENGINE_ROOT" path e.root
  let dryRun ← overrideWith vars "SRW_ENGINE_DRY_RUN" (readBool "SRW_ENGINE_DRY_RUN") e.dryRun
  let extensions ← overrideWith vars "SRW_ENGINE_EXTENSIONS" list e.extensions
  let excludedDirs ← overrideWith vars "SRW_ENGINE_EXCLUDED_DIRS" list e.excludedDirs
  let excludedSuffixes ← overrideWith vars "SRW_ENGINE_EXCLUDED_SUFFIXES" list e.excludedSuffixes
  let enabled ←
    overrideWith vars "SRW_LOGGING_ENABLED" (readBool "SRW_LOGGING_ENABLED") c.logging.enabled
  let logPath ← overrideWith vars "SRW_LOGGING_JSONL_PATH" path c.logging.path
  return { c with
    engine := { root, extensions, excludedDirs, excludedSuffixes, dryRun }
    logging := { enabled, path := logPath } }

end Codemod.Config
