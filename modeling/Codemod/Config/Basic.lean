/-
Settings: which files a run visits, which it removes, where it logs, and the rules it applies.
-/
import Codemod.Rule.Spec

namespace Codemod

/-- Which files a run visits. -/
structure EngineSettings where
  root : Path := ⟨"."⟩
  /-- Ends of the names of files to rewrite. -/
  extensions : List String := [".ts", ".tsx"]
  /-- Names of directories that are never entered. -/
  excludedDirs : List String := ["node_modules", ".git", "dist", "build"]
  /-- Ends of names that are left out although an extension matches. -/
  excludedSuffixes : List String := [".d.ts"]
  dryRun : Bool := false
  deriving DecidableEq, Repr

structure LoggingSettings where
  enabled : Bool := true
  path : Path
  deriving DecidableEq, Repr

structure Config where
  engine : EngineSettings := {}
  /-- Files that are removed before the others are visited, seen from the root. -/
  deletions : List Path := []
  logging : LoggingSettings
  rules : List RuleSpec := []
  /-- The file that the settings came from, or would have come from. -/
  file : Path := ⟨""⟩
  deriving DecidableEq, Repr

/-- The directory for files of the user's own. -/
structure Home where
  dir : Option String
  deriving DecidableEq, Repr

namespace Home

def path (h : Home) : Path := ⟨h.dir.getD "/tmp"⟩

def logPath (h : Home) : Path := h.path.join ⟨".local/share/srw/activity.jsonl"⟩

def configPath (h : Home) : Path := h.path.join ⟨".config/srw/config.toml"⟩

end Home

namespace Config

def default (home : Home) : Config := { logging := { path := home.logPath } }

/-- The excluded names in order, each once. -/
def excludedSet (c : Config) : List String :=
  (c.engine.excludedDirs.mergeSort fun a b => decide (a ≤ b)).eraseDups

end Config

end Codemod
