/-
What can be asked for on the command line.
-/
import Codemod.Path

namespace Codemod.CommandLine

/-- What goes with every command. -/
structure Options where
  config : Option Path := none
  json : Bool := false
  noColor : Bool := false
  verbose : Bool := false
  quiet : Bool := false
  deriving DecidableEq, Repr

/-- What is given at either of two levels; of two files the inner one counts. -/
def Options.merge (outer inner : Options) : Options where
  config := inner.config.or outer.config
  json := outer.json || inner.json
  noColor := outer.noColor || inner.noColor
  verbose := outer.verbose || inner.verbose
  quiet := outer.quiet || inner.quiet

inductive Shell where
  | bash
  | elvish
  | fish
  | powershell
  | zsh
  deriving DecidableEq, Repr

def Shell.name : Shell → String
  | bash => "bash"
  | elvish => "elvish"
  | fish => "fish"
  | powershell => "powershell"
  | zsh => "zsh"

def Shell.ofName? (s : String) : Option Shell :=
  [Shell.bash, .elvish, .fish, .powershell, .zsh].find? fun x => x.name == s

inductive Command where
  | run (root : Option Path) (dryRun diff : Bool)
  | rules
  | configPath
  | configShow
  | configValidate
  | version
  | completions (shell : Shell)
  deriving DecidableEq, Repr

/-- A command line that was understood. -/
structure Invocation where
  options : Options
  command : Command
  deriving DecidableEq, Repr

/-- Why there is no command to carry out. -/
inductive Halt where
  /-- The arguments make no sense. -/
  | usage
  /-- Help was asked for. -/
  | help
  /-- The version was asked for. -/
  | version
  deriving DecidableEq, Repr

end Codemod.CommandLine
