/-
Texts about the program itself: help, completions for shells, and the version.
-/
import Codemod.CommandLine.Reply
import Codemod.Log.Event

namespace Codemod.CommandLine

open Data

def usageText : String := "usage: srw [OPTIONS] <COMMAND>\n"

def helpText : String :=
  "Source Rewriter - pattern-driven tree-wide rewrites\n\n" ++ usageText
  ++ "\nCommands:\n"
  ++ "  run [ROOT] [--dry-run] [--diff]   delete listed files, then rewrite the files below a root\n"
  ++ "  rules                             list the rules and whether each can be used\n"
  ++ "  config [path | show | validate]   look at the settings\n"
  ++ "  version [--verbose]               print the version\n"
  ++ "  completions <SHELL>               print completions for a shell\n"
  ++ "  help                              print this text\n"
  ++ "\nOptions:\n"
  ++ "  --config <PATH>   take the settings from a file\n"
  ++ "  --json            print JSON\n"
  ++ "  --no-color        print without colors\n"
  ++ "  -v, --verbose     say more\n"
  ++ "  -q, --quiet       print errors only\n"
  ++ "  -h, --help        print this text\n"
  ++ "  -V, --version     print the version\n"

/-- The names of the commands, for completion. -/
def commandNames : String := "run rules config version completions help"

/-- A script that completes the names of the commands. -/
def completions : Shell → String
  | .bash => "complete -W '" ++ commandNames ++ "' srw\n"
  | .elvish =>
    "set edit:completion:arg-completer[srw] = \x7b|@words| put " ++ commandNames ++ " \x7d\n"
  | .fish => "complete -c srw -f -a '" ++ commandNames ++ "'\n"
  | .powershell =>
    "Register-ArgumentCompleter -Native -CommandName srw -ScriptBlock \x7b '" ++ commandNames
      ++ "' -split ' ' \x7d\n"
  | .zsh => "#compdef srw\ncompadd " ++ commandNames ++ "\n"

def versionLine : String := "srw " ++ version ++ "\n"

def package : String := "source_rewriter"

/-- How the program was built: the target, the profile and the revision, which nobody has noted. -/
def buildNotes : List (String × String) :=
  [("target", "unknown"), ("profile", "unknown"), ("git_sha", "unknown")]

def versionValue : Value :=
  .table [
    ("binary", .text "srw"), ("version", .text version), ("package", .text package),
    ("build", .table (buildNotes.map fun (k, v) => (k, .text v)))]

def showVersion (s : Surroundings) (o : Options) (d : Disk) : Reply :=
  .ofOutput d (match audience s o with
    | .programs => jsonLine versionValue
    | .people =>
      let notes := ("package", package) :: buildNotes
      versionLine
        ++ if o.verbose then String.join (notes.map fun (k, v) => k ++ ": " ++ v ++ "\n") else "")

end Codemod.CommandLine
