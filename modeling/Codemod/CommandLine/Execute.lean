/-
Carrying out a command line.
-/
import Codemod.CommandLine.Arguments
import Codemod.CommandLine.Help
import Codemod.CommandLine.Rules
import Codemod.CommandLine.Run
import Codemod.CommandLine.Settings

namespace Codemod.CommandLine

def Invocation.execute (i : Invocation) (s : Surroundings) (d : Disk) : Reply :=
  match i.command with
  | .run root dryRun diff => run s i.options root dryRun diff d
  | .rules => rules s i.options d
  | .configPath => configPath s i.options d
  | .configShow => configShow s i.options d
  | .configValidate => configValidate s i.options d
  | .version => showVersion s i.options d
  | .completions shell => .ofOutput d (completions shell)

/-- What is printed where there is no command to carry out. -/
def Halt.reply (d : Disk) : Halt → Reply
  | .usage => { status := 2, errors := usageText, disk := d }
  | .help => .ofOutput d helpText
  | .version => .ofOutput d versionLine

/-- Reads the arguments and does what they say. -/
def execute (args : List String) (s : Surroundings) (d : Disk) : Reply :=
  match parse args with
  | .ok i => i.execute s d
  | .error h => h.reply d

end Codemod.CommandLine
