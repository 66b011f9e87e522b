/-
Reading the arguments of a command line. A command and the commands below it each have a level of
their own, at which a flag may be given once; what goes with every command may be given at any
level. An argument that asks for help ends the reading where it stands.
-/
import Codemod.CommandLine.Basic

namespace Codemod.CommandLine

/-- What is given with leading dashes. -/
inductive Flag where
  | config
  | json
  | noColor
  | verbose
  | quiet
  | dryRun
  | diff
  | help
  | version
  deriving DecidableEq, Repr

def Flag.name : Flag → String
  | config => "config"
  | json => "json"
  | noColor => "no-color"
  | verbose => "verbose"
  | quiet => "quiet"
  | dryRun => "dry-run"
  | diff => "diff"
  | help => "help"
  | version => "version"

/-- What may be given at one place of a command line. -/
structure Level where
  flags : List Flag
  /-- Flags that may be given by one letter. -/
  letters : List (Char × Flag)
  /-- The commands that may follow. -/
  commands : List String := []
  /-- The values that an operand may have, if one is allowed. -/
  operand : Option (String → Bool) := none

/-- Something whose value is not settled before the next argument is seen. -/
inductive Pending where
  | nothing
  /-- The name of a file has to follow. -/
  | configName
  | config (value : String)
  | operand (value : String)
  deriving DecidableEq, Repr

/-- What was given at a level so far. -/
structure Given where
  flags : List Flag := []
  config : Option String := none
  operand : Option String := none
  pending : Pending := .nothing
  deriving DecidableEq, Repr

namespace Given

def hasOperand (g : Given) : Bool :=
  match g.pending with
  | .operand _ => true
  | _ => g.operand.isSome

def options (g : Given) : Options where
  config := g.config.map Path.mk
  json := g.flags.contains .json
  noColor := g.flags.contains .noColor
  verbose := g.flags.contains .verbose
  quiet := g.flags.contains .quiet

end Given

namespace Level

/-- Takes over what was pending. The name of a file is given once and is not empty. -/
def settle (lv : Level) (g : Given) : Except Halt Given :=
  match g.pending with
  | .nothing => .ok g
  | .configName => .error .usage
  | .config value =>
    if value.isEmpty || g.config.isSome then .error .usage
    else .ok { g with config := some value, pending := .nothing }
  | .operand value =>
    if (lv.operand.map fun accepts => accepts value).getD false then
      .ok { g with operand := some value, pending := .nothing }
    else .error .usage

/-- A flag without a value. -/
def raise (lv : Level) (f : Flag) (g : Given) : Except Halt Given := do
  let g ← lv.settle g
  match f with
  | .help => .error .help
  | .version => .error .version
  | .config => return { g with pending := .configName }
  | f => if g.flags.contains f then .error .usage else return { g with flags := f :: g.flags }

/-- A flag by its name, with or without a value; only the name of a file is a value. -/
def long (lv : Level) (name : String) (value : Option String) (g : Given) : Except Halt Given :=
  match lv.flags.find? fun f => f.name == name, value with
  | none, _ => .error .usage
  | some f, none => lv.raise f g
  | some .config, some value => do
    let g ← lv.settle g
    lv.settle { g with pending := .config value }
  | some _, some _ => .error .usage

/-- Flags by their letters, one after the other. -/
def short (lv : Level) : List Char → Given → Except Halt Given
  | [], g => .ok g
  | c :: cs, g =>
    match lv.letters.find? fun l => l.1 == c with
    | none => .error .usage
    | some (_, f) => do lv.short cs (← lv.raise f g)

/-- An argument that is neither a flag nor a command. -/
def value (lv : Level) (arg : String) (g : Given) : Except Halt Given :=
  if g.pending = .configName then .ok { g with pending := .config arg }
  else if lv.operand.isNone || g.hasOperand then .error .usage
  else do
    let g ← lv.settle g
    return { g with pending := .operand arg }

/-- Behind `--` there are only operands. -/
def operands (lv : Level) : List String → Given → Except Halt Given
  | [], g => .ok g
  | arg :: args, g =>
    if lv.operand.isNone || g.hasOperand then .error .usage
    else do
      let g ← lv.settle g
      lv.operands args { g with pending := .operand arg }

/-- Reads what is given at a level, up to a command and the arguments behind it, or up to the end. -/
def read (lv : Level) : List String → Given → Except Halt (Given × Option (String × List String))
  | [], g => .ok (g, none)
  | arg :: args, g =>
    if g.pending ≠ .configName && lv.commands.contains arg then .ok (g, some (arg, args))
    else match arg.toList with
      | ['-', '-'] => do return (← lv.operands args g, none)
      | '-' :: '-' :: cs => do
        let name := String.ofList (cs.takeWhile (· != '='))
        let value := match cs.dropWhile (· != '=') with
          | _ :: v => some (String.ofList v)
          | [] => none
        lv.read args (← lv.long name value g)
      | '-' :: c :: cs => do lv.read args (← lv.short (c :: cs) g)
      | _ => do lv.read args (← lv.value arg g)

/-- Ends a level: what goes with `--quiet` does not go with `--verbose`. -/
def close (lv : Level) (g : Given) : Except Halt Given := do
  let g ← lv.settle g
  if g.flags.contains .verbose && g.flags.contains .quiet then .error .usage else return g

/-- Reads a level that no command follows. -/
def readLast (lv : Level) (args : List String) : Except Halt Given := do
  let (g, next) ← lv.read args {}
  match next with
  | none => lv.close g
  | some _ => .error .usage

end Level

/-! ## The commands -/

def commonFlags : List Flag := [.config, .json, .noColor, .verbose, .quiet, .help]

def commonLetters : List (Char × Flag) := [('v', .verbose), ('q', .quiet), ('h', .help)]

def topLevel : Level where
  flags := .version :: commonFlags
  letters := ('V', .version) :: commonLetters
  commands := ["run", "rules", "config", "version", "completions", "help"]

def plainLevel : Level where
  flags := commonFlags
  letters := commonLetters

def runLevel : Level :=
  { plainLevel with
    flags := .dryRun :: .diff :: commonFlags
    operand := some fun root => !root.isEmpty }

def configLevel : Level := { plainLevel with commands := ["path", "show", "validate", "help"] }

/-- The flag for details has no letter here. -/
def versionLevel : Level := { plainLevel with letters := [('q', .quiet), ('h', .help)] }

def completionsLevel : Level :=
  { plainLevel with operand := some fun shell => (Shell.ofName? shell).isSome }

/-- Help on a command, or on a command below another one. -/
def helpOn (path : List String) : Halt :=
  match path with
  | [] => .help
  | [name] => if topLevel.commands.contains name then .help else .usage
  | ["config", name] => if configLevel.commands.contains name then .help else .usage
  | _ => .usage

def readConfig (args : List String) : Except Halt (Command × Options) := do
  let (g, next) ← configLevel.read args {}
  match next with
  | none => return (.configPath, (← configLevel.close g).options)
  | some ("help", path) => .error (helpOn ("config" :: path))
  | some (name, args) =>
    let inner ← plainLevel.readLast args
    let g ← configLevel.close g
    let command := match name with
      | "show" => .configShow
      | "validate" => .configValidate
      | _ => .configPath
    return (command, g.options.merge inner.options)

/-- Reads what follows the name of a command. -/
def readCommand (name : String) (args : List String) : Except Halt (Command × Options) :=
  match name with
  | "run" => do
    let g ← runLevel.readLast args
    return (.run (g.operand.map Path.mk) (g.flags.contains .dryRun) (g.flags.contains .diff),
      g.options)
  | "rules" => do return (.rules, (← plainLevel.readLast args).options)
  | "config" => readConfig args
  | "version" => do return (.version, (← versionLevel.readLast args).options)
  | "completions" => do
    let g ← completionsLevel.readLast args
    match g.operand.bind Shell.ofName? with
    | some shell => return (.completions shell, g.options)
    | none => .error .usage
  | _ => .error (helpOn args)

/-- Reads the arguments of a command line. -/
def parse (args : List String) : Except Halt Invocation := do
  let (g, next) ← topLevel.read args {}
  match next with
  | none => .error .usage
  | some (name, args) =>
    let (command, options) ← readCommand name args
    let g ← topLevel.close g
    return ⟨g.options.merge options, command⟩

end Codemod.CommandLine
