/-
What a command leaves: its status, what it printed, and the disk. A command prints for people or for
programs; the latter get one line of JSON with the keys in order.
-/
import Codemod.CommandLine.Basic
import Codemod.Config.Override
import Codemod.Data.Json
import Codemod.Disk.Basic
import Codemod.Text.Blank

namespace Codemod.CommandLine

open Data Text

/-- What a command finds around it. -/
structure Surroundings where
  /-- The environment variables. -/
  vars : Config.Variables
  /-- Whether the output goes to a terminal. -/
  terminal : Bool := false
  /-- The time of what is logged, as a text. -/
  time : String
  /-- How many milliseconds a run takes. -/
  duration : Nat := 0

namespace Surroundings

def home (s : Surroundings) : Home := ⟨s.vars "HOME"⟩

/-- The variables that settings look at: a blank one counts as missing. -/
def settingVars (s : Surroundings) : Config.Variables := fun name =>
  (s.vars name).filter fun value => !isBlankText value

end Surroundings

/-- Whom the output is for. -/
inductive Audience where
  | people
  | programs
  deriving DecidableEq, Repr

def audience (s : Surroundings) (o : Options) : Audience :=
  let usual := if s.terminal then .people else .programs
  if o.json then .programs
  else match (s.vars "SRW_OUTPUT_FORMAT").map fun f => (Config.trimmed f).map Char.toLower with
    | some "json" => .programs
    | some "human" => .people
    | _ => usual

inductive Color where
  | red
  | green
  | yellow
  deriving DecidableEq, Repr

def Color.code : Color → String
  | red => "31"
  | green => "32"
  | yellow => "33"

/-- Whether the output has colors: if they are forced, or on a terminal unless they are unwanted. -/
def hasColor (s : Surroundings) (o : Options) : Bool :=
  let on (value : Option String) (missing : Bool) := (value.map (· != "0")).getD missing
  if o.noColor then false
  else if on (s.vars "CLICOLOR_FORCE") false then true
  else if (s.vars "NO_COLOR").isSome then false
  else s.terminal && on (s.vars "CLICOLOR") true

def paint (s : Surroundings) (o : Options) (c : Color) (text : String) : String :=
  if hasColor s o then "\x1b[" ++ c.code ++ "m" ++ text ++ "\x1b[0m" else text

structure Reply where
  status : Nat := 0
  output : String := ""
  errors : String := ""
  disk : Disk

/-- Why a command was not carried out, and the status that tells so. -/
structure Failure where
  status : Nat
  message : String
  deriving DecidableEq, Repr

/-- Errors of whoever wrote the settings have the status 1, faults of the program itself 3. -/
def Failure.ofError (e : Error) : Failure :=
  let status := match e with
    | .invalidConfig _ | .missingConfig _ | .configParse .. | .invalidRule .. | .duplicateRule _ => 1
    | .serialization .. => 3
    | _ => 2
  ⟨status, e.message⟩

namespace Reply

def ofOutput (d : Disk) (output : String) : Reply := { output, disk := d }

def fail (r : Reply) (f : Failure) : Reply :=
  { r with status := f.status, errors := r.errors ++ "srw: " ++ f.message ++ "\n" }

def ofError (d : Disk) (e : Error) : Reply := ({ disk := d } : Reply).fail (.ofError e)

end Reply

def jsonLine (v : Value) : String := Json.write v.sorted ++ "\n"

end Codemod.CommandLine
