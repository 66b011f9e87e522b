/-
Looking at the settings: where they are, what they say, and whether a run can be made with them.
Unlike a run, which leaves out rules that cannot be used, the check does not accept them.
-/
import Codemod.CommandLine.Reply
import Codemod.Config.Load
import Codemod.Rule.Set

namespace Codemod.CommandLine

open Data

def configPath (s : Surroundings) (o : Options) (d : Disk) : Reply :=
  let path := o.config.getD s.home.configPath
  .ofOutput d (match audience s o with
    | .programs => jsonLine (.table [
      ("command", .text "config path"), ("path", .text path.text),
      ("exists", .bool (d.exists? path))])
    | .people =>
      path.text ++ "\n"
      ++ if d.exists? path then "" else "  (file does not exist; defaults will be used)\n")

def configShow (s : Surroundings) (o : Options) (d : Disk) : Reply :=
  match Config.load d s.home s.settingVars o.config with
  | .error e => .ofError d e
  | .ok c => .ofOutput d (match audience s o with
    | .programs =>
      jsonLine (.table [("command", .text "config show"), ("config", c.toValue)])
    | .people => c.toToml ++ "\n")

/-- What is wrong with settings: as a whole, or with some of the rules. -/
inductive Invalid where
  | whole (e : Error)
  | rules (failures : List RuleFailure)

/-- Settings that can be used, with all their rules. -/
structure Valid where
  config : Config
  rules : RuleSet

def check (s : Surroundings) (o : Options) (d : Disk) : Except Invalid Valid := do
  let config ← (Config.load d s.home s.settingVars o.config).mapError .whole
  let rules ← (RuleSet.ofSpecs config.rules).mapError .whole
  if rules.disabled.isEmpty then return ⟨config, rules⟩ else throw (.rules rules.disabled)

namespace Invalid

def error : Invalid → String
  | whole e => e.message
  | rules _ => "rules failed to compile"

def failures : Invalid → List String
  | whole _ => []
  | rules fs => fs.map fun f => f.ruleId ++ ": " ++ f.reason

/-- Settings are the matter of whoever wrote them, whatever is wrong with them. -/
def failure : Invalid → Failure
  | whole e => ⟨1, "invalid config: " ++ e.message⟩
  | rules fs => ⟨1, s!"invalid config: {fs.length} rule(s) failed to compile"⟩

def toValue (i : Invalid) : Value :=
  .table [
    ("command", .text "config validate"), ("valid", .bool false), ("error", .text i.error),
    ("rule_errors", .list (i.failures.map .text))]

def render (label : String) (i : Invalid) : String :=
  label ++ " " ++ i.error ++ "\n" ++ String.join (i.failures.map fun f => "  " ++ f ++ "\n")

end Invalid

namespace Valid

def toValue (v : Valid) : Value :=
  .table [
    ("command", .text "config validate"), ("valid", .bool true),
    ("path", .text v.config.file.text), ("rules", .nat v.rules.rules.length),
    ("hash", .text v.config.hash)]

def render (label : String) (v : Valid) : String :=
  label ++ "\n  Source: " ++ v.config.file.text ++ s!"\n  Rules: {v.rules.rules.length}"
    ++ "\n  Hash: " ++ v.config.hash ++ "\n"

end Valid

def configValidate (s : Surroundings) (o : Options) (d : Disk) : Reply :=
  match check s o d, audience s o with
  | .ok v, .programs => .ofOutput d (jsonLine v.toValue)
  | .ok v, .people => .ofOutput d (v.render (paint s o .green "Configuration is valid."))
  | .error i, .programs => (Reply.ofOutput d (jsonLine i.toValue)).fail i.failure
  | .error i, .people =>
    let r : Reply := { errors := i.render (paint s o .red "Configuration is INVALID:"), disk := d }
    r.fail i.failure

end Codemod.CommandLine
