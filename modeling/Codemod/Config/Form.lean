/-
Settings as data: reading them with defaults for what is missing, writing them in full, and the hash
that tells one configuration from another.
-/
import Codemod.Config.Basic
import Codemod.Data.Json
import Codemod.Data.Toml.Writer
import Codemod.Error
import Codemod.Rule.Form

namespace Codemod

open Data Text

namespace EngineSettings

def ofValue? (v : Value) : Option EngineSettings := do
  let es ← v.looseRecord? ["root", "extensions", "excluded_dirs", "excluded_suffixes", "dry_run"]
  let default : EngineSettings := {}
  let texts := Value.list? Value.text?
  return {
    root := ⟨← Value.defaulted es "root" Value.text? default.root.text⟩
    extensions := ← Value.defaulted es "extensions" texts default.extensions
    excludedDirs := ← Value.defaulted es "excluded_dirs" texts default.excludedDirs
    excludedSuffixes := ← Value.defaulted es "excluded_suffixes" texts default.excludedSuffixes
    dryRun := ← Value.defaulted es "dry_run" Value.bool? default.dryRun }

def toValue (s : EngineSettings) : Value :=
  .table [("root", .text s.root.text), ("extensions", .list (s.extensions.map .text)),
    ("excluded_dirs", .list (s.excludedDirs.map .text)),
    ("excluded_suffixes", .list (s.excludedSuffixes.map .text)), ("dry_run", .bool s.dryRun)]

end EngineSettings

namespace LoggingSettings

def ofValue? (default : LoggingSettings) (v : Value) : Option LoggingSettings := do
  let es ← v.looseRecord? ["enabled", "jsonl_path"]
  return {
    enabled := ← Value.defaulted es "enabled" Value.bool? default.enabled
    path := ⟨← Value.defaulted es "jsonl_path" Value.text? default.path.text⟩ }

def toValue (s : LoggingSettings) : Value :=
  .table [("enabled", .bool s.enabled), ("jsonl_path", .text s.path.text)]

end LoggingSettings

namespace Config

def deletionsOfValue? (v : Value) : Option (List Path) := do
  let es ← v.looseRecord? ["paths"]
  let paths ← Value.defaulted es "paths" (Value.list? Value.text?) []
  return paths.map Path.mk

def ofFields? (home : Home) (es : List (String × Value)) : Option Config := do
  let base := Config.default home
  return {
    engine := ← Value.defaulted es "engine" EngineSettings.ofValue? base.engine
    deletions := ← Value.defaulted es "deletion" deletionsOfValue? base.deletions
    logging := ← Value.defaulted es "logging" (LoggingSettings.ofValue? base.logging) base.logging
    rules := ← Value.defaulted es "rules" (Value.list? RuleSpec.ofValue?) base.rules }

def fields (c : Config) : List (String × Value) :=
  [("engine", c.engine.toValue),
    ("deletion", .table [("paths", .list (c.deletions.map fun p => .text p.text))]),
    ("logging", c.logging.toValue), ("rules", .list (c.rules.map RuleSpec.toValue))]

def toValue (c : Config) : Value := .table c.fields

/-- Reads settings without checking them. -/
def ofToml (home : Home) (text : String) : Except Error Config :=
  match Toml.parse? text with
  | none => .error (.configParse "toml" "the text is not well formed\n")
  | some es => match ofFields? home es with
    | none => .error (.configParse "toml" "a field has the wrong type\n")
    | some c => .ok c

def toToml (c : Config) : String := Toml.write c.fields

/-- One byte more in the hash. -/
def hashByte (hash : UInt64) (b : UInt8) : UInt64 := (hash ^^^ b.toUInt64) * 0x100000001b3

/-- Sixteen digits over the settings as data, which depend on nothing else. -/
def hash (c : Config) : String :=
  let n := (Json.write c.toValue).toUTF8.foldl hashByte 0xcbf29ce484222325
  String.ofList (Hex.padded 16 n.toNat)

/-- Whether the settings are the same, wherever they came from. -/
def sameSettings (a b : Config) : Bool :=
  decide (a.engine = b.engine ∧ a.deletions = b.deletions ∧ a.logging = b.logging
    ∧ a.rules = b.rules)

end Config

end Codemod
