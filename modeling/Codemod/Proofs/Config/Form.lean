/-
Settings that are shown as TOML are read back (`ofToml_toToml`): every section is written, so no default counts, not
even that of the home directory. Settings that were loaded have no number that TOML has no room for.
-/
import Codemod.Config.Form
import Codemod.Proofs.Rule.Form

namespace Codemod

open Data Toml

variable {room : Nat}

/-! ## Sections -/

namespace EngineSettings

/-- The section as fields. -/
def entries (s : EngineSettings) : List (String × Value) :=
  [("root", .text s.root.text), ("extensions", .list (s.extensions.map .text)),
    ("excluded_dirs", .list (s.excludedDirs.map .text)),
    ("excluded_suffixes", .list (s.excludedSuffixes.map .text)), ("dry_run", .bool s.dryRun)]

theorem nodup_entries (s : EngineSettings) : (s.entries.map Prod.fst).Nodup := by simp [entries]

theorem writable (s : EngineSettings) : Writable (room + 1) s.entries := by
  refine .of_fields s.nodup_entries ?_
  simp only [entries, List.forall_mem_cons]
  exact ⟨field_text (by decide) _, field_texts (by decide) _, field_texts (by decide) _, field_texts (by decide) _,
    field_bool (by decide) _, List.forall_mem_nil _⟩

theorem ofValue?_restored (s : EngineSettings) : ofValue? (.table (restored s.entries)) = some s := by
  have hfind := finds_restored s.nodup_entries
  have htexts (key : String) (items : List String) (hmem : (key, .list (items.map .text)) ∈ s.entries)
      (default : List String) :
      Value.defaulted (restored s.entries) key (Value.list? Value.text?) default = some items :=
    hfind.textsOr hmem default
  have hroot (default : String) : Value.defaulted (restored s.entries) "root" Value.text? default = some s.root.text :=
    hfind.textOr (by simp [entries]) default
  have hextensions := htexts "extensions" s.extensions (by simp [entries])
  have hdirs := htexts "excluded_dirs" s.excludedDirs (by simp [entries])
  have hsuffixes := htexts "excluded_suffixes" s.excludedSuffixes (by simp [entries])
  have hdry (default : Bool) : Value.defaulted (restored s.entries) "dry_run" Value.bool? default = some s.dryRun :=
    hfind.boolOr (by simp [entries]) default
  simp [ofValue?, Value.looseRecord?, Value.record?, hroot, hextensions, hdirs, hsuffixes, hdry]

end EngineSettings

namespace LoggingSettings

def entries (s : LoggingSettings) : List (String × Value) :=
  [("enabled", .bool s.enabled), ("jsonl_path", .text s.path.text)]

theorem nodup_entries (s : LoggingSettings) : (s.entries.map Prod.fst).Nodup := by simp [entries]

theorem writable (s : LoggingSettings) : Writable (room + 1) s.entries := by
  refine .of_fields s.nodup_entries ?_
  simp only [entries, List.forall_mem_cons]
  exact ⟨field_bool (by decide) _, field_text (by decide) _, List.forall_mem_nil _⟩

theorem ofValue?_restored (default s : LoggingSettings) : ofValue? default (.table (restored s.entries)) = some s := by
  have hfind := finds_restored s.nodup_entries
  have henabled : Value.defaulted (restored s.entries) "enabled" Value.bool? default.enabled = some s.enabled :=
    hfind.boolOr (by simp [entries]) _
  have hpath : Value.defaulted (restored s.entries) "jsonl_path" Value.text? default.path.text = some s.path.text :=
    hfind.textOr (by simp [entries]) _
  simp [ofValue?, Value.looseRecord?, Value.record?, henabled, hpath]

end LoggingSettings

namespace Config

variable {c : Config} {home : Home}

def deletionEntries (paths : List Path) : List (String × Value) :=
  [("paths", .list (paths.map fun p => .text p.text))]

theorem nodup_deletionEntries (paths : List Path) : ((deletionEntries paths).map Prod.fst).Nodup := by
  simp [deletionEntries]

theorem writable_deletions (paths : List Path) : Writable (room + 1) (deletionEntries paths) := by
  refine .of_fields (nodup_deletionEntries paths) ?_
  exact List.forall_mem_cons.2 ⟨field_list (by decide) (fun _ => rfl) fun p _ _ => .text p.text, List.forall_mem_nil _⟩

theorem deletionsOfValue?_restored (paths : List Path) :
    deletionsOfValue? (.table (restored (deletionEntries paths))) = some paths := by
  have htexts : Value.defaulted (restored (deletionEntries paths)) "paths" (Value.list? Value.text?) []
      = some (paths.map Path.text) := by
    refine (finds_restored (nodup_deletionEntries paths)).textsOr ?_ []
    simp [deletionEntries]
  simp [deletionsOfValue?, Value.looseRecord?, Value.record?, htexts, List.map_map, Function.comp_def]

/-! ## Settings -/

/-- Settings that can be written: no rule has too large a number. -/
def Narrow (c : Config) : Prop := ∀ s ∈ c.rules, s.Narrow

theorem nodup_fields (c : Config) : (c.fields.map Prod.fst).Nodup := by simp [fields]

theorem writable (h : c.Narrow) : Writable 3 c.fields := by
  refine .of_fields c.nodup_fields ?_
  simp only [fields, List.forall_mem_cons]
  exact ⟨field_table (by decide) c.engine.writable, field_table (by decide) (writable_deletions c.deletions),
    field_table (by decide) c.logging.writable, field_tables (by decide) fun s hs => RuleSpec.writable (h s hs),
    List.forall_mem_nil _⟩

/-- Settings come back from the fields that they are written as. -/
theorem ofFields?_restored (h : c.Narrow) (home : Home) :
    ofFields? home (restored c.fields) = some { c with file := ⟨""⟩ } := by
  have hfind := finds_restored c.nodup_fields
  have hengine (default : EngineSettings) :
      Value.defaulted (restored c.fields) "engine" EngineSettings.ofValue? default = some c.engine :=
    hfind.defaulted (v := c.engine.toValue) (by simp [fields]) rfl c.engine.ofValue?_restored default
  have hdeletions (default : List Path) :
      Value.defaulted (restored c.fields) "deletion" deletionsOfValue? default = some c.deletions :=
    hfind.defaulted (v := .table (deletionEntries c.deletions)) (by simp [fields, deletionEntries]) rfl
      (deletionsOfValue?_restored c.deletions) default
  have hlogging (base default : LoggingSettings) :
      Value.defaulted (restored c.fields) "logging" (LoggingSettings.ofValue? base) default = some c.logging :=
    hfind.defaulted (v := c.logging.toValue) (by simp [fields]) rfl (LoggingSettings.ofValue?_restored base c.logging) default
  have hrules (default : List RuleSpec) :
      Value.defaulted (restored c.fields) "rules" (Value.list? RuleSpec.ofValue?) default = some c.rules :=
    hfind.defaulted (v := .list (c.rules.map RuleSpec.toValue)) (by simp [fields])
      (kept_tables RuleSpec.fields c.rules)
      (Value.list?_map fun s hs => RuleSpec.ofValue?_restored (h s hs)) default
  simp [ofFields?, hengine, hdeletions, hlogging, hrules]

/-- **Settings that are shown are read back**, in whatever home. -/
theorem ofToml_toToml (h : c.Narrow) (home : Home) : ofToml home c.toToml = .ok { c with file := ⟨""⟩ } := by
  have hparse : parse? (write c.fields) = some (restored c.fields) :=
    parse_write (writable h) (by decide)
  rw [ofToml, toToml, hparse]
  simp only [ofFields?_restored h home]

/-- Settings that were read can be written again. -/
theorem narrow_of_ofToml {text : String} (h : ofToml home text = .ok c) : c.Narrow := by
  rw [ofToml] at h
  split at h
  · cases h
  · next es hparse =>
    split at h
    · cases h
    · next base hbase =>
      obtain rfl := Except.ok.inj h
      simp only [ofFields?, Option.bind_eq_bind, Option.bind_eq_some_iff] at hbase
      obtain ⟨engine, -, deletions, -, logging, -, rules, hrules, hc⟩ := hbase
      obtain rfl := Option.some.inj hc
      have hes : ∀ e ∈ es, Bounded e.2 := by
        cases bounded_of_parse hparse with
        | table hes => exact hes
      rw [Value.defaulted] at hrules
      split at hrules
      · next v hfound =>
        obtain ⟨items, rfl, hitems⟩ := Value.exists_of_list? hrules
        intro s hs
        obtain ⟨w, hw, hread⟩ := hitems s hs
        cases bounded_lookup hes hfound with
        | list hall => exact RuleSpec.narrow_of_value (hall w hw) hread
      · obtain rfl := Option.some.inj hrules
        exact List.forall_mem_nil _

end Config

end Codemod
