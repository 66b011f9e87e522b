/-
What commands say of the rules. The list of the rules, the check of the settings and the summary of a run each compile
the rules of the settings for themselves; they all say of a rule what the set of these rules says (`views_agree`).
-/
import Codemod.CommandLine.Run
import Codemod.CommandLine.Rules
import Codemod.CommandLine.Settings
import Codemod.Proofs.Config.Runnable
import Codemod.Proofs.Rule.Compiled
import Codemod.Proofs.Run.Trace

namespace Codemod

namespace RunRequest

/-- Settings that have been loaded ask for a run with the set of their rules. -/
theorem rules_of_ofConfig {c : Config} {set : RuleSet} (h : RuleSet.ofSpecs c.rules = .ok set) :
    ∃ q, ofConfig c = .ok q ∧ q.rules = set := by
  rw [ofConfig, h]
  exact ⟨_, rfl, rfl⟩

/-- **What a summary lists without a file** are the rules that are off, in their order. -/
theorem ruleErrors_without_path {q : RunRequest} {configHash : String} {duration : Nat} {d : Disk} {s : Summary}
    (h : (q.execute configHash duration d).outcome = .ok s) :
    s.ruleErrors.filter (·.path.isNone) = q.rules.disabled.map fun f => ⟨f.ruleId, none, f.reason⟩ := by
  obtain ⟨-, rs, htrace⟩ := execute_trace h
  have hfiles : (rs.flatMap (Summary.failedRules s.root)).filter (·.path.isNone) = [] := by
    refine List.filter_eq_nil_iff.2 fun f hf => ?_
    obtain ⟨⟨p, r⟩, -, hf⟩ := List.mem_flatMap.1 hf
    cases r with
    | error e => cases hf
    | ok r =>
      obtain ⟨g, -, rfl⟩ := List.mem_map.1 hf
      simp
  rw [htrace.ruleErrors, List.filter_append, hfiles, List.append_nil, List.filter_eq_self]
  intro f hf
  obtain ⟨g, -, rfl⟩ := List.mem_map.1 hf
  rfl

end RunRequest

namespace CommandLine

open Data Text

variable {s : Surroundings} {o : Options} {d : Disk} {c : Config} {set : RuleSet}

/-- The row of a rule, as the set has it. -/
def RuleRow.ofSet (set : RuleSet) (spec : RuleSpec) : RuleRow where
  id := spec.id
  kind := spec.kind
  description := spec.description
  error := (set.disabled.find? (·.ruleId == spec.id)).map fun f => .invalidRule f.ruleId f.reason

theorem RuleRow.ofSpec_eq {specs : List RuleSpec} (h : RuleSet.ofSpecs specs = .ok set) {spec : RuleSpec}
    (hspec : spec ∈ specs) : ofSpec spec = ofSet set spec := by
  rw [ofSpec, ofSet, RuleSet.find?_disabled h hspec, RuleSpec.failure?]
  cases spec.build <;> rfl

/-- What is listed of rows, for whomever it is for. -/
def listing (s : Surroundings) (o : Options) (file : Path) (rows : List RuleRow) : String :=
  match audience s o with
  | .programs =>
    jsonLine (.table [("command", .text "rules"), ("rules", .list (rows.map RuleRow.toValue))])
  | .people =>
    if rows.isEmpty then "No rules configured (" ++ file.text ++ ").\n"
    else RuleRow.render (paint s o .red "error:") rows

theorem rules_eq (hload : Config.load d s.home s.settingVars o.config = .ok c)
    (hset : RuleSet.ofSpecs c.rules = .ok set) :
    rules s o d = .ofOutput d (listing s o c.file (c.rules.map (RuleRow.ofSet set))) := by
  have hrows : c.rules.map RuleRow.ofSpec = c.rules.map (RuleRow.ofSet set) :=
    List.map_congr_left fun _ hspec => RuleRow.ofSpec_eq hset hspec
  rw [rules, hload, ← hrows]
  rfl

theorem check_eq (hload : Config.load d s.home s.settingVars o.config = .ok c)
    (hset : RuleSet.ofSpecs c.rules = .ok set) :
    check s o d = if set.disabled.isEmpty then .ok ⟨c, set⟩ else .error (.rules set.disabled) := by
  rw [check, hload]
  simp only [Except.mapError, bind, Except.bind, hset]
  rfl

/-- The check succeeds if no rule is off. -/
theorem configValidate_status (hload : Config.load d s.home s.settingVars o.config = .ok c)
    (hset : RuleSet.ofSpecs c.rules = .ok set) : (configValidate s o d).status = 0 ↔ set.disabled = [] := by
  rw [configValidate, check_eq hload hset]
  cases hdisabled : set.disabled with
  | nil => cases audience s o <;> simp [Reply.ofOutput]
  | cons f fs => cases audience s o <;> simp [Reply.fail, Invalid.failure]

theorem runSettings_eq (hload : Config.load d s.home s.settingVars o.config = .ok c) (root : Option Path)
    (dryRun : Bool) : runSettings s o root dryRun d = .ok { c with
      engine.root := root.getD c.engine.root
      engine.dryRun := c.engine.dryRun || dryRun } := by
  rw [runSettings, hload]
  rfl

/-- **What is said of the rules agrees.** A list of specs makes a set unless one of them has no id or two have the
same; the specs that compile and those that do not are then its rules and the rules that are off, each in the order of
the list. All that commands say of the rules of settings that can be loaded comes from the set of these rules: in the
list of the rules, those that are off are the ones that are not in order; the check of the settings succeeds if none
is off; and those that are off are what the summary of a run lists without a file. -/
theorem views_agree :
    (∀ specs : List RuleSpec,
      ((∃ e, RuleSet.ofSpecs specs = .error e)
        ↔ (∃ spec ∈ specs, isBlankText spec.id = true) ∨ ¬ (specs.map RuleSpec.id).Nodup)
      ∧ ∀ set, RuleSet.ofSpecs specs = .ok set →
        set.rules.map Rule.id = (specs.filter (·.compiles)).map RuleSpec.id
        ∧ set.disabled.map (·.ruleId) = (specs.filter (!·.compiles)).map RuleSpec.id
        ∧ (set.rules.map Rule.id ++ set.disabled.map (·.ruleId)).Perm (specs.map RuleSpec.id)
        ∧ ∀ spec ∈ specs, spec.id ∈ set.disabled.map (·.ruleId) ↔ ∃ e, spec.build = .error e)
    ∧ ∀ s o d c, Config.load d s.home s.settingVars o.config = .ok c →
      ∃ set, RuleSet.ofSpecs c.rules = .ok set
        ∧ rules s o d = .ofOutput d (listing s o c.file (c.rules.map (RuleRow.ofSet set)))
        ∧ (∀ spec ∈ c.rules, (RuleRow.ofSet set spec).error.isNone = false ↔ spec.id ∈ set.disabled.map (·.ruleId))
        ∧ ((configValidate s o d).status = 0 ↔ set.disabled = [])
        ∧ ∀ root dryRun, ∃ c' q, runSettings s o root dryRun d = .ok c' ∧ RunRequest.ofConfig c' = .ok q
          ∧ ∀ hash duration e summary, (q.execute hash duration e).outcome = .ok summary →
            summary.ruleErrors.filter (·.path.isNone) = set.disabled.map fun f => ⟨f.ruleId, none, f.reason⟩ := by
  refine ⟨fun specs => ⟨RuleSet.ofSpecs_eq_error_iff, fun set hset => ⟨RuleSet.rule_ids hset,
    RuleSet.disabled_ids hset, RuleSet.ids_perm hset, fun _ => RuleSet.mem_disabled_iff hset⟩⟩, ?_⟩
  intro s o d c hload
  obtain ⟨-, -, hchecked⟩ := Config.Loaded.of_load hload
  obtain ⟨-, q, hq, -⟩ := (Config.check_iff c).1 hchecked
  obtain ⟨set, hset, -⟩ := exists_of_bind hq
  refine ⟨set, hset, rules_eq hload hset, fun spec _ => ?_, configValidate_status hload hset, fun root dryRun => ?_⟩
  · rw [RuleRow.ofSet, Option.isNone_map, Option.isNone_eq_false_iff, List.find?_isSome]
    simp
  · obtain ⟨q, hq, hrules⟩ := RunRequest.rules_of_ofConfig (c := { c with
      engine.root := root.getD c.engine.root
      engine.dryRun := c.engine.dryRun || dryRun }) hset
    refine ⟨_, q, runSettings_eq hload root dryRun, hq, fun hash duration e summary h => ?_⟩
    rw [RunRequest.ruleErrors_without_path h, hrules]

section Sample

open Config

/-- Two rules, one of which has nothing to look for. -/
def halfText : String :=
  "[[rules]]\nkind = 'literal'\nid = 'a'\nneedle = 'x'\n[[rules]]\nkind = 'literal'\nid = 'b'\nneedle = ''\n"

def half : Config where
  logging := { path := ⟨"/home/.local/share/srw/activity.jsonl"⟩ }
  rules := [⟨"a", "", .literal "x" (.text "")⟩, ⟨"b", "", .literal "" (.text "")⟩]
  file := ⟨"c"⟩

def halfSurroundings : Surroundings where
  vars := fun name => if name == "HOME" then some "/home" else none
  time := ""

def halfOptions : Options := { config := some ⟨"c"⟩ }

theorem load_half : load (fileDisk halfText) halfSurroundings.home halfSurroundings.settingVars halfOptions.config
    = .ok half := by
  rw [halfOptions, load_of_read (read_fileDisk halfText)]
  decide +kernel

/-- The one rule is used and the other is off, as the list shows and the check complains of. -/
theorem views_agree_half : ∃ set, RuleSet.ofSpecs half.rules = .ok set
    ∧ set.rules.map Rule.id = ["a"] ∧ set.disabled.map (·.ruleId) = ["b"]
    ∧ (half.rules.map fun spec => (RuleRow.ofSet set spec).error.isNone) = [true, false]
    ∧ (configValidate halfSurroundings halfOptions (fileDisk halfText)).status ≠ 0 := by
  obtain ⟨hspecs, hviews⟩ := views_agree
  obtain ⟨set, hset, -, hmarks, hvalid, -⟩ := hviews _ _ _ _ load_half
  obtain ⟨hrules, hoff, -⟩ := (hspecs half.rules).2 set hset
  have hdisabled : set.disabled.map (·.ruleId) = ["b"] := hoff.trans (by decide)
  have hmarked (spec : RuleSpec) (hspec : spec ∈ half.rules) :
      (RuleRow.ofSet set spec).error.isNone = decide (spec.id ≠ "b") := by
    have hmark := hmarks spec hspec
    rw [hdisabled, List.mem_singleton] at hmark
    rw [Bool.eq_iff_iff, ← Bool.not_eq_false, hmark, decide_eq_true_iff]
  refine ⟨set, hset, hrules.trans (by decide), hdisabled, ?_, fun h => ?_⟩
  · rw [List.map_congr_left hmarked]
    decide
  · rw [hvalid.1 h] at hdisabled
    cases hdisabled

end Sample

end CommandLine

end Codemod
