/-
Settings that have been loaded can be run. The checks that settings have to pass are those that a run makes again:
rules that have ids of their own, and entries to remove that are no fault by their text (`check_iff`). The excluded
names count as a list for the one and as a set for the other, which makes no difference (`textFault?_excludedSet`).
-/
import Codemod.Proofs.Config.Load
import Codemod.Proofs.Rule.Compiled
import Codemod.Proofs.Run.Refusals
import Codemod.Proofs.Run.Refused
import Codemod.Run.Basic

namespace Codemod.Config

open Text

variable {c : Config} {d : Disk} {home : Home} {vars : Variables}

/-- What settings have to satisfy by themselves. -/
structure Fit (c : Config) : Prop where
  root : c.engine.root.text ≠ ""
  extensions : c.engine.extensions ≠ []
  filled : ∀ s ∈ c.engine.extensions ++ c.engine.excludedSuffixes, s ≠ ""
  names : ∀ name ∈ c.engine.excludedDirs, isDirName name = true
  log : c.logging.enabled = true → c.logging.path.text ≠ ""

/-! ## Checks -/

theorem checkDirNames_iff {names : List String} :
    checkDirNames names = .ok () ↔ ∀ name ∈ names, isDirName name = true := by
  induction names with
  | nil => simp [checkDirNames]
  | cons name names ih =>
    rw [checkDirNames]
    cases hname : isDirName name <;> simp [hname, ih, invalid]

/-- **The entries that pass the check** are those whose text is no fault. -/
theorem checkDeletions_iff {excluded : List String} {paths : List Path} :
    checkDeletions excluded paths = .ok () ↔ ∀ p ∈ paths, Deletion.textFault? excluded p = none := by
  induction paths with
  | nil => simp [checkDeletions]
  | cons p paths ih =>
    rw [checkDeletions, List.forall_mem_cons, Deletion.textFault?]
    cases hbelow : p.checkBelow with
    | some e => simp [invalid]
    | none => cases hancestor : p.excludedAncestor? excluded <;> simp [ih, invalid]

/-- Names in another order, each once, exclude the same. -/
theorem textFault?_excludedSet (c : Config) (p : Path) :
    Deletion.textFault? c.excludedSet p = Deletion.textFault? c.engine.excludedDirs p := by
  have hmem (name : String) : c.excludedSet.contains name = c.engine.excludedDirs.contains name := by
    rw [Bool.eq_iff_iff, List.contains_iff_mem, List.contains_iff_mem, excludedSet, List.mem_eraseDups,
      List.mem_mergeSort]
  simp only [Deletion.textFault?, Path.excludedAncestor?, hmem]

/-- A run has the root of the settings, their entries to remove, and the names that they exclude. -/
theorem fields_of_ofConfig {q : RunRequest} (h : RunRequest.ofConfig c = .ok q) :
    q.root = c.engine.root ∧ q.deletions = c.deletions ∧ q.excludedDirs = c.excludedSet := by
  obtain ⟨rules, -, h⟩ := exists_of_bind h
  cases h
  exact ⟨rfl, rfl, rfl⟩

/-- What is asked of settings, one after the other; the first that is not met is told. -/
def require (met : Bool) (details : String) : Except Error Unit := if met then .ok () else invalid details

theorem require_iff {met : Bool} {details : String} : require met details = .ok () ↔ met = true := by
  cases met <;> simp [require, invalid]

theorem seq_iff {r s : Except Error Unit} : (do r; s) = .ok () ↔ r = .ok () ∧ s = .ok () := by
  cases r with
  | error e => simp [bind, Except.bind]
  | ok u => simp [bind, Except.bind]

theorem check_eq (c : Config) : c.check = (do
    require (!c.engine.root.text.isEmpty) "engine.root must not be empty"
    require (!c.engine.extensions.isEmpty) "engine.extensions must not be empty"
    require (!c.engine.extensions.any String.isEmpty) "engine.extensions contains an empty entry"
    checkDirNames c.engine.excludedDirs
    require (!c.engine.excludedSuffixes.any String.isEmpty) "engine.excluded_suffixes contains an empty entry"
    checkDeletions c.engine.excludedDirs c.deletions
    RuleSet.checkIds [] c.rules
    require (!(c.logging.enabled && c.logging.path.text.isEmpty))
      "logging.jsonl_path must be set when logging is enabled") := by
  rw [check]
  cases c.engine.root.text.isEmpty <;> cases c.engine.extensions.isEmpty
    <;> cases c.engine.extensions.any String.isEmpty <;> cases c.engine.excludedSuffixes.any String.isEmpty
    <;> cases c.logging.enabled && c.logging.path.text.isEmpty <;> rfl

/-- **Settings pass the checks** if they are fit by themselves and ask for a run that refuses none of its entries for
its text. -/
theorem check_iff (c : Config) : c.check = .ok () ↔ c.Fit ∧ ∃ q, RunRequest.ofConfig c = .ok q
    ∧ ∀ p ∈ q.deletions, Deletion.textFault? q.excludedDirs p = none := by
  have hrequest : (∃ q, RunRequest.ofConfig c = .ok q ∧ ∀ p ∈ q.deletions, Deletion.textFault? q.excludedDirs p = none)
      ↔ RuleSet.checkIds [] c.rules = .ok ()
        ∧ ∀ p ∈ c.deletions, Deletion.textFault? c.engine.excludedDirs p = none := by
    constructor
    · rintro ⟨q, hq, hdeletions⟩
      obtain ⟨rules, hrules, -⟩ := exists_of_bind hq
      obtain ⟨-, hsame, hnames⟩ := fields_of_ofConfig hq
      rw [hsame, hnames] at hdeletions
      exact ⟨(RuleSet.ofSpecs_eq_ok.1 hrules).1, fun p hp => textFault?_excludedSet c p ▸ hdeletions p hp⟩
    · rintro ⟨hids, hdeletions⟩
      obtain ⟨q, hq⟩ : ∃ q, RunRequest.ofConfig c = .ok q := by
        rw [RunRequest.ofConfig, RuleSet.ofSpecs_eq_ok.2 ⟨hids, rfl⟩]
        exact ⟨_, rfl⟩
      obtain ⟨-, hsame, hnames⟩ := fields_of_ofConfig hq
      rw [← hsame] at hdeletions
      exact ⟨q, hq, fun p hp => hnames ▸ (textFault?_excludedSet c p).trans (hdeletions p hp)⟩
  rw [hrequest, check_eq]
  simp only [seq_iff, require_iff, checkDirNames_iff, checkDeletions_iff]
  constructor
  · rintro ⟨hroot, hextensions, hfilled, hnames, hsuffixes, hdeletions, hids, hlog⟩
    refine ⟨⟨?_, ?_, ?_, hnames, ?_⟩, hids, hdeletions⟩
    · simpa using hroot
    · simpa using hextensions
    · simpa [or_imp, forall_and] using And.intro hfilled hsuffixes
    · intro henabled
      simpa [henabled] using hlog
  · rintro ⟨⟨hroot, hextensions, hfilled, hnames, hlog⟩, hids, hdeletions⟩
    rw [List.forall_mem_append] at hfilled
    refine ⟨?_, ?_, ?_, hnames, ?_, hdeletions, hids, ?_⟩
    · simpa using hroot
    · simpa using hextensions
    · simpa using hfilled.1
    · simpa using hfilled.2
    · cases henabled : c.logging.enabled with
      | false => rfl
      | true => simpa using hlog henabled

/-! ## Settings that have been loaded -/

/-- A text that has been trimmed is empty, or has more than blanks. -/
theorem isBlankText_trimmed {s : String} (htrimmed : trimmed s = s) (hne : s ≠ "") : isBlankText s = false := by
  rw [Bool.eq_false_iff]
  intro hblank
  have hnone : trimStart s.toList = [] := List.dropWhile_eq_nil_iff.2 (List.all_eq_true.1 hblank)
  exact hne (htrimmed.symm.trans (by rw [trimmed, trim, hnone]; rfl))

theorem ne_empty_of_isDirName {name : String} (h : isDirName name = true) : name ≠ "" := by
  rintro rfl
  exact absurd h (by decide)

theorem trimmed_of_map {items : List String} (h : items.map trimmed = items) : ∀ s ∈ items, trimmed s = s :=
  List.map_inj_left.1 (h.trans (List.map_id items).symm)

/-- **Settings that have been loaded can be run**, whatever variables have taken their places: they are normal, they ask
for a run, and this refuses no entry for its text; and the checks that they have passed are those of the run. -/
theorem load_runnable {asked : Option Path} (h : load d home vars asked = .ok c) :
    (c.normalize = c ∧ stripped c.engine.root.text = c.engine.root.text
      ∧ ∀ s ∈ c.engine.extensions ++ c.engine.excludedDirs ++ c.engine.excludedSuffixes,
        trimmed s = s ∧ isBlankText s = false)
    ∧ (∃ q, RunRequest.ofConfig c = .ok q ∧ q.deletions = c.deletions
      ∧ (∀ p ∈ c.deletions, Deletion.textFault? q.excludedDirs p = none)
      -- What a run refuses, it refuses for its place, in words that are told of no text.
      ∧ ∀ e configHash duration s, (q.execute configHash duration e).outcome = .ok s →
        ∀ f ∈ s.errors, f.code = "SRW-2004" → ∃ p ∈ c.deletions, ∃ reason ∈ Deletion.placeFaults,
          (∀ excluded r, Deletion.textFault? excluded r ≠ some reason)
            ∧ f = ⟨s.relative p, f.code, (Error.deletionRefused p reason).message⟩)
    ∧ ∀ c : Config, c.check = .ok () ↔ c.Fit ∧ ∃ q, RunRequest.ofConfig c = .ok q
      ∧ ∀ p ∈ q.deletions, Deletion.textFault? q.excludedDirs p = none := by
  obtain ⟨-, hnormal, hchecked⟩ := Loaded.of_load h
  obtain ⟨hfit, q, hq, htext⟩ := (check_iff c).1 hchecked
  have hdeletions : q.deletions = c.deletions := (fields_of_ofConfig hq).2.1
  have hengine := congrArg Config.engine hnormal
  rw [normalize_eq] at hengine
  have hroot : stripped c.engine.root.text = c.engine.root.text := congrArg (fun s => s.root.text) hengine
  have hextensions := trimmed_of_map (congrArg EngineSettings.extensions hengine)
  have hdirs := trimmed_of_map (congrArg EngineSettings.excludedDirs hengine)
  have hsuffixes := trimmed_of_map (congrArg EngineSettings.excludedSuffixes hengine)
  have hfilled := List.forall_mem_append.1 hfit.filled
  refine ⟨⟨hnormal, hroot, ?_⟩, ⟨q, hq, hdeletions, hdeletions ▸ htext, ?_⟩, check_iff⟩
  · rw [List.forall_mem_append, List.forall_mem_append]
    refine ⟨⟨fun s hs => ⟨hextensions s hs, ?_⟩, fun s hs => ⟨hdirs s hs, ?_⟩⟩, fun s hs => ⟨hsuffixes s hs, ?_⟩⟩
    · exact isBlankText_trimmed (hextensions s hs) (hfilled.1 s hs)
    · exact isBlankText_trimmed (hdirs s hs) (ne_empty_of_isDirName (hfit.names s hs))
    · exact isBlankText_trimmed (hsuffixes s hs) (hfilled.2 s hs)
  · intro e configHash duration s hs f hf hcode
    exact hdeletions ▸ RunRequest.refused_places htext hs hf hcode

section Sample

open Disk

/-- A file to remove, and a blank behind the name of an excluded directory. -/
def removingText : String :=
  "[engine]\nexcluded_dirs = ['vendor ']\n[deletion]\npaths = ['lib/a.ts']\n"

def removingVars : Variables := fun name => if name == "SRW_ENGINE_ROOT" then some "/" else none

def removing : Config where
  engine := { root := ⟨"/"⟩, excludedDirs := ["vendor"] }
  deletions := [⟨"lib/a.ts"⟩]
  logging := { path := ⟨"/home/.local/share/srw/activity.jsonl"⟩ }
  file := ⟨"c"⟩

theorem load_removing :
    load (fileDisk removingText) ⟨some "/home"⟩ removingVars (some ⟨"c"⟩) = .ok removing := by
  rw [load_of_read (read_fileDisk removingText)]
  decide +kernel

/-- The settings can be run, on the disk of their own file. -/
theorem load_runnable_removing :
    load (fileDisk removingText) ⟨some "/home"⟩ removingVars (some ⟨"c"⟩) = .ok removing
    ∧ trimmed "vendor" = "vendor" ∧ ∃ q, RunRequest.ofConfig removing = .ok q
      ∧ Deletion.textFault? q.excludedDirs ⟨"lib/a.ts"⟩ = none
      ∧ ∃ s, (q.execute "" 0 (fileDisk removingText)).outcome = .ok s
        ∧ ∀ f ∈ s.errors, f.code = "SRW-2004" → ∃ p ∈ removing.deletions, ∃ reason ∈ Deletion.placeFaults,
          (∀ excluded r, Deletion.textFault? excluded r ≠ some reason)
            ∧ f = ⟨s.relative p, f.code, (Error.deletionRefused p reason).message⟩ := by
  obtain ⟨⟨-, -, htrimmed⟩, ⟨q, hq, -, htext, hrun⟩, -⟩ := load_runnable load_removing
  have hroot : q.root = ⟨"/"⟩ := (fields_of_ofConfig hq).1
  have hlead : (fileDisk removingText).LeadsTo ((fileDisk removingText).absolute q.root) [] := by
    rw [hroot, absolute_separator rfl]
    exact leadsTo_separator rfl
  obtain ⟨s, hok⟩ := RunRequest.execute_isOk "" 0 hlead
  exact ⟨load_removing, (htrimmed "vendor" (by decide)).1, q, hq, htext _ (List.mem_cons_self ..), s, hok,
    hrun _ _ _ s hok⟩

end Sample

end Codemod.Config
