/-
Settings that are loaded, shown as TOML and loaded again. Loading takes settings from a file or the defaults, lets
variables take their places, and normalizes and checks them. What is normal stays as it is, so settings that have
passed the checks pass them again.
-/
import Codemod.Config.Load
import Codemod.Proofs.Config.Form
import Codemod.Proofs.Disk.Read
import Mathlib.Data.List.DropRight

namespace Codemod.Config

open Data Text

variable {c : Config} {d e : Disk} {home home' : Home} {vars : Variables} {p : Path}

/-! ## Normal settings -/

/-- What is left of a text has no blank in front, as it starts like the text without the blanks in front. -/
theorem trimStart_trim (cs : List Char) : trimStart (trim cs) = trim cs := by
  rw [trimStart, List.dropWhile_eq_self_iff]
  intro hpos hblank
  have hfront : trim cs <+: trimStart cs := List.rdropWhile_prefix isBlank _
  have hstart : trimStart (trimStart cs) = trimStart cs := List.dropWhile_idempotent isBlank cs
  rw [trimStart, List.dropWhile_eq_self_iff] at hstart
  rw [hfront.getElem hpos] at hblank
  exact hstart (Nat.lt_of_lt_of_le hpos hfront.length_le) hblank

theorem trim_trim (cs : List Char) : trim (trim cs) = trim cs := by
  have hback : trimEnd (trim cs) = trim cs := List.rdropWhile_idempotent isBlank (trimStart cs)
  rw [show trim (trim cs) = trimEnd (trimStart (trim cs)) from rfl, trimStart_trim, hback]

theorem trimmed_trimmed (s : String) : trimmed (trimmed s) = trimmed s := by
  rw [trimmed, trimmed, String.toList_ofList, trim_trim]

/-- A root without the separators at its end; the separator alone is a root. -/
def stripped (root : String) : String :=
  if root.utf8ByteSize > 1 && root.toList.reverse.head? == some '/' then
    String.ofList (root.toList.reverse.dropWhile (· == '/')).reverse
  else root

theorem stripped_stripped (root : String) : stripped (stripped root) = stripped root := by
  by_cases hroot : (root.utf8ByteSize > 1 && root.toList.reverse.head? == some '/') = true
  · have hbare : (root.toList.reverse.dropWhile (· == '/')).head? ≠ some '/' := by
      intro hhead
      have hlast := List.head?_dropWhile_not (· == '/') root.toList.reverse
      rw [hhead] at hlast
      cases hlast
    have hbody : stripped root = String.ofList (root.toList.reverse.dropWhile (· == '/')).reverse := if_pos hroot
    rw [hbody]
    exact if_neg (by simp [hbare])
  · have hsame : stripped root = root := if_neg hroot
    rw [hsame, hsame]

theorem normalize_eq (c : Config) : c.normalize = { c with engine := { c.engine with
    root := ⟨stripped c.engine.root.text⟩
    extensions := c.engine.extensions.map trimmed
    excludedDirs := c.engine.excludedDirs.map trimmed
    excludedSuffixes := c.engine.excludedSuffixes.map trimmed } } := rfl

/-- **What is normal stays as it is.** -/
theorem normalize_normalize (c : Config) : c.normalize.normalize = c.normalize := by
  have hlist (items : List String) : (items.map trimmed).map trimmed = items.map trimmed := by
    rw [List.map_map]
    exact List.map_congr_left fun s _ => trimmed_trimmed s
  simp only [normalize_eq, hlist, stripped_stripped]

/-! ## Overrides -/

/-- Without variables everything keeps its value. -/
theorem override_none (c : Config) : override (fun _ => none) c = .ok c := rfl

/-- No variable changes the rules. -/
theorem override_rules {c' : Config} (h : override vars c = .ok c') : c'.rules = c.rules := by
  obtain ⟨root, -, h⟩ := exists_of_bind h
  obtain ⟨dryRun, -, h⟩ := exists_of_bind h
  obtain ⟨extensions, -, h⟩ := exists_of_bind h
  obtain ⟨excludedDirs, -, h⟩ := exists_of_bind h
  obtain ⟨excludedSuffixes, -, h⟩ := exists_of_bind h
  obtain ⟨enabled, -, h⟩ := exists_of_bind h
  obtain ⟨logPath, -, h⟩ := exists_of_bind h
  obtain rfl := Except.ok.inj h
  rfl

/-! ## Loading -/

/-- Settings that loading may give. -/
structure Loaded (c : Config) : Prop where
  narrow : c.Narrow
  normal : c.normalize = c
  checked : c.check = .ok ()

/-- What is done to settings after they are read. -/
def adopt (vars : Variables) (p : Path) (base : Config) : Except Error Config := do
  let c ← override vars { base with file := p }
  let c := normalize c
  check c
  return c

theorem load_of_read {text : String} (h : d.read p = .ok text.toUTF8) (home : Home) (vars : Variables) :
    load d home vars (some p) = ofToml home text >>= adopt vars p := by
  have htext : readText d p = .ok text := by
    rw [readText, h]
    simp only [decode_toUTF8]
  simp only [load, Option.getD_some, exists?_of_read h, if_true, htext]
  rfl

theorem Loaded.of_adopt {base : Config} (hbase : base.Narrow) (h : adopt vars p base = .ok c) : c.Loaded := by
  obtain ⟨changed, hchanged, h⟩ := exists_of_bind h
  obtain ⟨u, hcheck, h⟩ := exists_of_bind h
  obtain rfl := Except.ok.inj h
  refine ⟨fun s hs => hbase s ?_, normalize_normalize changed, hcheck⟩
  have hrules := override_rules hchanged
  rwa [normalize_eq, hrules] at hs

theorem Loaded.of_load {asked : Option Path} (h : load d home vars asked = .ok c) : c.Loaded := by
  rw [load] at h
  split at h
  · obtain ⟨text, -, h⟩ := exists_of_bind h
    obtain ⟨base, hbase, h⟩ := exists_of_bind h
    exact .of_adopt (narrow_of_ofToml hbase) h
  · split at h
    · cases h
    · have hnarrow : (default home).Narrow := List.forall_mem_nil _
      exact .of_adopt hnarrow h

/-- Such settings are taken as they are. -/
theorem Loaded.adopt (hc : c.Loaded) (p : Path) :
    Config.adopt (fun _ => none) p { c with file := ⟨""⟩ } = .ok { c with file := p } := by
  have hnormal : normalize { c with file := p } = { c with file := p } :=
    congrArg (fun c : Config => { c with file := p }) hc.normal
  have hcheck : check { c with file := p } = .ok () := hc.checked
  simp only [Config.adopt, override_none, bind, Except.bind, hnormal, hcheck]
  rfl

/-- **Settings that are shown reproduce themselves**: those that loading gives, from whatever file and under whatever
variables, are given again by a file that holds what they are shown as, without variables and in any home. -/
theorem load_shown {asked : Option Path} (h : load d home vars asked = .ok c)
    (hfile : e.read p = .ok c.toToml.toUTF8) (home' : Home) :
    ∃ c', load e home' (fun _ => none) (some p) = .ok c' ∧ c'.sameSettings c = true ∧ c'.hash = c.hash := by
  have hc := Loaded.of_load h
  refine ⟨{ c with file := p }, ?_, by simp [sameSettings], rfl⟩
  rw [load_of_read hfile, ofToml_toToml hc.narrow]
  exact hc.adopt p

/-! ## A file with much left out -/

section Sample

open Disk

/-- One file in a directory that is the root. -/
def fileDisk (text : String) : Disk := ⟨.dir 0o755 [("c", .file text.toUTF8 0o644)], []⟩

theorem read_fileDisk (text : String) : (fileDisk text).read ⟨"c"⟩ = .ok text.toUTF8 := by
  have h : (fileDisk text).resolve true ⟨"c"⟩ = .ok (.node ["c"] (.file text.toUTF8 0o644)) := by
    have hpieces : pathPieces "c" = ["c"] := by decide
    simp +decide [resolve, fileDisk, hpieces, walk, Node.get?, Entries.get?]
  rw [Disk.read, stat, Disk.find, h]
  rfl

/-- A blank before an extension, a replacement that strips, and most fields left out. -/
def sampleText : String :=
  "[engine]\nextensions = [' .ts']\n[[rules]]\nkind = 'regex'\nid = 'a'\npattern = '\\d'\nreplacement = \x7bstrip = ['x']\x7d\n"

def sampleVars : Variables := fun name => if name == "SRW_ENGINE_ROOT" then some "src//" else none

def sample : Config where
  engine := { root := ⟨"src"⟩, extensions := [".ts"] }
  logging := { path := ⟨"/home/.local/share/srw/activity.jsonl"⟩ }
  rules := [⟨"a", "", .regex "\\d" {} (.strip ["x"]) false⟩]
  file := ⟨"c"⟩

theorem load_sample : load (fileDisk sampleText) ⟨some "/home"⟩ sampleVars (some ⟨"c"⟩) = .ok sample := by
  rw [load_of_read (read_fileDisk sampleText)]
  decide +kernel

/-- The settings of the file, from another home and without the variable. -/
theorem load_shown_sample :
    load (fileDisk sampleText) ⟨some "/home"⟩ sampleVars (some ⟨"c"⟩) = .ok sample
    ∧ (fileDisk sample.toToml).read ⟨"c"⟩ = .ok sample.toToml.toUTF8
    ∧ ∃ c', load (fileDisk sample.toToml) ⟨none⟩ (fun _ => none) (some ⟨"c"⟩) = .ok c'
      ∧ c'.sameSettings sample = true ∧ c'.hash = sample.hash :=
  ⟨load_sample, read_fileDisk _, load_shown load_sample (read_fileDisk _) ⟨none⟩⟩

end Sample

end Codemod.Config
