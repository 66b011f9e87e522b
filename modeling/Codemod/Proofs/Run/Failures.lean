/-
Which failures of rules a run reports. What the rules fail on is known when a file has been read, but it
goes into the summary with the record of the file, and a file whose new content cannot be put in its place
has none (`rewriteFile_of_unstored`). Of such a file the summary has the error alone; of every other file that can
be read it has each failure (`execute_failures`).
-/
import Codemod.Proofs.Rule.Chain
import Codemod.Proofs.Run.Effect
import Codemod.Proofs.Run.Trace

namespace Codemod

open Disk Codemod.Path

namespace RunRequest

variable {q : RunRequest} {d : Disk} {p : Path} {text : String} {s : Summary}

/-- The rules give a file another content, and a live run cannot put it in its place. -/
def Unstored (q : RunRequest) (d : Disk) (p : Path) (text : String) (e : Error) : Prop :=
  q.dryRun = false ∧ (q.rules.apply text).content ≠ text
    ∧ (d.replaceFile p (q.rules.apply text).content.toUTF8).1 = .error e

/-- What a summary lists of the failures of rules on one file. -/
def reported (q : RunRequest) (s : Summary) (p : Path) (text : String) : List RuleError :=
  (q.rules.apply text).failures.map fun f => ⟨f.ruleId, some (s.relative p), f.reason⟩

/-! ## One file -/

theorem isModified_of : (FileRecord.of p text q.rules).isModified = true ↔ (q.rules.apply text).content ≠ text := by
  simpa [FileRecord.isModified, FileRecord.of] using ne_comm

/-- The error takes the place of all that is known of the file. -/
theorem rewriteFile_of_unstored {e : Error} (hread : d.readText p = .ok text) (h : q.Unstored d p text e) :
    (rewriteFile d p q.rules q.dryRun).1 = .error e := by
  obtain ⟨hlive, hchange, hreplace⟩ := h
  have hwrite : ((FileRecord.of p text q.rules).isModified && !q.dryRun) = true := by
    rw [hlive, isModified_of.2 hchange]
    rfl
  have hcontent : (FileRecord.of p text q.rules).content = (q.rules.apply text).content := rfl
  simp only [rewriteFile, hread, if_pos hwrite, hcontent]
  rcases hdone : d.replaceFile p (q.rules.apply text).content.toUTF8 with ⟨_ | _, d'⟩
  · rw [hdone] at hreplace
    obtain rfl := Except.error.inj hreplace
    rfl
  · rw [hdone] at hreplace
    cases hreplace

/-- Every other file that can be read has a record, with all that failed on it. -/
theorem rewriteFile_of_stored (hread : d.readText p = .ok text) (h : ∀ e, ¬ q.Unstored d p text e) :
    ∃ r, (rewriteFile d p q.rules q.dryRun).1 = .ok r ∧ r.path = p
      ∧ r.failures = (q.rules.apply text).failures := by
  simp only [rewriteFile, hread]
  by_cases hwrite : ((FileRecord.of p text q.rules).isModified && !q.dryRun) = true
  · rw [if_pos hwrite]
    rcases hreplace : d.replaceFile p (FileRecord.of p text q.rules).content.toUTF8 with ⟨e | _, d'⟩
    · obtain ⟨hmodified, hlive⟩ := (Bool.and_eq_true _ _).mp hwrite
      refine absurd ⟨by simpa using hlive, isModified_of.1 hmodified, ?_⟩ (h e)
      exact congrArg Prod.fst hreplace
    · exact ⟨_, rfl, rfl, rfl⟩
  · rw [if_neg hwrite]
    exact ⟨_, rfl, rfl, rfl⟩

/-! ## A whole run -/

/-- **Which failures of rules a run reports.** The files that are scanned have their turns one after the
other, and the summary lists what rules failed on, file by file, behind the rules that are off. If the file
can be read in its turn, this is every failure of a rule on what was read, under the path of the file;
unless the rules gave it another content that could not be put in its place: then it is none of them, and
the summary has the error for that path. -/
theorem execute_failures {configHash : String} {duration : Nat}
    (h : (q.execute configHash duration d).outcome = .ok s) : ∃ rs,
      q.Rewrites (q.removals d).2 rs (q.execute configHash duration d).disk
      ∧ s.scanned = rs.length
      ∧ s.ruleErrors = q.rules.disabled.map (fun f => ⟨f.ruleId, none, f.reason⟩)
        ++ rs.flatMap (Summary.failedRules s.root)
      ∧ ∀ r ∈ rs, ∃ front now, q.Rewrites (q.removals d).2 front now ∧ front ++ [r] <+: rs
        ∧ r.2 = (rewriteFile now r.1 q.rules q.dryRun).1
        ∧ ∀ text, now.readText r.1 = .ok text →
          ((∀ e, ¬ q.Unstored now r.1 text e) →
            Summary.failedRules s.root r = q.reported s r.1 text ∧ q.reported s r.1 text ⊆ s.ruleErrors)
          ∧ ∀ e, q.Unstored now r.1 text e →
            Summary.failedRules s.root r = [] ∧ ⟨s.relative r.1, e.code, e.message⟩ ∈ s.errors := by
  obtain ⟨-, rs, htrace⟩ := execute_trace h
  refine ⟨rs, htrace.rewrites, htrace.scanned, htrace.ruleErrors, fun r hr => ?_⟩
  obtain ⟨front, now, hfront, hprefix, hresult⟩ := htrace.rewrites.exists_turn hr
  refine ⟨front, now, hfront, hprefix, hresult, fun text hread => ⟨fun hstored => ?_, fun e hunstored => ?_⟩⟩
  · obtain ⟨record, hrecord, hpath, hfailures⟩ := rewriteFile_of_stored hread hstored
    have hlist : Summary.failedRules s.root r = q.reported s r.1 text := by
      obtain ⟨p, result⟩ := r
      rw [show result = .ok record from hresult.trans hrecord, Summary.failedRules, hfailures, hpath]
      rfl
    refine ⟨hlist, fun f hf => ?_⟩
    rw [htrace.ruleErrors]
    exact List.mem_append_right _ (List.mem_flatMap.2 ⟨r, hr, hlist ▸ hf⟩)
  · have herror : r.2 = .error e := hresult.trans (rewriteFile_of_unstored hread hunstored)
    obtain ⟨p, result⟩ := r
    obtain rfl : result = .error e := herror
    refine ⟨rfl, ?_⟩
    rw [htrace.errors]
    exact List.mem_append_right _ (List.mem_filterMap.2 ⟨_, hr, rfl⟩)

/-! ## A file that may be read and not written -/

/-- One rule changes the file, and another one fails on it. -/
def lockedRequest : RunRequest where
  root := ⟨"/"⟩
  rules := ⟨[RuleSet.edgeRule, ⟨"letter", "", .literal "A", .literal "B"⟩], []⟩
  extensions := [".ts"]
  excludedDirs := []

def lockedDisk : Disk where
  root := .dir 0o755 [("a.ts", .file "A".toUTF8 0o444)]
  workDir := []

theorem lockedDisk_tidy : lockedDisk.root.Tidy := by
  refine tidy_dir ?_ (by decide)
  simp only [List.forall_mem_cons]
  exact ⟨⟨by decide, tidy_leaf rfl⟩, by simp⟩

theorem apply_lockedRules : lockedRequest.rules.apply "A" =
    ⟨"B", [("letter", 1)], [⟨"edge", (Refusal.emptyMatch "(?-u:\\b)" 0).message⟩]⟩ := by
  have hedge : RuleSet.edgeRule.apply "A" = .error (.emptyMatch "(?-u:\\b)" 0) :=
    RuleSet.edgeRule_apply (c := 'A') (Pattern.isWord_ascii ⟨(0x41, 0x5A), by decide, by decide⟩)
  have hletter : Rule.apply ⟨"letter", "", .literal "A", .literal "B"⟩ "A" = .ok (some ("B", 1)) := by decide +kernel
  simp only [RuleSet.apply, lockedRequest, List.foldl, RuleSet.applyRule, hedge, hletter, HitCounts.set]
  rfl

theorem lockedPath_eq : (⟨"/a.ts"⟩ : Path) = (⟨"/"⟩ : Path).join ⟨"a.ts"⟩ := by decide

theorem isName_locked : IsName "a.ts" := by decide

theorem refusal?_locked : refusal? ((⟨"/"⟩ : Path).join ⟨"a.ts"⟩) = none := by decide

theorem stat_lockedDisk : lockedDisk.stat ⟨"/a.ts"⟩ = .ok (.file "A".toUTF8 0o444) := by
  rw [lockedPath_eq, stat_entry (leadsTo_separator rfl) isName_locked rfl rfl, refusal?_locked]

theorem readText_lockedDisk : lockedDisk.readText ⟨"/a.ts"⟩ = .ok "A" := by
  rw [lockedPath_eq, readText_entry (leadsTo_separator rfl) isName_locked rfl, refusal?_locked]
  rfl

theorem unstored_lockedDisk :
    lockedRequest.Unstored lockedDisk ⟨"/a.ts"⟩ "A" (.permissionDenied ⟨"/a.ts"⟩) := by
  refine ⟨rfl, by rw [apply_lockedRules]; decide, ?_⟩
  simp only [replaceFile, stat_lockedDisk]
  rfl

/-- What comes of the file. -/
def lockedResult : Path × Except Error FileRecord := (⟨"/a.ts"⟩, .error (.permissionDenied ⟨"/a.ts"⟩))

theorem leadsTo_lockedDisk : lockedDisk.LeadsTo (lockedDisk.absolute lockedRequest.root) [] := by
  have habsolute : lockedDisk.absolute lockedRequest.root = ⟨"/"⟩ := absolute_separator rfl
  rw [habsolute]
  exact leadsTo_separator rfl

theorem eq_of_get?_lockedDisk {loc : Location} {c : ByteArray} {k : Nat}
    (h : lockedDisk.root.get? loc = some (.file c k)) : loc = ["a.ts"] := by
  cases loc with
  | nil => cases h
  | cons x rest =>
    obtain ⟨n, hn, h⟩ := Option.bind_eq_some_iff.1 h
    have hmem := mem_of_get? hn
    simp only [List.mem_singleton, Prod.mk.injEq] at hmem
    obtain ⟨rfl, rfl⟩ := hmem
    cases rest with
    | nil => rfl
    | cons y rest => cases h

/-- Of the one file, which can be read, the run reports that it may not be written, and not that a rule fails
on it. -/
theorem locked_file_failures : ∃ s, (lockedRequest.execute "" 0 lockedDisk).outcome = .ok s
    ∧ lockedDisk.readText ⟨"/a.ts"⟩ = .ok "A"
    ∧ (lockedRequest.rules.apply "A").failures ≠ []
    ∧ ⟨"a.ts"⟩ ∈ s.errors.map (·.path)
    ∧ s.ruleErrors = [] := by
  have habsolute : lockedDisk.absolute lockedRequest.root = pathOf [] := absolute_separator rfl
  have hremovals : lockedRequest.removals lockedDisk = ([], lockedDisk) := rfl
  have hlead := habsolute ▸ leadsTo_lockedDisk
  obtain ⟨all, w, hrun, hall, hevery, hvalue, -, -⟩ := run_process (q := lockedRequest) lockedDisk_tidy.named
    lockedDisk_tidy.free (fun _ h => by cases h) hlead [] (lockedRequest.opening "" lockedDisk)
  have hmem : ["a.ts"] ∈ all := by
    refine (hevery ["a.ts"] ⟨⟨_, _, rfl⟩, fun _ _ => List.not_mem_nil, rfl⟩).resolve_right ?_
    rintro ⟨dirs, hne, hdirs, -⟩
    exact hne (List.prefix_nil.1 hdirs)
  have hresults : (all.map fun names => lockedRequest.result lockedDisk (pathOf ([] ++ names)))
      = all.map fun _ => lockedResult := by
    refine List.map_congr_left fun names hin => ?_
    obtain ⟨c, k, hfile⟩ := (hall names hin).1.file
    obtain rfl : names = ["a.ts"] := eq_of_get?_lockedDisk hfile
    have hpath : pathOf ([] ++ ["a.ts"]) = ⟨"/a.ts"⟩ := rfl
    rw [hpath, result, rewriteFile_of_unstored readText_lockedDisk unstored_lockedDisk, lockedResult]
  rw [hresults] at hvalue
  have hopening := opening_summary (q := lockedRequest) (d := lockedDisk) ""
  rw [hremovals, habsolute] at hopening
  obtain ⟨-, -, -, herrors⟩ := Progress.foldl_note_summary (pathOf []) lockedRequest.dryRun (all.map fun _ => lockedResult)
    (lockedRequest.opening "" lockedDisk)
  obtain ⟨hrules, -⟩ := Progress.foldl_note_ruleErrors (pathOf []) lockedRequest.dryRun (all.map fun _ => lockedResult)
    (lockedRequest.opening "" lockedDisk)
  rw [← hvalue, hopening] at herrors hrules
  rw [execute_eq "" 0 (by rw [habsolute]; exact Walk.checkRoot_dir hlead rfl), hremovals, habsolute]
  simp only [Deletion.deleted, List.filterMap_nil, hrun]
  refine ⟨_, rfl, readText_lockedDisk, by simp [apply_lockedRules], ?_, ?_⟩
  · have hpath : (⟨"a.ts"⟩ : Path) = ((⟨"/a.ts"⟩ : Path).below? (pathOf [])).getD ⟨"/a.ts"⟩ := by decide
    rw [Progress.finish_summary, Summary.finish, herrors, hpath]
    exact List.mem_map.2 ⟨_, List.mem_append_right _
      (List.mem_filterMap.2 ⟨lockedResult, List.mem_map.2 ⟨_, hmem, rfl⟩, rfl⟩), rfl⟩
  · rw [Progress.finish_summary, Summary.finish, hrules]
    refine List.append_eq_nil_iff.2 ⟨rfl, List.flatMap_eq_nil_iff.2 fun r hr => ?_⟩
    obtain ⟨names, -, rfl⟩ := List.mem_map.1 hr
    rfl

/-- The run on the file that may not be written is one of those. -/
theorem execute_failures_locked : ∃ s, (lockedRequest.execute "" 0 lockedDisk).outcome = .ok s
    ∧ ∃ rs, lockedRequest.Rewrites (lockedRequest.removals lockedDisk).2 rs
        (lockedRequest.execute "" 0 lockedDisk).disk
      ∧ s.scanned = rs.length
      ∧ s.ruleErrors = rs.flatMap (Summary.failedRules s.root) := by
  obtain ⟨s, hok⟩ := execute_isOk (q := lockedRequest) "" 0 leadsTo_lockedDisk
  obtain ⟨rs, hrewrites, hscanned, herrors, -⟩ := execute_failures hok
  exact ⟨s, hok, rs, hrewrites, hscanned, herrors⟩

end RunRequest

end Codemod
