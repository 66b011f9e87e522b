/-
The accounts of a summary. Everything in a summary is a sum or a list over what it was told (`foldl_record`), so that
its totals are exact and do not depend on the order in which it was told (`totals_exact`); and what a run hands out
is such a summary, told of its removals and of its files (`execute_record`).
-/
import Mathlib.Algebra.BigOperators.Group.List.Basic
import Mathlib.Data.List.Induction
import Codemod.Proofs.Run.Trace

namespace Codemod

/-- What a summary is told of: a file that is gone, one that was rewritten, and one that went wrong, perhaps after it
was scanned. -/
inductive Note where
  | deleted (p : Path)
  | file (r : FileRecord)
  | failed (p : Path) (e : Error) (scanned : Bool)

namespace Note

def deleted? : Note → Option Path
  | deleted p => some p
  | _ => none

def file? : Note → Option FileRecord
  | file r => some r
  | _ => none

def failed? : Note → Option (Path × Error × Bool)
  | failed p e scanned => some (p, e, scanned)
  | _ => none

end Note

namespace FileRecord

/-- How often a rule had hits in the file. -/
def count (id : String) (r : FileRecord) : Nat := (r.hits.lookup id).getD 0

def lists (id : String) (r : FileRecord) : Bool := (r.hits.lookup id).isSome

/-- The same, but for hits that are not those of the rules. -/
def within (rules : RuleSet) (r : FileRecord) : FileRecord :=
  { r with hits := r.hits.filter fun h => h.1 ∈ rules.rules.map Rule.id }

end FileRecord

def Note.within (rules : RuleSet) : Note → Note
  | file r => file (r.within rules)
  | n => n

namespace Summary

variable {rules : RuleSet}

def record (s : Summary) : Note → Summary
  | .deleted p => s.recordDeleted p
  | .file r => s.recordFile r
  | .failed p e scanned => s.recordError p e scanned

/-- The total of a rule after some more files. -/
def addFiles (rs : List FileRecord) (t : RuleTotal) : RuleTotal :=
  { t with hits := t.hits + (rs.map (·.count t.ruleId)).sum, files := t.files + rs.countP (·.lists t.ruleId) }

/-- The rules that failed on a file. -/
def failuresIn (s : Summary) (r : FileRecord) : List RuleError :=
  r.failures.map fun f => ⟨f.ruleId, some (s.relative r.path), f.reason⟩

theorem find?_eq_lookup (hits : HitCounts) (id : String) :
    (hits.find? fun h => h.1 == id).map (·.2) = hits.lookup id := by
  induction hits with
  | nil => rfl
  | cons h hits ih =>
    rw [List.find?_cons, List.lookup_cons, BEq.comm, ← ih]
    cases id == h.1 <;> rfl

theorem addHits_eq_addFiles (r : FileRecord) (t : RuleTotal) : addHits r.hits t = addFiles [r] t := by
  rw [addHits, addFiles, List.map_singleton, List.sum_singleton, List.countP_singleton, FileRecord.count,
    FileRecord.lists, ← find?_eq_lookup]
  cases r.hits.find? fun h => h.1 == t.ruleId <;> rfl

theorem addFiles_nil : addFiles [] = id := rfl

theorem addFiles_concat (rs : List FileRecord) (r : FileRecord) (t : RuleTotal) :
    addFiles [r] (addFiles rs t) = addFiles (rs ++ [r]) t := by
  simp [addFiles, List.countP_append, Nat.add_assoc]

/-- **Everything in a summary is a sum or a list over what it was told.** -/
theorem foldl_record (notes : List Note) (s : Summary) : notes.foldl record s = { s with
    deleted := s.deleted ++ (notes.filterMap Note.deleted?).map s.relative
    modified := s.modified
      ++ ((notes.filterMap Note.file?).filter (·.isModified)).map fun r => ⟨s.relative r.path, r.hits⟩
    scanned := s.scanned + (notes.filterMap Note.file?).length + (notes.filterMap Note.failed?).countP (·.2.2)
    totals := s.totals.map (addFiles (notes.filterMap Note.file?))
    errors := s.errors
      ++ (notes.filterMap Note.failed?).map fun (p, e, _) => ⟨s.relative p, e.code, e.message⟩
    ruleErrors := s.ruleErrors ++ (notes.filterMap Note.file?).flatMap s.failuresIn } := by
  induction notes using List.reverseRecOn with
  | nil => simp [addFiles_nil]
  | append_singleton notes n ih =>
    rw [List.foldl_append, ih, List.foldl_cons, List.foldl_nil]
    simp only [List.filterMap_append, List.filterMap_cons, List.filterMap_nil]
    cases n with
    | deleted p => simp [record, recordDeleted, Note.deleted?, Note.file?, Note.failed?, relative]
    | failed p e scanned =>
      cases scanned <;>
        simp [record, recordError, Note.deleted?, Note.file?, Note.failed?, relative, Nat.add_assoc]
    | file r =>
      have htotals (t : RuleTotal) : addHits r.hits (addFiles (notes.filterMap Note.file?) t)
          = addFiles (notes.filterMap Note.file? ++ [r]) t := by
        rw [addHits_eq_addFiles, addFiles_concat]
      by_cases h : r.isModified = true <;>
        simp [record, recordFile, Note.deleted?, Note.file?, Note.failed?, relative, failuresIn, h, htotals,
          Nat.add_right_comm, ← Nat.add_assoc]

/-! ## Totals -/

theorem lookup_filter {hits : HitCounts} {keep : String × Nat → Bool} {id : String}
    (hid : ∀ n, keep (id, n) = true) : (hits.filter keep).lookup id = hits.lookup id := by
  induction hits with
  | nil => rfl
  | cons h hits ih =>
    obtain ⟨key, n⟩ := h
    by_cases hkey : id = key
    · subst hkey
      rw [List.filter_cons_of_pos (hid n), List.lookup_cons_self, List.lookup_cons_self]
    · have hne : (id == key) = false := by simpa using hkey
      rw [List.filter_cons, List.lookup_cons, hne]
      split
      · rw [List.lookup_cons, hne]
        exact ih
      · exact ih

/-- For a rule of the set, hits of other rules do not count. -/
theorem addFiles_within {t : RuleTotal} (ht : t.ruleId ∈ rules.rules.map Rule.id) (notes : List Note) :
    addFiles ((notes.map (Note.within rules)).filterMap Note.file?) t = addFiles (notes.filterMap Note.file?) t := by
  have hfiles : (notes.map (Note.within rules)).filterMap Note.file?
      = (notes.filterMap Note.file?).map (FileRecord.within rules) := by
    rw [List.filterMap_map, List.map_filterMap]
    exact List.filterMap_congr fun n _ => by cases n <;> rfl
  have hlookup (r : FileRecord) : (r.within rules).hits.lookup t.ruleId = r.hits.lookup t.ruleId :=
    lookup_filter fun _ => decide_eq_true ht
  simp only [hfiles, addFiles, List.map_map, List.countP_map, Function.comp_def, FileRecord.count,
    FileRecord.lists, hlookup]

theorem addFiles_perm {rs rs' : List FileRecord} (h : rs.Perm rs') : addFiles rs = addFiles rs' := by
  funext t
  rw [addFiles, addFiles, (h.map _).sum_eq, h.countP_eq]

/-- **The totals of a summary are exact.** Each rule of the set has, in the order of the set, the sum of its counts
over the files that were rewritten and the number of those that list it, whatever hits other ids have. Files count as
scanned if they were rewritten, or went wrong after they were scanned. The lists hold what the summary was told, item
by item, with the rules that are off in front; and no number depends on the order in which it was told. -/
theorem totals_exact (root : Path) (dryRun : Bool) (rules : RuleSet) (skipped : List SkippedDir) (duration : Nat)
    (notes : List Note) :
    let told (notes : List Note) := (notes.foldl record (start root dryRun rules)).finish skipped duration
    let relative (p : Path) := (p.below? root).getD p
    let files := notes.filterMap Note.file?
    let failed := notes.filterMap Note.failed?
    (told notes).totals
        = rules.rules.map (fun r => ⟨r.id, (files.map (·.count r.id)).sum, files.countP (·.lists r.id)⟩)
    ∧ (∀ others : List Note, others.map (Note.within rules) = notes.map (Note.within rules) →
        (told others).totals = (told notes).totals)
    ∧ (told notes).scanned = files.length + failed.countP (·.2.2)
    ∧ (told notes).modified
        = (files.filter fun r => r.original ≠ r.content).map (fun r => ⟨relative r.path, r.hits⟩)
    ∧ (told notes).errors = failed.map (fun (p, e, _) => ⟨relative p, e.code, e.message⟩)
    ∧ (told notes).ruleErrors = rules.disabled.map (fun f => ⟨f.ruleId, none, f.reason⟩)
        ++ files.flatMap (fun r => r.failures.map fun f => ⟨f.ruleId, some (relative r.path), f.reason⟩)
    ∧ (told notes).deleted = (notes.filterMap Note.deleted?).map relative
    ∧ (∀ others : List Note, others.Perm notes →
        (told others).totals = (told notes).totals
        ∧ (told others).scanned = (told notes).scanned
        ∧ (told others).modified.length = (told notes).modified.length
        ∧ (told others).errors.length = (told notes).errors.length
        ∧ (told others).ruleErrors.length = (told notes).ruleErrors.length
        ∧ (told others).deleted.length = (told notes).deleted.length) := by
  intro told relative files failed
  have htotals (notes : List Note) : (told notes).totals
      = (rules.rules.map fun r => { ruleId := r.id }).map (addFiles (notes.filterMap Note.file?)) := by
    simp only [told, foldl_record]
    rfl
  refine ⟨?_, fun others h => ?_, ?_, ?_, ?_, ?_, ?_, fun others h => ?_⟩
  · rw [htotals, List.map_map]
    refine List.map_congr_left fun r _ => ?_
    simp [addFiles, files]
  · rw [htotals, htotals]
    refine List.map_congr_left fun t ht => ?_
    have hid : t.ruleId ∈ rules.rules.map Rule.id := by
      obtain ⟨r, hr, rfl⟩ := List.mem_map.1 ht
      exact List.mem_map_of_mem hr
    rw [← addFiles_within hid others, h, addFiles_within hid notes]
  · simp only [told, foldl_record, finish, start, Nat.zero_add]
    rfl
  · simp only [told, foldl_record, finish, start, List.nil_append]
    refine congrArg _ (List.filter_congr fun r _ => ?_)
    rw [FileRecord.isModified, Bool.eq_iff_iff, bne_iff_ne, decide_eq_true_iff]
  · simp only [told, foldl_record, finish, start, List.nil_append]
    rfl
  · simp only [told, foldl_record, finish, start]
    rfl
  · simp only [told, foldl_record, finish, start, List.nil_append]
    rfl
  · have hfiles := h.filterMap Note.file?
    have hfailed := h.filterMap Note.failed?
    refine ⟨by rw [htotals, htotals, addFiles_perm hfiles], ?_⟩
    simp only [told, foldl_record, finish, start, List.length_append, List.length_map]
    refine ⟨by rw [hfiles.length_eq, hfailed.countP_eq], by rw [(hfiles.filter _).length_eq],
      by rw [hfailed.length_eq], ?_, by rw [(h.filterMap _).length_eq]⟩
    rw [(hfiles.flatMap_right _).length_eq]

end Summary

/-! ## What a run hands out -/

namespace Note

def ofResult : Path × Except Error FileRecord → Note
  | (_, .ok r) => file r
  | (p, .error e) => failed p e true

def ofRemovals (report : List (Path × Removal)) : List Note :=
  (Deletion.deleted report).map deleted ++ (Deletion.errors report).map fun (p, e) => failed p e false

end Note

namespace Progress

variable {root : Path} {dryRun : Bool}

theorem note_record (g : Progress) (r : Path × Except Error FileRecord) :
    (g.note root dryRun r).summary = g.summary.record (.ofResult r) := by
  obtain ⟨p, r⟩ := r
  cases r with
  | ok r => exact addRecord_summary g r
  | error e => rfl

theorem foldl_note_record (rs : List (Path × Except Error FileRecord)) (g : Progress) :
    (rs.foldl (note root dryRun) g).summary = (rs.map Note.ofResult).foldl Summary.record g.summary := by
  induction rs generalizing g with
  | nil => rfl
  | cons r rs ih => rw [List.foldl_cons, ih, note_record, List.map_cons, List.foldl_cons]

theorem addRemovals_record (g : Progress) (report : List (Path × Removal)) :
    (g.addRemovals root dryRun report).summary = (Note.ofRemovals report).foldl Summary.record g.summary := by
  rw [Note.ofRemovals, List.foldl_append, List.foldl_map, List.foldl_map, addRemovals]
  simp only [foldl_summary logRemoval_summary]
  rfl

end Progress

namespace RunRequest

variable {q : RunRequest} {d : Disk}

/-- The summary of a run has been told of its removals, and then of the files, one after the other. -/
theorem execute_record {configHash : String} {duration : Nat} {s : Summary}
    (h : (q.execute configHash duration d).outcome = .ok s) :
    ∃ rs skipped, q.Rewrites (q.removals d).2 rs (q.execute configHash duration d).disk
      ∧ (q.execute configHash duration d).records = rs.filterMap (·.2.toOption)
      ∧ s = ((Note.ofRemovals (q.removals d).1 ++ rs.map Note.ofResult).foldl Summary.record
          (.start (d.absolute q.root) q.dryRun q.rules)).finish skipped duration := by
  obtain ⟨w, hrun, rfl, -, hrecords, hdisk⟩ := execute_ok h
  obtain ⟨rs, hrewrites, hvalue⟩ := run_rewrites hrun
  have hopening : (q.opening configHash d).summary = (Note.ofRemovals (q.removals d).1).foldl Summary.record
      (.start (d.absolute q.root) q.dryRun q.rules) := by
    rw [opening, Progress.addRemovals_record, Progress.logDisabled_summary, Progress.log_summary]
  refine ⟨rs, w.skipped, hdisk ▸ hrewrites, ?_, ?_⟩
  · rw [hrecords, hvalue, Progress.foldl_note_records, opening_records, List.nil_append]
  · rw [hvalue, Progress.foldl_note_record, hopening, List.foldl_append]

end RunRequest

end Codemod
