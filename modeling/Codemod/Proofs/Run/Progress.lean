/-
What a run writes down. The lists of the summary grow by what each step adds to them
(`addRemovals_summary`, `foldl_note_summary`), and a run that is not stopped at its root ends with the
summary of its steps taken one after the other (`execute_eq`).
-/
import Codemod.Run.Basic

namespace Codemod

namespace Summary

variable {s : Summary} {p : Path}

theorem foldl_recordDeleted (ps : List Path) (s : Summary) :
    ps.foldl recordDeleted s = { s with deleted := s.deleted ++ ps.map s.relative } := by
  induction ps generalizing s with
  | nil => simp
  | cons p ps ih =>
    rw [List.foldl_cons, ih]
    simp [recordDeleted, relative]

theorem foldl_recordError (es : List (Path × Error)) (s : Summary) :
    es.foldl (fun s (p, e) => s.recordError p e false) s
      = { s with errors := s.errors ++ es.map fun (p, e) => ⟨s.relative p, e.code, e.message⟩ } := by
  induction es generalizing s with
  | nil => simp
  | cons e es ih =>
    rw [List.foldl_cons, ih]
    simp [recordError, relative]

end Summary

namespace Progress

variable {g : Progress} {root p : Path} {dryRun : Bool}

@[simp] theorem log_summary (g : Progress) (e : Event) : (g.log e).summary = g.summary := rfl

/-- Events leave the summary as it is. -/
theorem foldl_summary {β : Type} {f : Progress → β → Progress}
    (hf : ∀ g x, (f g x).summary = g.summary) (xs : List β) (g : Progress) :
    (xs.foldl f g).summary = g.summary := by
  induction xs generalizing g with
  | nil => rfl
  | cons x xs ih => rw [List.foldl_cons, ih, hf]

@[simp] theorem logDisabled_summary (g : Progress) (rules : RuleSet) :
    (g.logDisabled rules).summary = g.summary :=
  foldl_summary (f := fun g (f : RuleFailure) => g.log (.ruleFailed f.ruleId none f.reason))
    (fun _ _ => rfl) _ g

theorem logRemoval_summary (g : Progress) (entry : Path × Removal) :
    (logRemoval root dryRun g entry).summary = g.summary := by
  obtain ⟨p, r⟩ := entry
  cases r <;> rfl

theorem addRemovals_summary (g : Progress) (report : List (Path × Removal)) :
    (g.addRemovals root dryRun report).summary = { g.summary with
      deleted := g.summary.deleted ++ (Deletion.deleted report).map g.summary.relative
      errors := g.summary.errors ++ (Deletion.errors report).map fun (p, e) =>
        ⟨g.summary.relative p, e.code, e.message⟩ } := by
  rw [addRemovals]
  simp only [foldl_summary logRemoval_summary, Summary.foldl_recordDeleted,
    Summary.foldl_recordError]
  rfl

theorem addRecord_summary (g : Progress) (r : FileRecord) :
    (g.addRecord root dryRun r).summary = g.summary.recordFile r := by
  have h := foldl_summary (f := fun g (f : RuleFailure) =>
    g.log (.ruleFailed f.ruleId (some (r.path.relativeTo root)) f.reason)) (fun _ _ => rfl)
    r.failures g
  rw [addRecord]
  simp only
  split <;> simp [h]

theorem finish_summary (g : Progress) (skipped : List SkippedDir) (duration : Nat) :
    (g.finish root skipped duration).summary = g.summary.finish skipped duration := by
  have h := foldl_summary (f := fun g (d : SkippedDir) =>
    g.log (.dirSkipped (d.path.relativeTo root) d.reason)) (fun _ _ => rfl) skipped g
  rw [finish]
  simp [h]

/-- Writes down what came of a file. -/
def note (root : Path) (dryRun : Bool) (g : Progress) :
    Path × Except Error FileRecord → Progress
  | (_, .ok r) => g.addRecord root dryRun r
  | (p, .error e) => g.addError root p e

end Progress

namespace Summary

/-- What a summary lists of a file that was rewritten. -/
def modified? (s : Summary) : Path × Except Error FileRecord → Option FileSummary
  | (_, .ok r) => if r.isModified then some ⟨s.relative r.path, r.hits⟩ else none
  | (_, .error _) => none

/-- What it lists of a file that went wrong. -/
def failed? (s : Summary) : Path × Except Error FileRecord → Option FileError
  | (_, .ok _) => none
  | (p, .error e) => some ⟨s.relative p, e.code, e.message⟩

end Summary

namespace Progress

theorem note_summary (root : Path) (dryRun : Bool) (g : Progress) (r : Path × Except Error FileRecord) :
    (g.note root dryRun r).summary.root = g.summary.root
    ∧ (g.note root dryRun r).summary.deleted = g.summary.deleted
    ∧ (g.note root dryRun r).summary.modified = g.summary.modified ++ (g.summary.modified? r).toList
    ∧ (g.note root dryRun r).summary.errors = g.summary.errors ++ (g.summary.failed? r).toList := by
  obtain ⟨p, r⟩ := r
  cases r with
  | error e => simp [note, addError, Summary.recordError, Summary.modified?, Summary.failed?]
  | ok r =>
    simp only [note, addRecord_summary, Summary.recordFile, Summary.modified?, Summary.failed?]
    by_cases h : r.isModified = true <;> simp [h]

/-- **The lists of the summary grow by what came of each file**, and no other list does. -/
theorem foldl_note_summary (root : Path) (dryRun : Bool)
    (rs : List (Path × Except Error FileRecord)) (g : Progress) :
    (rs.foldl (note root dryRun) g).summary.root = g.summary.root
    ∧ (rs.foldl (note root dryRun) g).summary.deleted = g.summary.deleted
    ∧ (rs.foldl (note root dryRun) g).summary.modified
      = g.summary.modified ++ rs.filterMap g.summary.modified?
    ∧ (rs.foldl (note root dryRun) g).summary.errors
      = g.summary.errors ++ rs.filterMap g.summary.failed? := by
  induction rs generalizing g with
  | nil => simp
  | cons r rs ih =>
    obtain ⟨hroot, hdeleted, hmodified, herrors⟩ := note_summary root dryRun g r
    obtain ⟨ihroot, ihdeleted, ihmodified, iherrors⟩ := ih (g.note root dryRun r)
    have hrelative : (g.note root dryRun r).summary.relative = g.summary.relative := by
      funext p
      rw [Summary.relative, Summary.relative, hroot]
    have hmodified? : (g.note root dryRun r).summary.modified? = g.summary.modified? := by
      funext ⟨p, r⟩
      simp only [Summary.modified?, hrelative]
    have hfailed? : (g.note root dryRun r).summary.failed? = g.summary.failed? := by
      funext ⟨p, r⟩
      simp only [Summary.failed?, hrelative]
    rw [List.foldl_cons, ihroot, ihdeleted, ihmodified, iherrors, hmodified?, hfailed?, hroot,
      hdeleted, hmodified, herrors, List.append_assoc, List.append_assoc]
    refine ⟨rfl, rfl, ?_, ?_⟩
    · cases h : g.summary.modified? r <;> simp [h]
    · cases h : g.summary.failed? r <;> simp [h]

end Progress

namespace RunStep

theorem run_bind {α β : Type} (x : RunStep α) (f : α → RunStep β) (st : RunState) :
    (x >>= f).run.run st = match x.run.run st with
      | (.ok a, st) => (f a).run.run st
      | (.error e, st) => (.error e, st) := by
  change (match x.run.run st with
    | (r, st) => ((ExceptT.bindCont f r).run st)) = _
  rcases h : x.run.run st with ⟨r | r, st⟩ <;> rfl

theorem run_get (st : RunState) : (get : RunStep RunState).run.run st = (.ok st, st) := rfl

theorem run_set (st st' : RunState) : (set st' : RunStep Unit).run.run st = (.ok (), st') := rfl

theorem run_lift {α : Type} (x : Except Error α) (st : RunState) :
    (liftM x : RunStep α).run.run st = (x, st) := by
  cases x <;> rfl

theorem run_note (f : Progress → Progress) (st : RunState) :
    (note f).run.run st = (.ok (), { st with progress := f st.progress }) := rfl

theorem run_enter {phase next : Phase} (h : phase.rank < next.rank) (disk : Disk) (g : Progress) :
    (enter next).run.run ⟨disk, phase, g⟩ = (.ok (), ⟨disk, next, g⟩) := by
  have hadvance : phase.advance next = .ok next := if_pos h
  simp only [enter, run_bind, run_get, run_lift, hadvance, run_set]

end RunStep

namespace RunRequest

variable {q : RunRequest} {root : Path} {d : Disk}

theorem run_remove (st : RunState) : (q.remove root).run.run st =
    (.ok (Deletion.deleted (Deletion.run ⟨root, q.excludedDirs, q.dryRun⟩ q.deletions st.disk).1),
      { st with
        disk := (Deletion.run ⟨root, q.excludedDirs, q.dryRun⟩ q.deletions st.disk).2
        progress := st.progress.addRemovals root q.dryRun
          (Deletion.run ⟨root, q.excludedDirs, q.dryRun⟩ q.deletions st.disk).1 }) := rfl

theorem run_rewrite (gone : List Path) (st : RunState) : (q.rewrite root gone).run.run st =
    match Walk.run (q.walkSettings root gone) (q.process root) st.progress st.disk with
    | .ok w => (.ok w.skipped, { st with disk := w.disk, progress := w.value })
    | .error e => (.error e, st) := by
  simp only [rewrite, RunStep.run_bind, RunStep.run_get, RunStep.run_lift]
  cases Walk.run (q.walkSettings root gone) (q.process root) st.progress st.disk <;> rfl

theorem process_eq (g : Progress) (p : Path) : q.process root d g p =
    (g.note root q.dryRun (p, (rewriteFile d p q.rules q.dryRun).1),
      (rewriteFile d p q.rules q.dryRun).2) := by
  rw [process]
  split <;> rename_i h <;> rw [h] <;> rfl

/-- What is removed before anything is rewritten. -/
def removals (q : RunRequest) (d : Disk) : List (Path × Removal) × Disk :=
  Deletion.run ⟨d.absolute q.root, q.excludedDirs, q.dryRun⟩ q.deletions d

/-- What is written down before anything is rewritten. -/
def opening (q : RunRequest) (configHash : String) (d : Disk) : Progress :=
  let root := d.absolute q.root
  let g : Progress := { summary := .start root q.dryRun q.rules }
  ((g.log (.runStarted root.text configHash q.rules.rules.length q.dryRun)).logDisabled
    q.rules).addRemovals root q.dryRun (q.removals d).1

theorem run_steps (configHash : String) (duration : Nat) (disk : Disk) (start : Progress) :
    (q.steps root configHash duration).run.run ⟨disk, .idle, start⟩ =
      let report := Deletion.run ⟨root, q.excludedDirs, q.dryRun⟩ q.deletions disk
      let g := ((start.log (.runStarted root.text configHash q.rules.rules.length
        q.dryRun)).logDisabled q.rules).addRemovals root q.dryRun report.1
      match Walk.run (q.walkSettings root (Deletion.deleted report.1)) (q.process root) g report.2 with
      | .ok w => (.ok (), ⟨w.disk, .done, w.value.finish root w.skipped duration⟩)
      | .error e => (.error e, ⟨report.2, .rewriting, g⟩) := by
  simp only [steps, RunStep.run_bind, RunStep.run_note]
  rw [RunStep.run_enter (by decide)]
  simp only [run_remove]
  generalize Deletion.run ⟨root, q.excludedDirs, q.dryRun⟩ q.deletions disk = report
  rw [RunStep.run_enter (by decide)]
  simp only
  rw [RunStep.run_enter (by decide)]
  simp only [run_rewrite]
  generalize Progress.addRemovals _ _ _ _ = g
  cases Walk.run (q.walkSettings root (Deletion.deleted report.1)) (q.process root) g report.2 with
  | error e => rfl
  | ok w =>
    simp only
    rw [RunStep.run_enter (by decide)]
    simp only
    rw [RunStep.run_enter (by decide)]

theorem opening_summary (configHash : String) : (q.opening configHash d).summary =
    { Summary.start (d.absolute q.root) q.dryRun q.rules with
      deleted := (Deletion.deleted (q.removals d).1).map fun p =>
        (p.below? (d.absolute q.root)).getD p
      errors := (Deletion.errors (q.removals d).1).map fun (p, e) =>
        ⟨(p.below? (d.absolute q.root)).getD p, e.code, e.message⟩ } := by
  rw [opening, Progress.addRemovals_summary, Progress.logDisabled_summary, Progress.log_summary]
  rfl

/-- **A run removes files, and then walks over what is left.** -/
theorem execute_eq {listed : List Walk.Entry} (configHash : String) (duration : Nat)
    (hroot : Walk.checkRoot d (d.absolute q.root) = .ok listed) :
    q.execute configHash duration d =
      match Walk.run (q.walkSettings (d.absolute q.root) (Deletion.deleted (q.removals d).1))
          (q.process (d.absolute q.root)) (q.opening configHash d) (q.removals d).2 with
      | .ok w =>
        let g := w.value.finish (d.absolute q.root) w.skipped duration
        ⟨.ok g.summary, g.events, g.records, w.disk⟩
      | .error e =>
        ⟨.error e, (q.opening configHash d).events, (q.opening configHash d).records,
          (q.removals d).2⟩ := by
  unfold execute
  simp only
  rw [hroot]
  simp only [run_steps, opening, removals]
  generalize Deletion.run ⟨d.absolute q.root, q.excludedDirs, q.dryRun⟩ q.deletions d = report
  generalize Progress.addRemovals _ _ _ _ = g
  cases Walk.run (q.walkSettings (d.absolute q.root) (Deletion.deleted report.1))
    (q.process (d.absolute q.root)) g report.2 <;> rfl

end RunRequest

end Codemod
