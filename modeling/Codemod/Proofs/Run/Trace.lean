/-
What a run sends while it goes on, step by step. The events of a step are a matter of what came of it
(`Event.ofRemoval?`, `Event.ofResult`); files are rewritten one after the other, each on the disk that those
before it left (`Rewrites`); and what a whole run sends and lists is what its removals and its files come to,
one after the other (`execute_trace`).
-/
import Codemod.Proofs.Run.Refused

namespace Codemod

open Disk Codemod.Path

/-! ## What a step sends -/

namespace Event

def ofFailure (path : Option String) (f : RuleFailure) : Event := .ruleFailed f.ruleId path f.reason

def ofRemoval? (root : Path) (dryRun : Bool) : Path × Removal → Option Event
  | (_, .removed p) => some (.fileDeleted (p.relativeTo root) dryRun)
  | (_, .missing) => none
  | (p, .failed e) => some (.fileFailed p.text e.code e.message)

def ofRecord (root : Path) (dryRun : Bool) (r : FileRecord) : Event :=
  .fileRewritten (r.path.relativeTo root) r.hits (Sha256.hex r.original.toUTF8)
    (Sha256.hex r.content.toUTF8) dryRun

def ofResult (root : Path) (dryRun : Bool) : Path × Except Error FileRecord → List Event
  | (_, .ok r) => r.failures.map (ofFailure (some (r.path.relativeTo root)))
      ++ if r.isModified then [ofRecord root dryRun r] else []
  | (p, .error e) => [.fileFailed (p.relativeTo root) e.code e.message]

def ofSkipped (root : Path) (d : SkippedDir) : Event := .dirSkipped (d.path.relativeTo root) d.reason

end Event

namespace Progress

variable {root : Path} {dryRun : Bool}

theorem foldl_log {β : Type} (f : β → Event) (xs : List β) (g : Progress) :
    xs.foldl (fun g x => g.log (f x)) g = { g with events := g.events ++ xs.map f } := by
  induction xs generalizing g with
  | nil => simp
  | cons x xs ih =>
    rw [List.foldl_cons, ih]
    simp [log]

theorem foldl_logRemoval (report : List (Path × Removal)) (g : Progress) :
    report.foldl (logRemoval root dryRun) g
      = { g with events := g.events ++ report.filterMap (Event.ofRemoval? root dryRun) } := by
  induction report generalizing g with
  | nil => simp
  | cons entry report ih =>
    obtain ⟨p, r⟩ := entry
    rw [List.foldl_cons, ih]
    cases r with
    | removed q => simp [logRemoval, log, Event.ofRemoval?]
    | missing => rfl
    | failed e => simp [logRemoval, log, Event.ofRemoval?]

theorem addRecord_events (g : Progress) (r : FileRecord) :
    (g.addRecord root dryRun r).events
      = g.events ++ Event.ofResult root dryRun (r.path, .ok r) := by
  rw [addRecord]
  simp only
  rw [foldl_log (fun f : RuleFailure => .ruleFailed f.ruleId (some (r.path.relativeTo root)) f.reason)]
  by_cases h : r.isModified = true
  · simp only [if_pos h, log, Event.ofResult, List.append_assoc]
    rfl
  · simp only [if_neg h, Event.ofResult, List.append_nil]
    rfl

theorem note_events (g : Progress) (r : Path × Except Error FileRecord) :
    (g.note root dryRun r).events = g.events ++ Event.ofResult root dryRun r := by
  obtain ⟨p, r⟩ := r
  cases r with
  | ok r => exact addRecord_events g r
  | error e => rfl

theorem foldl_note_events (rs : List (Path × Except Error FileRecord)) (g : Progress) :
    (rs.foldl (note root dryRun) g).events = g.events ++ rs.flatMap (Event.ofResult root dryRun) := by
  induction rs generalizing g with
  | nil => simp
  | cons r rs ih => rw [List.foldl_cons, ih, note_events, List.flatMap_cons, List.append_assoc]

theorem note_records (g : Progress) (r : Path × Except Error FileRecord) :
    (g.note root dryRun r).records = g.records ++ r.2.toOption.toList := by
  obtain ⟨p, r⟩ := r
  cases r with
  | ok r =>
    simp only [note, addRecord]
    rw [foldl_log (fun f : RuleFailure => .ruleFailed f.ruleId (some (r.path.relativeTo root)) f.reason)]
    split <;> rfl
  | error e => exact (List.append_nil _).symm

theorem foldl_note_records (rs : List (Path × Except Error FileRecord)) (g : Progress) :
    (rs.foldl (note root dryRun) g).records = g.records ++ rs.filterMap (·.2.toOption) := by
  induction rs generalizing g with
  | nil => simp
  | cons r rs ih =>
    rw [List.foldl_cons, ih, note_records, List.append_assoc, List.filterMap_cons]
    cases r.2.toOption <;> rfl

end Progress

namespace Summary

/-- The rules that a summary lists for one file. -/
def failedRules (root : Path) : Path × Except Error FileRecord → List RuleError
  | (_, .ok r) => r.failures.map fun f => ⟨f.ruleId, some ⟨r.path.relativeTo root⟩, f.reason⟩
  | (_, .error _) => []

end Summary

namespace Progress

variable {root : Path} {dryRun : Bool}

theorem foldl_note_ruleErrors (root : Path) (dryRun : Bool)
    (rs : List (Path × Except Error FileRecord)) (g : Progress) :
    (rs.foldl (note root dryRun) g).summary.ruleErrors
        = g.summary.ruleErrors ++ rs.flatMap (Summary.failedRules g.summary.root)
      ∧ (rs.foldl (note root dryRun) g).summary.dryRun = g.summary.dryRun := by
  induction rs generalizing g with
  | nil => simp
  | cons r rs ih =>
    rw [List.foldl_cons, (ih _).1, (ih _).2, (note_summary root dryRun g r).1, List.flatMap_cons,
      ← List.append_assoc]
    obtain ⟨p, r⟩ := r
    cases r with
    | ok r =>
      simp only [note, addRecord_summary, Summary.recordFile, and_true]
      rfl
    | error e => simp [note, addError, Summary.recordError, Summary.failedRules]

/-- Every file is counted, also one that went wrong. -/
theorem foldl_note_scanned (root : Path) (dryRun : Bool)
    (rs : List (Path × Except Error FileRecord)) (g : Progress) :
    (rs.foldl (note root dryRun) g).summary.scanned = g.summary.scanned + rs.length := by
  induction rs generalizing g with
  | nil => rfl
  | cons r rs ih =>
    have hstep : (g.note root dryRun r).summary.scanned = g.summary.scanned + 1 := by
      obtain ⟨p, r⟩ := r
      cases r with
      | ok r => rw [note, addRecord_summary, Summary.recordFile]
      | error e => rfl
    rw [List.foldl_cons, ih, hstep, List.length_cons]
    omega

theorem logDisabled_events (g : Progress) (rules : RuleSet) :
    (g.logDisabled rules).events = g.events ++ rules.disabled.map (Event.ofFailure none) := by
  rw [logDisabled, foldl_log fun f : RuleFailure => .ruleFailed f.ruleId none f.reason]
  rfl

theorem addRemovals_events (g : Progress) (report : List (Path × Removal)) :
    (g.addRemovals root dryRun report).events
      = g.events ++ report.filterMap (Event.ofRemoval? root dryRun) := by
  rw [addRemovals, foldl_logRemoval]

theorem finish_events (g : Progress) (skipped : List SkippedDir) (duration : Nat) :
    (g.finish root skipped duration).events = g.events ++ skipped.map (Event.ofSkipped root)
      ++ [.runCompleted g.summary.scanned g.summary.modified.length
        (g.summary.errors.length + g.summary.ruleErrors.length) duration g.summary.dryRun] := by
  rw [finish, foldl_log fun d : SkippedDir => .dirSkipped (d.path.relativeTo root) d.reason]
  rfl

theorem finish_records (g : Progress) (skipped : List SkippedDir) (duration : Nat) :
    (g.finish root skipped duration).records = g.records := by
  rw [finish, foldl_log fun d : SkippedDir => .dirSkipped (d.path.relativeTo root) d.reason]
  rfl

theorem addRemovals_records (g : Progress) (report : List (Path × Removal)) :
    (g.addRemovals root dryRun report).records = g.records := by
  rw [addRemovals, foldl_logRemoval]

theorem logDisabled_records (g : Progress) (rules : RuleSet) :
    (g.logDisabled rules).records = g.records := by
  rw [logDisabled, foldl_log fun f : RuleFailure => .ruleFailed f.ruleId none f.reason]

end Progress

/-! ## One visit after the other -/

namespace Walk

variable {α : Type} {s : Settings} {visit : Visit α} {motive : Disk → α → Prop}

/-- What every visit keeps, a walk keeps. -/
theorem visitEntry_rec (hvisit : ∀ d v p, motive d v → motive (visit d v p).2 (visit d v p).1)
    (depth : Nat) (e : Entry) {st : State α} (h : motive st.disk st.value) :
    motive (visitEntry s visit depth st e).disk (visitEntry s visit depth st e).value := by
  obtain ⟨p, isDir⟩ := e
  have hfile (depth : Nat) (p : Path) {st : State α} (h : motive st.disk st.value) :
      motive (visitEntry s visit depth st ⟨p, false⟩).disk
        (visitEntry s visit depth st ⟨p, false⟩).value := by
    rw [visitEntry_file]
    split
    · exact hvisit _ _ _ h
    · exact h
  induction depth generalizing st p isDir with
  | zero =>
    cases isDir with
    | true => exact h
    | false => exact hfile 0 p h
  | succ depth ih =>
    cases isDir with
    | true =>
      cases hes : entriesOf st.disk p with
      | error err =>
        rw [visitEntry_refused visit depth st hes]
        split <;> exact h
      | ok es =>
        rw [visitEntry_dir visit depth st hes]
        split
        · exact h
        · exact List.foldlRecOn (motive := fun st : State α => motive st.disk st.value) es _ h
            fun _ h e _ => ih h e.path e.isDir
    | false => exact hfile (depth + 1) p h

theorem run_rec (hvisit : ∀ d v p, motive d v → motive (visit d v p).2 (visit d v p).1) {d : Disk}
    {start : α} {w : State α} (hstart : motive d start) (h : run s visit start d = .ok w) :
    motive w.disk w.value := by
  rw [run] at h
  cases hroot : checkRoot d s.root with
  | error err => simp [hroot, Except.map] at h
  | ok es =>
    rw [hroot] at h
    obtain rfl := Except.ok.inj h
    exact List.foldlRecOn (motive := fun st : State α => motive st.disk st.value) es _ hstart
      fun _ h e _ => visitEntry_rec hvisit _ e h

end Walk

namespace RunRequest

variable {q : RunRequest} {d e : Disk} {root : Path} {g : Progress}

/-- Files are rewritten one after the other, each on the disk that those before it have left: the first
disk, what came of each file, and the last disk. -/
inductive Rewrites (q : RunRequest) (d : Disk) : List (Path × Except Error FileRecord) → Disk → Prop
  | none : Rewrites q d [] d
  | more {rs : List (Path × Except Error FileRecord)} {e : Disk} (p : Path) : Rewrites q d rs e →
      Rewrites q d (rs ++ [(p, (rewriteFile e p q.rules q.dryRun).1)]) (rewriteFile e p q.rules q.dryRun).2

/-- A walk rewrites files one after the other, and notes what came of each. -/
theorem run_rewrites {s : Walk.Settings} {w : Walk.State Progress}
    (h : Walk.run s (q.process root) g d = .ok w) :
    ∃ rs, q.Rewrites d rs w.disk ∧ w.value = rs.foldl (Progress.note root q.dryRun) g := by
  refine Walk.run_rec (motive := fun e v => ∃ rs, q.Rewrites d rs e
    ∧ v = rs.foldl (Progress.note root q.dryRun) g) ?_ ⟨[], .none, rfl⟩ h
  rintro e _ p ⟨rs, hrs, rfl⟩
  rw [process_eq]
  exact ⟨_, hrs.more p, by rw [List.foldl_append]; rfl⟩

/-- Each file had its turn: it was rewritten on the disk that those before it left. -/
theorem Rewrites.exists_turn {rs : List (Path × Except Error FileRecord)}
    {r : Path × Except Error FileRecord} (h : q.Rewrites d rs e) (hmem : r ∈ rs) :
    ∃ front now, q.Rewrites d front now ∧ front ++ [r] <+: rs
      ∧ r.2 = (rewriteFile now r.1 q.rules q.dryRun).1 := by
  induction h with
  | none => cases hmem
  | @more front now p h ih =>
    rcases List.mem_append.1 hmem with hmem | hmem
    · obtain ⟨front', now', h', hprefix, heq⟩ := ih hmem
      exact ⟨front', now', h', hprefix.trans (List.prefix_append _ _), heq⟩
    · obtain rfl := List.mem_singleton.1 hmem
      exact ⟨front, now, h, List.prefix_refl _, rfl⟩

theorem opening_events (configHash : String) : (q.opening configHash d).events =
    .runStarted (d.absolute q.root).text configHash q.rules.rules.length q.dryRun
      :: q.rules.disabled.map (Event.ofFailure none)
        ++ (q.removals d).1.filterMap (Event.ofRemoval? (d.absolute q.root) q.dryRun) := by
  rw [opening, Progress.addRemovals_events, Progress.logDisabled_events]
  rfl

theorem opening_records (configHash : String) : (q.opening configHash d).records = [] := by
  rw [opening, Progress.addRemovals_records, Progress.logDisabled_records]
  rfl

/-- What a run that ends well leaves is what its steps leave. -/
theorem execute_ok {configHash : String} {duration : Nat} {s : Summary}
    (h : (q.execute configHash duration d).outcome = .ok s) :
    ∃ w, Walk.run (q.walkSettings (d.absolute q.root) (Deletion.deleted (q.removals d).1))
        (q.process (d.absolute q.root)) (q.opening configHash d) (q.removals d).2 = .ok w
      ∧ s = w.value.summary.finish w.skipped duration
      ∧ (q.execute configHash duration d).events
        = (w.value.finish (d.absolute q.root) w.skipped duration).events
      ∧ (q.execute configHash duration d).records = w.value.records
      ∧ (q.execute configHash duration d).disk = w.disk := by
  cases hroot : Walk.checkRoot d (d.absolute q.root) with
  | error err =>
    unfold execute at h
    simp [hroot] at h
  | ok listed =>
    rw [execute_eq configHash duration hroot] at h ⊢
    cases hrun : Walk.run (q.walkSettings (d.absolute q.root) (Deletion.deleted (q.removals d).1))
        (q.process (d.absolute q.root)) (q.opening configHash d) (q.removals d).2 with
    | error err => simp [hrun] at h
    | ok w =>
      rw [hrun] at h
      exact ⟨w, rfl, (Except.ok.inj h).symm.trans (Progress.finish_summary ..), rfl,
        Progress.finish_records w.value w.skipped duration, rfl⟩

/-- The events between the first and the last one: rules that are off, removals, files, and directories that
could not be listed. -/
def innerEvents (q : RunRequest) (d : Disk) (s : Summary) (rs : List (Path × Except Error FileRecord)) :
    List Event :=
  q.rules.disabled.map (Event.ofFailure none)
    ++ (q.removals d).1.filterMap (Event.ofRemoval? s.root q.dryRun)
    ++ rs.flatMap (Event.ofResult s.root q.dryRun)
    ++ s.skipped.map (Event.ofSkipped s.root)

/-- What a run that ends well sends and lists, step by step. -/
structure Trace (q : RunRequest) (configHash : String) (duration : Nat) (d : Disk) (s : Summary)
    (rs : List (Path × Except Error FileRecord)) : Prop where
  rewrites : q.Rewrites (q.removals d).2 rs (q.execute configHash duration d).disk
  events : (q.execute configHash duration d).events =
    .runStarted s.root.text configHash q.rules.rules.length q.dryRun :: q.innerEvents d s rs
      ++ [.runCompleted s.scanned s.modified.length (s.errors.length + s.ruleErrors.length) duration
        q.dryRun]
  records : (q.execute configHash duration d).records = rs.filterMap (·.2.toOption)
  scanned : s.scanned = rs.length
  deleted : s.deleted = (Deletion.deleted (q.removals d).1).map s.relative
  modified : s.modified = rs.filterMap s.modified?
  errors : s.errors = (Deletion.errors (q.removals d).1).map (fun (p, e) =>
      ⟨s.relative p, e.code, e.message⟩) ++ rs.filterMap s.failed?
  ruleErrors : s.ruleErrors = q.rules.disabled.map (fun f => ⟨f.ruleId, none, f.reason⟩)
    ++ rs.flatMap (Summary.failedRules s.root)

theorem execute_trace {configHash : String} {duration : Nat} {s : Summary}
    (h : (q.execute configHash duration d).outcome = .ok s) :
    s.root = d.absolute q.root ∧ ∃ rs, q.Trace configHash duration d s rs := by
  obtain ⟨w, hrun, rfl, hevents, hrecords, hdisk⟩ := execute_ok h
  obtain ⟨rs, hrewrites, hvalue⟩ := run_rewrites hrun
  obtain ⟨hroot, hdeleted, hmodified, herrors⟩ := Progress.foldl_note_summary (d.absolute q.root)
    q.dryRun rs (q.opening configHash d)
  obtain ⟨hrules, hdry⟩ := Progress.foldl_note_ruleErrors (d.absolute q.root) q.dryRun rs
    (q.opening configHash d)
  rw [← hvalue] at hroot hdeleted hmodified herrors hrules hdry
  have hopening := opening_summary (q := q) (d := d) configHash
  have hsroot : w.value.summary.root = d.absolute q.root := by rw [hroot, hopening]; rfl
  have hrelative : (w.value.summary.finish w.skipped duration).relative
      = (q.opening configHash d).summary.relative := by
    funext p
    simp only [Summary.relative, Summary.finish, hroot]
  refine ⟨hsroot, rs, ⟨hdisk ▸ hrewrites, ?_, ?_, ?_, ?_, ?_, ?_, ?_⟩⟩
  · have hq : w.value.summary.dryRun = q.dryRun := by rw [hdry, hopening]; rfl
    rw [hevents, Progress.finish_events, hvalue, Progress.foldl_note_events, opening_events, ← hvalue, hq]
    simp only [innerEvents, Summary.finish, hsroot, List.cons_append, List.append_assoc]
  · rw [hrecords, hvalue, Progress.foldl_note_records, opening_records, List.nil_append]
  · have hscanned : w.value.summary.scanned = 0 + rs.length := by
      rw [hvalue, Progress.foldl_note_scanned, hopening]
      rfl
    exact hscanned.trans (Nat.zero_add _)
  · rw [hrelative]
    exact hdeleted.trans (by rw [hopening]; rfl)
  · have hmodified? : (w.value.summary.finish w.skipped duration).modified?
        = (q.opening configHash d).summary.modified? := by
      funext entry
      obtain ⟨p, r⟩ := entry
      simp only [Summary.modified?, hrelative]
    rw [hmodified?]
    exact hmodified.trans (by rw [hopening]; rfl)
  · have hfailed? : (w.value.summary.finish w.skipped duration).failed?
        = (q.opening configHash d).summary.failed? := by
      funext entry
      obtain ⟨p, r⟩ := entry
      simp only [Summary.failed?, hrelative]
    rw [hfailed?, hrelative]
    exact herrors.trans (by rw [hopening]; rfl)
  · exact hrules.trans (by rw [hopening, ← hsroot]; rfl)

end RunRequest

end Codemod
