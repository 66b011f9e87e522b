/-
The two accounts of a run: the events that it sends while it goes on, and the summary that it ends with. Taken
kind by kind, the events are the lists of the summary (`execute_events`). Of an entry that is refused, the log
has the text as it was given, and the summary the path as seen from the root (`refused_entry_shown`).
-/
import Codemod.Proofs.Run.Trace

namespace Codemod

open Disk Codemod.Path

/-! ## Events by their kind -/

namespace Event

/-- Neither the first event of a run nor its last. -/
def isInner : Event → Bool
  | runStarted .. | runCompleted .. => false
  | _ => true

def deleted? : Event → Option String
  | fileDeleted path _ => some path
  | _ => none

/-- A file that went wrong: its path, the code and the message. -/
def failed? : Event → Option (String × String × String)
  | fileFailed path code message => some (path, code, message)
  | _ => none

/-- A rule that failed: its id, the path of the file and the message. -/
def ruleFailed? : Event → Option (String × Option String × String)
  | ruleFailed ruleId path message => some (ruleId, path, message)
  | _ => none

/-- A file that was rewritten: its path, the hits and the digests before and after. -/
def rewritten? : Event → Option (String × HitCounts × String × String)
  | fileRewritten path hits before after _ => some (path, hits, before, after)
  | _ => none

end Event

/-- What a path is resolved to is absolute. -/
theorem Disk.isAbsolute_absolute (d : Disk) (p : Path) : (d.absolute p).isAbsolute = true := by
  rw [absolute]
  cases hc : d.canonical (d.here.join p) with
  | error err =>
    obtain ⟨l, -, heq⟩ := normalize_eq_pathOf (isAbsolute_join d.workDir p)
    exact heq ▸ isAbsolute_pathOf
  | ok c =>
    rw [canonical] at hc
    split at hc
    · cases hc
    · split at hc
      · cases hc
      · cases hc
        exact isAbsolute_pathOf

/-- A relative path is shown as it is. -/
theorem Path.relativeTo_of_relative {p root : Path} (hroot : root.isAbsolute = true)
    (hp : p.isAbsolute = false) : p.relativeTo root = p.text := by
  have hbelow : p.below? root = none := by
    have hfirst : root.components = .root :: (pieces root.text.toList []).filterMap component? := by
      rw [components, hroot]
      rfl
    have hnot : ¬ .root :: (pieces root.text.toList []).filterMap component? <+: p.components := by
      intro hprefix
      by_cases hne : p.text = ""
      · have hempty : p.components = [] := by
          rw [components, hp, hne]
          decide
        simp [hempty] at hprefix
      · obtain ⟨c, rest, hcomponents, hc⟩ := exists_components_of_relative hp hne
        rw [hcomponents] at hprefix
        exact hc (List.cons_prefix_cons.1 hprefix).1.symm
    rw [below?, hfirst]
    exact if_neg (by simpa [List.isPrefixOf_iff_prefix] using hnot)
  rw [relativeTo, hbelow]
  rfl

/-! ## Kind by kind -/

section Kinds

variable {root : Path} {dryRun : Bool} {s : Summary} {rs : List (Path × Except Error FileRecord)}
  {report : List (Path × Removal)} {fs : List RuleFailure} {path : Option String} {ds : List SkippedDir}

/-! What a list of steps sends of one kind. -/

theorem filterMap_failures {β : Type} {f : Event → Option β}
    (hf : ∀ ruleId path message, f (.ruleFailed ruleId path message) = none) :
    (fs.map (Event.ofFailure path)).filterMap f = [] := by
  simp [List.filterMap_map, List.filterMap_eq_nil_iff, Event.ofFailure, hf]

theorem filterMap_skipped {β : Type} {f : Event → Option β}
    (hf : ∀ path reason, f (.dirSkipped path reason) = none) :
    (ds.map (Event.ofSkipped root)).filterMap f = [] := by
  simp [List.filterMap_map, List.filterMap_eq_nil_iff, Event.ofSkipped, hf]

theorem filterMap_removals {β : Type} {f : Event → Option β}
    (hdeleted : ∀ path dryRun, f (.fileDeleted path dryRun) = none)
    (hfailed : ∀ path code message, f (.fileFailed path code message) = none) :
    (report.filterMap (Event.ofRemoval? root dryRun)).filterMap f = [] := by
  rw [List.filterMap_filterMap, List.filterMap_eq_nil_iff]
  rintro ⟨p, r⟩ -
  cases r with
  | removed q => exact hdeleted _ _
  | missing => rfl
  | failed e => exact hfailed _ _ _

theorem deleted_removals : (report.filterMap (Event.ofRemoval? root dryRun)).filterMap Event.deleted?
    = (Deletion.deleted report).map (·.relativeTo root) := by
  rw [List.filterMap_filterMap, Deletion.deleted, List.map_filterMap]
  refine List.filterMap_congr fun entry _ => ?_
  obtain ⟨p, r⟩ := entry
  cases r <;> rfl

theorem failed_removals : (report.filterMap (Event.ofRemoval? root dryRun)).filterMap Event.failed?
    = (Deletion.errors report).map fun (p, e) => (p.text, e.code, e.message) := by
  rw [List.filterMap_filterMap, Deletion.errors, List.map_filterMap]
  refine List.filterMap_congr fun entry _ => ?_
  obtain ⟨p, r⟩ := entry
  cases r <;> rfl

theorem deleted_results : (rs.flatMap (Event.ofResult root dryRun)).filterMap Event.deleted? = [] := by
  rw [List.filterMap_flatMap, List.flatMap_eq_nil_iff]
  rintro ⟨p, r⟩ -
  cases r with
  | error e => rfl
  | ok r =>
    rw [Event.ofResult, List.filterMap_append, filterMap_failures fun _ _ _ => rfl]
    split <;> rfl

theorem failed_results (hroot : s.root = root) :
    (rs.flatMap (Event.ofResult root dryRun)).filterMap Event.failed?
      = (rs.filterMap s.failed?).map fun e => (e.path.text, e.code, e.reason) := by
  rw [List.filterMap_flatMap, List.filterMap_eq_flatMap_toList, List.map_flatMap]
  refine List.flatMap_congr fun ⟨p, r⟩ _ => ?_
  cases r with
  | error e => rw [← hroot]; rfl
  | ok r =>
    rw [Event.ofResult, List.filterMap_append, filterMap_failures fun _ _ _ => rfl]
    split <;> rfl

theorem ruleFailed_failures : (fs.map (Event.ofFailure path)).filterMap Event.ruleFailed?
    = fs.map fun f => (f.ruleId, path, f.reason) := by
  rw [List.filterMap_map, ← List.filterMap_eq_map]
  rfl

theorem ruleFailed_results : (rs.flatMap (Event.ofResult root dryRun)).filterMap Event.ruleFailed?
    = (rs.flatMap (Summary.failedRules root)).map fun e => (e.ruleId, e.path.map (·.text), e.reason) := by
  rw [List.filterMap_flatMap, List.map_flatMap]
  refine List.flatMap_congr fun ⟨p, r⟩ _ => ?_
  cases r with
  | error e => rfl
  | ok r =>
    rw [Event.ofResult, List.filterMap_append, ruleFailed_failures, Summary.failedRules, List.map_map]
    split <;> exact List.append_nil _

theorem rewritten_results : (rs.flatMap (Event.ofResult root dryRun)).filterMap Event.rewritten?
    = ((rs.filterMap (·.2.toOption)).filter (·.isModified)).map fun r =>
      (r.path.relativeTo root, r.hits, Sha256.hex r.original.toUTF8, Sha256.hex r.content.toUTF8) := by
  rw [List.filterMap_flatMap]
  induction rs with
  | nil => rfl
  | cons r rs ih =>
    obtain ⟨p, r⟩ := r
    rw [List.flatMap_cons, ih]
    cases r with
    | error e => rfl
    | ok r =>
      rw [Event.ofResult, List.filterMap_append, filterMap_failures fun _ _ _ => rfl]
      by_cases h : r.isModified = true
      · simp [h, Event.ofRecord, Event.rewritten?, Except.toOption]
      · simp [h, Except.toOption]

theorem modified_results : rs.filterMap s.modified?
    = ((rs.filterMap (·.2.toOption)).filter (·.isModified)).map fun r => ⟨s.relative r.path, r.hits⟩ := by
  induction rs with
  | nil => rfl
  | cons r rs ih =>
    obtain ⟨p, r⟩ := r
    cases r with
    | error e => exact ih
    | ok r =>
      by_cases h : r.isModified = true
      · simp [h, ih, Summary.modified?, Except.toOption]
      · simp [h, ih, Summary.modified?, Except.toOption]

theorem isInner_of_mem {e : Event}
    (h : e ∈ rs.flatMap (Event.ofResult root dryRun)) : e.isInner = true := by
  obtain ⟨⟨p, r⟩, -, he⟩ := List.mem_flatMap.1 h
  cases r with
  | error err =>
    obtain rfl := List.mem_singleton.1 he
    rfl
  | ok r =>
    rcases List.mem_append.1 he with he | he
    · obtain ⟨f, -, rfl⟩ := List.mem_map.1 he
      rfl
    · split at he
      · obtain rfl := List.mem_singleton.1 he
        rfl
      · cases he

end Kinds

namespace RunRequest

variable {q : RunRequest} {d : Disk} {s : Summary} {rs : List (Path × Except Error FileRecord)}

/-- The events between the first and the last one tell what the summary lists, each kind in its order. Of
the errors the first are those of the refused entries. -/
structure Tells (q : RunRequest) (events : List Event) (records : List FileRecord)
    (refused : List (Path × Error)) (s : Summary) : Prop where
  inner : ∀ e ∈ events, e.isInner = true
  deleted : events.filterMap Event.deleted? = s.deleted.map (·.text)
  failed : ∃ more, events.filterMap Event.failed?
      = refused.map (fun (p, e) => (p.text, e.code, e.message)) ++ more
    ∧ s.errors.map (fun e => (e.path.text, e.code, e.reason))
      = refused.map (fun (p, e) => (p.relativeTo s.root, e.code, e.message)) ++ more
  ruleFailed : events.filterMap Event.ruleFailed?
    = s.ruleErrors.map fun e => (e.ruleId, e.path.map (·.text), e.reason)
  disabled : ∃ more, s.ruleErrors = q.rules.disabled.map (fun f => ⟨f.ruleId, none, f.reason⟩) ++ more
    ∧ ∀ e ∈ more, e.path ≠ none
  rewritten : events.filterMap Event.rewritten?
    = (records.filter (·.isModified)).map fun r =>
      (r.path.relativeTo s.root, r.hits, Sha256.hex r.original.toUTF8, Sha256.hex r.content.toUTF8)
  modified : s.modified
    = (records.filter (·.isModified)).map fun r => ⟨⟨r.path.relativeTo s.root⟩, r.hits⟩

theorem Trace.tells {configHash : String} {duration : Nat} (h : q.Trace configHash duration d s rs) :
    q.Tells (q.innerEvents d s rs) (q.execute configHash duration d).records
      (Deletion.errors (q.removals d).1) s where
  inner := fun e he => by
    rw [innerEvents, List.mem_append, List.mem_append, List.mem_append] at he
    rcases he with ((he | he) | he) | he
    · obtain ⟨f, -, rfl⟩ := List.mem_map.1 he
      rfl
    · obtain ⟨⟨p, r⟩, -, he⟩ := List.mem_filterMap.1 he
      cases r <;> cases he <;> rfl
    · exact isInner_of_mem he
    · obtain ⟨f, -, rfl⟩ := List.mem_map.1 he
      rfl
  deleted := by
    rw [innerEvents, List.filterMap_append, List.filterMap_append, List.filterMap_append,
      filterMap_failures fun _ _ _ => rfl, filterMap_skipped fun _ _ => rfl, deleted_removals,
      deleted_results, h.deleted, List.map_map, List.nil_append, List.append_nil, List.append_nil]
    rfl
  failed := by
    refine ⟨(rs.filterMap s.failed?).map fun e => (e.path.text, e.code, e.reason), ?_, ?_⟩
    · rw [innerEvents, List.filterMap_append, List.filterMap_append, List.filterMap_append,
        filterMap_failures fun _ _ _ => rfl, filterMap_skipped fun _ _ => rfl, failed_removals,
        failed_results rfl, List.nil_append, List.append_nil]
    · rw [h.errors, List.map_append, List.map_map]
      rfl
  ruleFailed := by
    rw [innerEvents, List.filterMap_append, List.filterMap_append, List.filterMap_append,
      ruleFailed_failures, filterMap_removals (fun _ _ => rfl) fun _ _ _ => rfl, ruleFailed_results,
      filterMap_skipped fun _ _ => rfl, h.ruleErrors, List.map_append, List.map_map, List.append_nil,
      List.append_nil]
    rfl
  disabled := by
    refine ⟨_, h.ruleErrors, fun e he => ?_⟩
    obtain ⟨⟨p, r⟩, -, he⟩ := List.mem_flatMap.1 he
    cases r with
    | error err => cases he
    | ok r =>
      obtain ⟨f, -, rfl⟩ := List.mem_map.1 he
      simp
  rewritten := by
    rw [innerEvents, List.filterMap_append, List.filterMap_append, List.filterMap_append,
      filterMap_failures fun _ _ _ => rfl, filterMap_removals (fun _ _ => rfl) fun _ _ _ => rfl,
      rewritten_results, filterMap_skipped fun _ _ => rfl, h.records, List.nil_append, List.nil_append,
      List.append_nil]
  modified := by
    rw [h.modified, modified_results, h.records]
    rfl

/-- A file that was rewritten was read before, and has been replaced if its content is another one. -/
theorem rewriteFile_ok {p : Path} {rules : RuleSet} {dryRun : Bool} {r : FileRecord}
    (h : (rewriteFile d p rules dryRun).1 = .ok r) :
    d.readText p = .ok r.original ∧ r.content = (rules.apply r.original).content
      ∧ (dryRun = false → r.isModified = true →
        d.replaceFile p r.content.toUTF8 = (.ok (), (rewriteFile d p rules dryRun).2)) := by
  rw [rewriteFile] at h ⊢
  cases htext : d.readText p with
  | error e => simp [htext] at h
  | ok text =>
    simp only [htext] at h ⊢
    by_cases hwrite : ((FileRecord.of p text rules).isModified && !dryRun) = true
    · simp only [if_pos hwrite] at h ⊢
      rcases hreplace : d.replaceFile p (FileRecord.of p text rules).content.toUTF8 with ⟨_ | _, e⟩
      · rw [hreplace] at h
        cases h
      · rw [hreplace] at h
        obtain rfl := Except.ok.inj h
        exact ⟨rfl, rfl, fun _ _ => hreplace⟩
    · simp only [if_neg hwrite] at h ⊢
      obtain rfl := Except.ok.inj h
      refine ⟨rfl, rfl, fun hlive hmodified => absurd ?_ hwrite⟩
      rw [hmodified, hlive]
      rfl

theorem mem_of_mem_errors {r : Path × Error} (h : r ∈ Deletion.errors (q.removals d).1) :
    r.1 ∈ q.deletions := by
  obtain ⟨⟨p, o⟩, hmem, ho⟩ := List.mem_filterMap.1 h
  cases o with
  | removed | missing => cases ho
  | failed e =>
    obtain rfl := Option.some.inj ho
    refine Deletion.distinct_subset _ ?_
    rw [← Deletion.removeAll_map_fst ⟨d.absolute q.root, q.excludedDirs, q.dryRun⟩
      (Deletion.realRoot d (d.absolute q.root)) (Path.distinct q.deletions) d]
    exact List.mem_map_of_mem hmem

/-- **The log and the summary of a run tell the same.** Between the event that opens the run and the one that
closes it and counts what the summary lists, the events of each kind are the entries of one list of the
summary. Each file that was rewritten is told with the digests of what was read when its turn came, and of
what took its place. An entry that is refused is logged as it was given, and listed as seen from the root,
which is another text only if it is absolute. -/
theorem execute_events {configHash : String} {duration : Nat}
    (h : (q.execute configHash duration d).outcome = .ok s) : ∃ events rs,
      (q.execute configHash duration d).events =
        .runStarted s.root.text configHash q.rules.rules.length q.dryRun :: events
        ++ [.runCompleted s.scanned s.modified.length (s.errors.length + s.ruleErrors.length) duration
          q.dryRun]
      ∧ q.Tells events (q.execute configHash duration d).records (Deletion.errors (q.removals d).1) s
      ∧ (∀ r ∈ Deletion.errors (q.removals d).1,
        r.1 ∈ q.deletions ∧ (r.1.isAbsolute = false → r.1.relativeTo s.root = r.1.text))
      ∧ ((∀ p ∈ q.deletions, p.isAbsolute = false) →
        events.filterMap Event.failed? = s.errors.map fun e => (e.path.text, e.code, e.reason))
      ∧ q.Rewrites (q.removals d).2 rs (q.execute configHash duration d).disk
      ∧ ∀ r ∈ (q.execute configHash duration d).records, ∃ front now,
        q.Rewrites (q.removals d).2 front now ∧ front ++ [(r.path, .ok r)] <+: rs
        ∧ now.readText r.path = .ok r.original ∧ r.content = (q.rules.apply r.original).content
        ∧ (q.dryRun = false → r.isModified = true →
          (now.replaceFile r.path r.content.toUTF8).1 = .ok ()) := by
  obtain ⟨hroot, rs, htrace⟩ := execute_trace h
  have htells := htrace.tells
  have hrefused : ∀ r ∈ Deletion.errors (q.removals d).1,
      r.1 ∈ q.deletions ∧ (r.1.isAbsolute = false → r.1.relativeTo s.root = r.1.text) := fun r hr =>
    ⟨mem_of_mem_errors hr,
      Path.relativeTo_of_relative (hroot ▸ isAbsolute_absolute d q.root)⟩
  refine ⟨q.innerEvents d s rs, rs, htrace.events, htells, hrefused, fun hall => ?_, htrace.rewrites,
    fun r hr => ?_⟩
  · obtain ⟨more, hfailed, herrors⟩ := htells.failed
    rw [hfailed, herrors]
    refine congrArg (· ++ more) (List.map_congr_left fun ⟨p, e⟩ hr => ?_)
    obtain ⟨hmem, hshown⟩ := hrefused _ hr
    simp only [hshown (hall _ hmem)]
  · rw [htrace.records] at hr
    obtain ⟨⟨p, o⟩, hmem, ho⟩ := List.mem_filterMap.1 hr
    obtain ⟨front, now, hfront, hprefix, hresult⟩ := htrace.rewrites.exists_turn hmem
    cases o with
    | error e => cases ho
    | ok r' =>
      obtain rfl : r' = r := Option.some.inj ho
      obtain rfl := rewriteFile_path hresult.symm
      obtain ⟨hread, hcontent, hwritten⟩ := rewriteFile_ok hresult.symm
      exact ⟨front, now, hfront, hprefix, hread, hcontent, fun hlive hmodified => by
        rw [hwritten hlive hmodified]⟩

/-- The run removes one of two files, rewrites the other, and tells both. -/
theorem execute_events_letters : ∃ s, (lettersRequest.execute "" 0 lettersDisk).outcome = .ok s
    ∧ ∃ events, (lettersRequest.execute "" 0 lettersDisk).events =
        .runStarted s.root.text "" 1 false :: events
        ++ [.runCompleted s.scanned s.modified.length (s.errors.length + s.ruleErrors.length) 0 false]
      ∧ lettersRequest.Tells events (lettersRequest.execute "" 0 lettersDisk).records
        (Deletion.errors (lettersRequest.removals lettersDisk).1) s
      ∧ events.filterMap Event.failed? = s.errors.map fun e => (e.path.text, e.code, e.reason) := by
  obtain ⟨base, hlead⟩ := LeadsTo.of_isDir isDir_lettersRequest
  obtain ⟨s, hok⟩ := execute_isOk (q := lettersRequest) "" 0 hlead
  obtain ⟨events, rs, hevents, htells, -, hfailed, -⟩ := execute_events hok
  exact ⟨s, hok, events, hevents, htells, hfailed (by decide)⟩

/-- A run with an absolute entry to remove. -/
def absoluteRequest : RunRequest := { lettersRequest with deletions := [⟨"/a.ts"⟩] }

/-- The entry is refused; the log has its text, and the summary its path below the root. -/
theorem refused_entry_shown : ∃ s, (absoluteRequest.execute "" 0 lettersDisk).outcome = .ok s
    ∧ (absoluteRequest.execute "" 0 lettersDisk).events.filterMap Event.failed?
      ≠ s.errors.map fun e => (e.path.text, e.code, e.reason) := by
  have habsolute : lettersDisk.absolute absoluteRequest.root = ⟨"/"⟩ := absolute_separator rfl
  have hrefused : Deletion.errors (absoluteRequest.removals lettersDisk).1
      = [(⟨"/a.ts"⟩, .deletionRefused ⟨"/a.ts"⟩ "path must be relative to the run root")] := by
    have hfault : Deletion.textFault? [] ⟨"/a.ts"⟩ = some "path must be relative to the run root" := by
      decide
    rw [removals, habsolute]
    simp only [absoluteRequest, lettersRequest, Deletion.run, Path.distinct, Deletion.removeAll,
      Deletion.removeOne, List.filter_nil]
    rw [hfault]
    rfl
  obtain ⟨base, hlead⟩ : ∃ base, lettersDisk.LeadsTo (lettersDisk.absolute absoluteRequest.root) base :=
    LeadsTo.of_isDir isDir_lettersRequest
  obtain ⟨s, hok⟩ := execute_isOk (q := absoluteRequest) "" 0 hlead
  obtain ⟨hroot, rs, htrace⟩ := execute_trace hok
  obtain ⟨more, hfailed, herrors⟩ := htrace.tells.failed
  rw [habsolute] at hroot
  have hshown : (⟨"/a.ts"⟩ : Path).relativeTo ⟨"/"⟩ = "a.ts" := by decide
  refine ⟨s, hok, fun hsame => ?_⟩
  rw [htrace.events, List.filterMap_append, List.filterMap_cons_none rfl, hfailed, herrors, hrefused,
    hroot] at hsame
  simp [hshown] at hsame

end RunRequest

end Codemod
