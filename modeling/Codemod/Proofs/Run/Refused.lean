/-
Runs that end in an error. The root is looked at twice, before anything is done and again when the listed
files are gone, and each phase has to come after the one before. Only the first look can fail
(`run_steps_done`): removing files takes no directory away, so that the root is still one
(`leadsTo_removals`), and the phases are entered in their order. A run that ends in an error has
therefore done nothing (`execute_error`).
-/
import Codemod.Proofs.Run.Effect

namespace Codemod

open Disk Node Codemod.Path

variable {d e : Disk} {root : Path} {base : Location} {err : Error} {q : RunRequest}

namespace Walk

theorem checkRoot_error (h : checkRoot d root = .error err) :
    ∃ reason, err = .invalidRoot root reason := by
  rw [checkRoot] at h
  cases hstat : d.stat root with
  | error e =>
    rw [hstat] at h
    exact ⟨e.message, (Except.error.inj h).symm⟩
  | ok n =>
    rw [hstat] at h
    by_cases hn : n.isDir = true
    · cases hes : entriesOf d root with
      | error e =>
        simp only [hn, hes, if_true, Except.mapError] at h
        exact ⟨e.message, (Except.error.inj h).symm⟩
      | ok es => simp [hn, hes, Except.mapError] at h
    · simp only [hn] at h
      exact ⟨"not a directory", (Except.error.inj h).symm⟩

/-- The check passes for directories, and for nothing else. -/
theorem checkRoot_ok_iff : (∃ listed, checkRoot d root = .ok listed) ↔ ∃ base, d.LeadsTo root base := by
  constructor
  · rintro ⟨listed, h⟩
    refine LeadsTo.of_isDir ?_
    rw [checkRoot] at h
    rw [Disk.isDir]
    cases hstat : d.stat root with
    | error e => simp [hstat] at h
    | ok n =>
      rw [hstat] at h
      by_cases hn : n.isDir = true
      · exact hn
      · simp [hn] at h
  · rintro ⟨base, hlead⟩
    obtain ⟨mode, es, hdir⟩ := hlead.get?
    exact ⟨_, checkRoot_dir hlead hdir⟩

end Walk

namespace RunRequest

open Walk

/-- **Removing files takes no directory away**, and no link. -/
theorem removals_sameWays (hlead : d.LeadsTo (d.absolute q.root) base) :
    d.root.SameWays (q.removals d).2.root ∧ (q.removals d).2.workDir = d.workDir := by
  cases hdry : q.dryRun with
  | true =>
    have hsame : (q.removals d).2 = d := Deletion.removeAll_dry hdry
    rw [hsame]
    exact ⟨.refl d.root, rfl⟩
  | false =>
    obtain ⟨gone, -, -, -, hagree⟩ := removals_spec hdry hlead
    exact ⟨hagree.ways, hagree.workDir⟩

theorem leadsTo_removals (hlead : d.LeadsTo (d.absolute q.root) base) :
    (q.removals d).2.LeadsTo (d.absolute q.root) base := by
  obtain ⟨hways, hdir⟩ := removals_sameWays hlead
  exact hlead.of_sameWays hways hdir

/-- **Once the root is a directory, no step fails**: every phase is entered, up to the last one. -/
theorem run_steps_done (configHash : String) (duration : Nat) (start : Progress)
    (hlead : d.LeadsTo (d.absolute q.root) base) : ∃ disk g,
      (q.steps (d.absolute q.root) configHash duration).run.run ⟨d, .idle, start⟩
        = (.ok (), ⟨disk, .done, g⟩) := by
  obtain ⟨listed, hlisted⟩ := checkRoot_ok_iff.2 ⟨base, leadsTo_removals hlead⟩
  rw [removals] at hlisted
  simp only [run_steps, Walk.run, walkSettings, hlisted, Except.map]
  exact ⟨_, _, rfl⟩

theorem leadsTo_of_execute_ok {configHash : String} {duration : Nat} {s : Summary}
    (h : (q.execute configHash duration d).outcome = .ok s) :
    ∃ base, d.LeadsTo (d.absolute q.root) base := by
  refine checkRoot_ok_iff.1 ?_
  cases hroot : checkRoot d (d.absolute q.root) with
  | ok listed => exact ⟨listed, rfl⟩
  | error err =>
    unfold execute at h
    simp [hroot] at h

theorem execute_isOk (configHash : String) (duration : Nat) (hlead : d.LeadsTo (d.absolute q.root) base) :
    ∃ s, (q.execute configHash duration d).outcome = .ok s := by
  obtain ⟨listed, hroot⟩ := checkRoot_ok_iff.2 ⟨base, hlead⟩
  obtain ⟨disk, g, hrun⟩ := run_steps_done (q := q) configHash duration
    { summary := .start (d.absolute q.root) q.dryRun q.rules } hlead
  unfold execute
  simp only [hroot, hrun]
  exact ⟨g.summary, rfl⟩

/-- **A run that ends in an error has changed nothing.** The error is about the root; the disk is as it was,
and nothing has been written down. Where the root passes its first check, it passes the second one,
behind the removals, no step fails, and the run ends well. -/
theorem execute_error (q : RunRequest) (configHash : String) (duration : Nat) (d : Disk) :
    (∀ err, (q.execute configHash duration d).outcome = .error err →
      (∃ reason, err = .invalidRoot (d.absolute q.root) reason)
      ∧ (q.execute configHash duration d).disk = d
      ∧ (q.execute configHash duration d).events = [])
    ∧ ∀ listed, checkRoot d (d.absolute q.root) = .ok listed →
      (∃ listed', checkRoot (q.removals d).2 (d.absolute q.root) = .ok listed')
      ∧ (∀ start, ∃ disk g, (q.steps (d.absolute q.root) configHash duration).run.run ⟨d, .idle, start⟩
        = (.ok (), ⟨disk, .done, g⟩))
      ∧ ∃ s, (q.execute configHash duration d).outcome = .ok s := by
  cases hroot : checkRoot d (d.absolute q.root) with
  | error err =>
    have hstop : q.execute configHash duration d = ⟨.error err, [], [], d⟩ := by
      unfold execute
      simp only [hroot]
    rw [hstop]
    refine ⟨fun err' h => ?_, fun listed h => by cases h⟩
    obtain rfl := Except.error.inj h
    exact ⟨checkRoot_error hroot, rfl, rfl⟩
  | ok listed =>
    obtain ⟨base, hlead⟩ := checkRoot_ok_iff.1 ⟨listed, hroot⟩
    obtain ⟨s, hok⟩ := execute_isOk (q := q) configHash duration hlead
    refine ⟨fun err h => ?_, fun _ _ => ?_⟩
    · rw [hok] at h
      contradiction
    · exact ⟨checkRoot_ok_iff.2 ⟨base, leadsTo_removals hlead⟩,
        fun start => run_steps_done configHash duration start hlead, s, hok⟩

/-- A directory with a file and a link that leads nowhere. -/
def danglingDisk : Disk where
  root := .dir 0o755 [("a.ts", .file "A".toUTF8 0o644), ("gone", .link "nowhere")]
  workDir := []

/-- A run that removes the file, and rewrites what is left. -/
def danglingRequest (root : String) : RunRequest where
  root := ⟨root⟩
  rules := letterRules
  extensions := [".ts"]
  excludedDirs := []
  deletions := [⟨"a.ts"⟩]

theorem find_gone : danglingDisk.find true ⟨"/gone"⟩ = .error .notFound := by
  have hpieces : pathPieces "/gone" = ["gone"] := by decide
  have htarget : pathPieces "nowhere" ++ [] = ["nowhere"] := by decide
  have htext : textRefusal? ⟨"/gone"⟩ = none := by decide
  have hfree : danglingDisk.resolve true ⟨"/gone"⟩ = .ok (.free [] "nowhere") := by
    rw [resolve_eq, htext, hpieces, if_pos (by decide)]
    simp only
    rw [maxLinks, walk_follow ⟨by decide, by decide, by decide⟩ rfl (.inr rfl), htarget, if_neg (by decide),
      walk_free rfl ⟨by decide, by decide, by decide⟩ rfl]
  rw [find, hfree]
  rfl

/-- With the link for a root the file stays, and with its directory for a root the run ends well. -/
theorem execute_error_dangling :
    (∃ err, ((danglingRequest "/gone").execute "" 0 danglingDisk).outcome = .error err)
    ∧ ((danglingRequest "/gone").execute "" 0 danglingDisk).disk = danglingDisk
    ∧ ((danglingRequest "/gone").execute "" 0 danglingDisk).events = []
    ∧ (∃ listed, checkRoot danglingDisk (danglingDisk.absolute (danglingRequest "/").root) = .ok listed)
    ∧ ∃ s, ((danglingRequest "/").execute "" 0 danglingDisk).outcome = .ok s := by
  obtain ⟨err, hgone⟩ : ∃ err,
      ((danglingRequest "/gone").execute "" 0 danglingDisk).outcome = .error err := by
    have hjoin : danglingDisk.here.join (danglingRequest "/gone").root = ⟨"/gone"⟩ := by decide
    have habsolute : danglingDisk.absolute (danglingRequest "/gone").root = ⟨"/gone"⟩ := by
      rw [absolute, hjoin, canonical, find_gone]
      decide
    unfold execute
    simp only [habsolute, checkRoot, stat, find_gone, Except.map]
    exact ⟨_, rfl⟩
  obtain ⟨-, hdisk, hevents⟩ := (execute_error (danglingRequest "/gone") "" 0 danglingDisk).1 err hgone
  obtain ⟨listed, hlisted⟩ : ∃ listed,
      checkRoot danglingDisk (danglingDisk.absolute (danglingRequest "/").root) = .ok listed := by
    rw [danglingRequest, absolute_separator rfl]
    exact checkRoot_ok_iff.2 ⟨[], leadsTo_separator rfl⟩
  exact ⟨⟨err, hgone⟩, hdisk, hevents, ⟨listed, hlisted⟩,
    ((execute_error (danglingRequest "/") "" 0 danglingDisk).2 listed hlisted).2.2⟩

end RunRequest

end Codemod
