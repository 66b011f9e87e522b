/-
A dry run says what a live one would do. It leaves the disk as it is, and comes to the same findings as the
live run (`execute_dry`): the entries to remove are reported alike (`removals_report`), the files that are
gone in the live run are left out in the dry one (`leavesOut_removals`), and what comes of each other file is
the same but for whether it was written (`rewriteFile_preview`), if it could be.
-/
import Codemod.Proofs.Run.Apart
import Codemod.Proofs.Run.Effect
import Codemod.Proofs.Run.Skipped

namespace Codemod

open Disk Node Codemod.Path Text

/-! ## What is found -/

namespace Summary

/-- What a summary says, whether of a dry run or a live one, and however long it took. -/
def findings (s : Summary) : Summary := { s with dryRun := false, duration := 0 }

/-- Adds what came of a file. -/
def note (s : Summary) : Path × Except Error FileRecord → Summary
  | (_, .ok r) => s.recordFile r
  | (p, .error e) => s.recordError p e true

theorem findings_note (s : Summary) (r : Path × Except Error FileRecord) :
    (s.note r).findings = s.findings.note r := by
  obtain ⟨p, _ | r⟩ := r <;> rfl

theorem findings_foldl_note (s : Summary) (rs : List (Path × Except Error FileRecord)) :
    (rs.foldl note s).findings = rs.foldl note s.findings := by
  induction rs generalizing s with
  | nil => rfl
  | cons r rs ih => rw [List.foldl_cons, List.foldl_cons, ih, findings_note]

theorem findings_finish (s : Summary) (skipped : List SkippedDir) (duration : Nat) :
    (s.finish skipped duration).findings = { s.findings with skipped } := rfl

end Summary

theorem Progress.foldl_note_eq (root : Path) (dryRun : Bool)
    (rs : List (Path × Except Error FileRecord)) (g : Progress) :
    (rs.foldl (note root dryRun) g).summary = rs.foldl Summary.note g.summary := by
  induction rs generalizing g with
  | nil => rfl
  | cons r rs ih =>
    rw [List.foldl_cons, List.foldl_cons, ih]
    obtain ⟨p, e | r⟩ := r
    · rfl
    · rw [note, addRecord_summary]
      rfl

/-- A record of a file, whether the file was written or not. -/
def FileRecord.unwritten (r : FileRecord) : FileRecord := { r with written := false }

/-- Whether files were written is none of the findings. -/
theorem Summary.note_unwritten (s : Summary) (p : Path) (r : Except Error FileRecord) :
    s.note (p, r.map FileRecord.unwritten) = s.note (p, r) := by
  cases r <;> rfl

variable {d e : Disk} {l base front loc : Location} {x : String} {q : RunRequest} {p root : Path}
  {places : List Location} {rules : RuleSet}

/-! ## One file -/

theorem rewriteFile_dry (d : Disk) (p : Path) (rules : RuleSet) : (rewriteFile d p rules true).2 = d := by
  rw [rewriteFile]
  cases d.readText p with
  | error e => rfl
  | ok text => simp

/-- A file in a directory that nothing keeps from being replaced: it may be written, the name of the second
file is free, and that name is short enough wherever that of the file is. -/
structure Disk.Replaceable (d : Disk) (dir : Location) (x : String) : Prop where
  writable : ∀ c k, d.root.get? (dir ++ [x]) = some (.file c k) → (Node.file c k).isReadOnly = false
  free : d.root.get? (dir ++ [tempName x]) = none
  short : refusal? (pathOf (dir ++ [x])) = none → refusal? (pathOf (dir ++ [tempName x])) = none

/-- What comes of a file that can be replaced is the same but for whether it was written. -/
theorem rewritten_dry {temp : Path} {c : ByteArray} {k : Nat}
    (h : refusal? p = none → writeRefusal? p temp (.file c k) = none) :
    rewritten rules true p temp c k
      = (rewritten rules false p temp c k).map FileRecord.unwritten := by
  rw [rewritten, rewritten]
  cases hp : refusal? p with
  | some e => rfl
  | none =>
    simp only
    cases Utf8.decode c with
    | error fault => rfl
    | ok text =>
      simp only [h hp, Bool.not_true, Bool.and_false, Bool.false_eq_true, if_false]
      split <;> rfl

theorem Disk.LeadsTo.eq_of_unlinked (h : d.LeadsTo (pathOf l) base) (hl : ∀ s ∈ l, IsName s)
    (hnone : ∀ loc t, d.root.get? loc ≠ some (.link t)) : base = l := by
  obtain ⟨mode, es, h⟩ := h
  have hup : ".." ∉ pathPieces (pathOf l).text := by
    rw [pathPieces_pathOf hl]
    exact fun hmem => (hl _ hmem).ne_up rfl
  rw [eq_spelled hnone hup (find_eq_ok.2 h), spelled_pathOf hl]

/-- **What a dry run says of a file is what comes of it**, once other files are gone. -/
theorem Placed.rewriteFile_preview (h : Placed d p loc)
    (hnone : ∀ loc t, d.root.get? loc ≠ some (.link t)) (hagree : d.AgreeBut e places)
    (hshrinks : d.Shrinks e) (hloc : loc ∉ places)
    (hready : ∀ dir x, loc = dir ++ [x] → d.Replaceable dir x) :
    (rewriteFile d p rules true).1 = (rewriteFile e p rules false).1.map FileRecord.unwritten := by
  obtain @⟨l, base, x, hlead, hl, hx, ⟨c, k, hfile⟩, -⟩ := h
  obtain rfl := hlead.eq_of_unlinked hl hnone
  have hready := hready base x rfl
  have hlead' := hagree.leadsTo hlead
  obtain ⟨mode, es, hdir⟩ := hlead.get?
  obtain ⟨mode', es', hdir'⟩ := hlead'.get?
  have hwrite (hr : refusal? (pathOf (base ++ [x])) = none) :
      writeRefusal? (pathOf (base ++ [x])) (pathOf (base ++ [tempName x])) (.file c k) = none :=
    writeRefusal?_eq_none.2 ⟨hr, hready.writable c k hfile, hready.short hr⟩
  rw [Codemod.rewriteFile_eq hlead hl hx hdir ((get?_concat hdir x).symm.trans hfile)
      ((get?_concat hdir _).symm.trans hready.free),
    Codemod.rewriteFile_eq hlead' hl hx hdir' ((get?_concat hdir' x).symm.trans (hagree.file hloc hfile))
      ((get?_concat hdir' _).symm.trans (hshrinks.get?_eq_none hready.free)),
    rewritten_dry hwrite]
  cases rewritten rules false (pathOf (base ++ [x])) (pathOf (base ++ [tempName x])) c k <;> rfl

theorem Walk.isCandidate_of_skipped {s : Walk.Settings} {skipped : Path} (hmem : skipped ∈ s.skip)
    (h : skipped.components = p.components) : Walk.isCandidate s p = false := by
  have hskip : s.skip.any (fun q => q.components == p.components) = true :=
    List.any_eq_true.2 ⟨skipped, hmem, by simpa using h⟩
  rw [Walk.isCandidate]
  split
  · rfl
  · simp [hskip]

namespace RunRequest

open Walk

/-! ## The files that are removed -/

/-- A request, for a dry run or a live one. -/
def withDryRun (q : RunRequest) (dryRun : Bool) : RunRequest := { q with dryRun }

section Removals

variable (hnone : ∀ loc t, d.root.get? loc ≠ some (.link t))
  (hapart : Deletion.Apart (Path.distinct q.deletions)) (hroot : d.absolute q.root = pathOf l)
  (hl : ∀ s ∈ l, IsName s)

include hnone hapart hroot hl

/-- A dry run reports what a live one does, and removes nothing. -/
theorem removals_report (hd : d.root.isDir = true) :
    (q.withDryRun true).removals d = (((q.withDryRun false).removals d).1, d) := by
  have hreport : ((q.withDryRun false).removals d).1 = ((q.withDryRun true).removals d).1 :=
    Deletion.removeAll_report (s := ⟨d.absolute q.root, q.excludedDirs, false⟩) hroot hl rfl hd hnone
      hapart (.refl _) rfl fun _ _ _ => ⟨fun _ _ => rfl, fun _ _ _ => hnone _ _⟩
  have hdisk : ((q.withDryRun true).removals d).2 = d := Deletion.removeAll_dry rfl
  rw [hreport]
  exact Prod.ext rfl hdisk

omit hapart in
/-- **The walk of a live run leaves out what has been removed**, and that of a dry run what would be. -/
theorem leavesOut_removals (hd : d.WellNamed) (hlead : d.LeadsTo (pathOf l) base) : ∃ places,
    LeavesOut (q.walkSettings (pathOf l) (Deletion.deleted ((q.withDryRun false).removals d).1)) d
      ((q.withDryRun false).removals d).2 l base places := by
  obtain ⟨gone, hdeleted, hgone, -, hagree⟩ :=
    removals_spec (q := q.withDryRun false) rfl (hroot ▸ hlead)
  refine ⟨gone.map (·.2), hagree, ?_, ?_, fun names hmem => ?_⟩
  · intro loc hloc
    obtain ⟨g, hg, rfl⟩ := List.mem_map.1 hloc
    exact (hgone g hg).2.2
  · intro loc hloc
    obtain ⟨g, hg, rfl⟩ := List.mem_map.1 hloc
    exact (hgone g hg).2.1.exists_file
  · obtain ⟨g, hg, heq⟩ := List.mem_map.1 hmem
    obtain rfl := hlead.eq_of_unlinked hl hnone
    refine isCandidate_of_skipped ?_ (heq ▸ (hgone g hg).2.1.components_eq hroot hl hnone hd)
    rw [walkSettings, hdeleted]
    exact List.mem_map_of_mem hg

end Removals

/-! ## The files that are rewritten -/

theorem visitAll_dry (root : Path) (ps : List Path) (g : Progress) :
    (visitAll ((q.withDryRun true).process root) ps (g, d)).2 = d := by
  induction ps generalizing g with
  | nil => rfl
  | cons p ps ih =>
    have hstep : (q.withDryRun true).process root d g p
        = (((q.withDryRun true).process root d g p).1, d) := by
      refine Prod.ext rfl ?_
      rw [process_eq]
      exact rewriteFile_dry d p q.rules
    rw [visitAll, List.foldl_cons, hstep]
    exact ih _

/-- What one walk comes to, a walk that leaves the same files out comes to. -/
theorem findings_foldl (root : Path) (ps : List Path) {g g' : Progress}
    (hg : g.summary.findings = g'.summary.findings)
    (hresult : ∀ p ∈ ps, (rewriteFile d p q.rules true).1
      = (rewriteFile e p q.rules false).1.map FileRecord.unwritten) :
    ((ps.map ((q.withDryRun true).result d)).foldl (Progress.note root true) g).summary.findings
      = ((ps.map ((q.withDryRun false).result e)).foldl (Progress.note root false) g').summary.findings
    := by
  rw [Progress.foldl_note_eq, Progress.foldl_note_eq, Summary.findings_foldl_note,
    Summary.findings_foldl_note, hg]
  generalize g'.summary.findings = s
  induction ps generalizing s with
  | nil => rfl
  | cons p ps ih =>
    rw [List.forall_mem_cons] at hresult
    have hnote : s.note ((q.withDryRun true).result d p) = s.note ((q.withDryRun false).result e p) := by
      rw [result, result, ← s.note_unwritten p (rewriteFile e p _ _).1]
      exact congrArg (fun r => s.note (p, r)) hresult.1
    rw [List.map_cons, List.map_cons, List.foldl_cons, List.foldl_cons, hnote]
    exact ih hresult.2 _

/-- **The walk of a dry run previews that of a live one**, which starts without the files that both leave
out. -/
theorem run_preview {skip : List Path} (g g' : Progress) (hd : d.WellNamed)
    (hnone : ∀ loc t, d.root.get? loc ≠ some (.link t)) (hl : ∀ s ∈ l, IsName s)
    (hlead : d.LeadsTo (pathOf l) base)
    (hleaves : LeavesOut (q.walkSettings (pathOf l) skip) d e l base places)
    (hready : ∀ dir x, q.Candidate d base (dir ++ [x]) → d.Replaceable (base ++ dir) x)
    (hg : g.summary.findings = g'.summary.findings) : ∃ w w',
      Walk.run (q.walkSettings (pathOf l) skip) ((q.withDryRun true).process (pathOf l)) g d = .ok w
      ∧ Walk.run (q.walkSettings (pathOf l) skip) ((q.withDryRun false).process (pathOf l)) g' e = .ok w'
      ∧ w.disk = d ∧ w.skipped = w'.skipped
      ∧ w.value.summary.findings = w'.value.summary.findings := by
  obtain ⟨mode, es, hdir⟩ := hlead.get?
  obtain ⟨mode', es', hdir'⟩ := hleaves.agree.ways.dir hdir
  have hshrinks : d.Shrinks e := .of_agreeBut hleaves.agree hleaves.gone
  have hreplace (names : Location) (helig : Eligible (q.walkSettings (pathOf l) skip) d l base names)
      (front : Location) (x : String) (heq : base ++ names = front ++ [x]) : d.Replaceable front x := by
    have hc := Candidate.of_eligible helig (helig.ne_nil hdir) (helig.names hd hl)
    obtain ⟨dir, y, rfl⟩ := (List.eq_nil_or_concat names).resolve_left (helig.ne_nil hdir)
    rw [List.concat_eq_append] at hc heq
    rw [← List.append_assoc] at heq
    obtain ⟨rfl, hx⟩ := List.append_inj' heq rfl
    exact List.singleton_inj.1 hx ▸ hready dir y hc
  obtain ⟨all, hnodup, hall, hreached, hrun⟩ := run_placed (q := q.withDryRun true) hd hl hlead hdir
    skip g fun names helig hparent => .of_free hd hl (helig.ne_nil hdir)
      (fun front x heq => (hreplace names helig front x heq).free) helig hparent
  obtain ⟨all', hnodup', hall', hreached', hrun'⟩ := run_placed (q := q.withDryRun false)
    (hshrinks.wellNamed hd) hl (hleaves.agree.leadsTo hlead) hdir' skip g'
    fun names helig hparent => by
      obtain ⟨c, k, hfile⟩ := helig.file
      refine .of_free (hshrinks.wellNamed hd) hl (helig.ne_nil hdir') (fun front x heq => ?_) helig hparent
      exact hshrinks.get?_eq_none (hreplace names ⟨⟨c, k, hshrinks.file hfile⟩, helig.unexcluded,
        helig.candidate⟩ front x heq).free
  have hvalue := (visitAll_process (q := q.withDryRun true) (pathOf l) g hnodup
    (fun names hmem => (hall names hmem).2) (.refl d) (fun _ _ => rfl)).1
  have hvalue' := (visitAll_process (q := q.withDryRun false) (pathOf l) g' hnodup'
    (fun names hmem => (hall' names hmem).2) (.refl e) (fun _ _ => rfl)).1
  have hdepth : (Node.dir mode es).height ≤ d.root.height + 1 :=
    Nat.le_succ_of_le (height_le_of_get? hdir)
  have hdepth' : (Node.dir mode' es').height ≤ e.root.height + 1 :=
    Nat.le_succ_of_le (height_le_of_get? hdir')
  obtain ⟨hsame, hunlisted⟩ := reached_without hleaves hd
    (show ∀ s ∈ l ++ [], IsName s by simpa using hl) (by simpa using hlead) (by simpa using hdir)
    (by simpa using hdir') hdepth hdepth'
  rw [List.append_nil] at hsame hunlisted
  have hpaths : all'.map (fun names => pathOf (l ++ names)) = all.map fun names => pathOf (l ++ names) :=
    hreached'.trans (hsame.trans hreached.symm)
  have hmap (q : RunRequest) (d : Disk) (all : List Location) :
      all.map (fun names => q.result d (pathOf (l ++ names)))
        = (all.map fun names => pathOf (l ++ names)).map (q.result d) := by
    rw [List.map_map]
    rfl
  rw [hmap] at hvalue
  rw [hmap, hpaths] at hvalue'
  refine ⟨_, _, hrun, hrun', visitAll_dry _ _ _, hunlisted.symm, ?_⟩
  simp only [State.after, hvalue, hvalue', hpaths]
  refine findings_foldl (pathOf l) _ hg fun p hp => ?_
  obtain ⟨names, hmem, rfl⟩ := List.mem_map.1 hp
  obtain ⟨helig, hplaced⟩ := hall names hmem
  refine hplaced.rewriteFile_preview hnone hleaves.agree hshrinks (fun hgone => ?_) (hreplace names helig)
  have hcandidate : isCandidate (q.walkSettings (pathOf l) skip) (pathOf (l ++ names)) = true :=
    helig.candidate
  rw [hleaves.skipped names hgone] at hcandidate
  cases hcandidate

/-- The run on two files, with one to remove that is there and one that is not. -/
def previewRequest : RunRequest := { lettersRequest with deletions := [⟨"./b.ts"⟩, ⟨"b/c.ts"⟩] }

theorem get?_lettersDisk {n : Node} (h : lettersDisk.root.get? loc = some n) : loc = []
    ∨ (loc = ["a.ts"] ∨ loc = ["b.ts"]) ∧ n = .file "A".toUTF8 0o644 := by
  cases loc with
  | nil => exact .inl rfl
  | cons x rest =>
    obtain ⟨m, hm, h⟩ := Option.bind_eq_some_iff.1 h
    have hmem := mem_of_get? hm
    simp only [List.mem_cons, Prod.mk.injEq, List.not_mem_nil, or_false] at hmem
    obtain ⟨rfl, rfl⟩ | ⟨rfl, rfl⟩ := hmem <;> cases rest <;> simp_all [Node.get?]

theorem leadsTo_lettersDisk : lettersDisk.LeadsTo (lettersDisk.absolute previewRequest.root) [] := by
  have habsolute : lettersDisk.absolute previewRequest.root = ⟨"/"⟩ := absolute_separator rfl
  rw [habsolute]
  exact leadsTo_separator rfl

theorem replaceable_letters {x : String} (h : x = "a.ts" ∨ x = "b.ts") :
    lettersDisk.Replaceable [] x := by
  obtain rfl | rfl := h
  all_goals
    refine ⟨fun c k hfile => ?_, rfl, fun _ => by decide⟩
    obtain ⟨-, hfile⟩ := (get?_lettersDisk hfile).resolve_left (by simp)
    rw [hfile]
    rfl

end RunRequest

end Codemod
