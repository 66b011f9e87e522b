/-
Rewriting one file after the other. Each file is rewritten as if it were the only one (`visitAll_process`),
since the disk changes in no other respect on the way; what a walk below a root comes to is then a
matter of the disk as it was at first (`run_process`), and so are the lists of the summary
(`mem_modified`, `mem_errors`).
-/
import Codemod.Proofs.Run.Progress
import Codemod.Proofs.Run.Tidy
import Codemod.Proofs.Run.Walk

namespace Codemod

open Disk Node Codemod.Path Text

variable {d e : Disk} {l base names : Location} {x : String} {q : RunRequest} {root : Path}
  {g : Progress}

/-! ## One file -/

/-- A path that leads to a file by way of its directory, with the name of the second file free. -/
inductive Placed (d : Disk) : Path → Location → Prop
  | file {l base : Location} {x : String} : d.LeadsTo (pathOf l) base → (∀ s ∈ l, IsName s) →
      IsName x → (∃ c k, d.root.get? (base ++ [x]) = some (.file c k)) →
      d.root.get? (base ++ [tempName x]) = none → Placed d (pathOf (l ++ [x])) (base ++ [x])

namespace Placed

variable {p : Path} {loc : Location}

theorem exists_file (h : Placed d p loc) : ∃ c k, d.root.get? loc = some (.file c k) := by
  obtain ⟨-, -, -, hfile, -⟩ := h
  exact hfile

theorem of_sameShape (h : Placed d p loc) (hshape : d.SameShape e) : Placed e p loc := by
  obtain ⟨hlead, hl, hx, ⟨c, k, hfile⟩, hfree⟩ := h
  obtain ⟨n, hn, -, -, hkind⟩ := hshape.kinds.exists_node hfile
  refine .file (hlead.of_sameWays hshape.kinds.ways hshape.workDir) hl hx ?_
    (hshape.kinds.none_iff.1 hfree)
  cases n with
  | file c k => exact ⟨c, k, hn⟩
  | link | full | dir => simp [Node.isFile] at hkind

/-- The file can be given another content, and nothing else changes. -/
theorem withNode (h : Placed d p loc) (b : ByteArray) (j : Nat) :
    d.SameShape (d.withNode loc (.file b j)) ∧ ∀ l, (d.withNode loc (.file b j)).root.at? l
      = if l = loc then some (.file b j) else d.root.at? l := by
  obtain @⟨_, _, x, hlead, -, -, ⟨c, k, hfile⟩, -⟩ := h
  obtain ⟨mode, es, hdir⟩ := hlead.get?
  rw [get?_concat hdir] at hfile
  have hold : ∀ n, Entries.get? x es = some n → n.isDir = false := by
    rw [hfile]
    rintro _ ⟨⟩
    rfl
  exact ⟨⟨sameKinds_withFile hdir hfile, rfl⟩, at?_withNode hdir hold rfl⟩

/-- What comes of the file, on any disk with the same kinds of nodes, depends on its content and its
permissions alone. -/
theorem rewriteFile_eq (h : Placed d p loc) (rules : RuleSet) (dryRun : Bool) : ∃ temp,
    ∀ {e : Disk} {c : ByteArray} {k : Nat}, d.SameShape e → e.root.get? loc = some (.file c k) →
      rewriteFile e p rules dryRun = match rewritten rules dryRun p temp c k with
        | .ok r => (.ok r, if r.written then e.withNode loc (.file r.content.toUTF8 k) else e)
        | .error err => (.error err, e) := by
  obtain @⟨l, base, x, hlead, hl, hx, hfile, hfree⟩ := h
  refine ⟨pathOf (l ++ [tempName x]), fun {e c k} hshape hget => ?_⟩
  obtain ⟨mode, es, hdir⟩ := (hlead.of_sameWays hshape.kinds.ways hshape.workDir).get?
  exact Codemod.rewriteFile_eq (hlead.of_sameWays hshape.kinds.ways hshape.workDir) hl hx hdir
    ((get?_concat hdir x).symm.trans hget)
    ((get?_concat hdir _).symm.trans (hshape.kinds.none_iff.1 hfree))

/-- **Rewriting a file changes this file alone**, and leaves it a file. -/
theorem rewriteFile_frame (h : Placed d p loc) (rules : RuleSet) (dryRun : Bool) :
    d.SameShape (rewriteFile d p rules dryRun).2
      ∧ ∀ l, l ≠ loc → (rewriteFile d p rules dryRun).2.root.at? l = d.root.at? l := by
  obtain ⟨c, k, hfile⟩ := h.exists_file
  obtain ⟨temp, heq⟩ := h.rewriteFile_eq rules dryRun
  rw [heq (.refl d) hfile]
  split
  · rename_i r _
    cases r.written with
    | false => exact ⟨.refl d, fun _ _ => rfl⟩
    | true =>
      obtain ⟨hshape, hat⟩ := h.withNode r.content.toUTF8 k
      exact ⟨hshape, fun l hl => by rw [if_pos rfl, hat, if_neg hl]⟩
  · exact ⟨.refl d, fun _ _ => rfl⟩

/-- What comes of a file depends on nothing but this file. -/
theorem rewriteFile_congr (h : Placed d p loc) (hshape : d.SameShape e)
    (hsame : e.root.at? loc = d.root.at? loc) (rules : RuleSet) (dryRun : Bool) :
    (rewriteFile e p rules dryRun).1 = (rewriteFile d p rules dryRun).1
    ∧ (rewriteFile e p rules dryRun).2.root.at? loc
      = (rewriteFile d p rules dryRun).2.root.at? loc := by
  obtain ⟨c, k, hfile⟩ := h.exists_file
  have hfile' : e.root.get? loc = some (.file c k) := by
    rw [← at?_eq_file, hsame, at?_eq_file.2 hfile]
  obtain ⟨temp, heq⟩ := h.rewriteFile_eq rules dryRun
  rw [heq (.refl d) hfile, heq hshape hfile']
  split
  · rename_i r _
    refine ⟨rfl, ?_⟩
    cases r.written with
    | false => exact hsame
    | true =>
      simp only [if_true, (h.withNode _ _).2, ((h.of_sameShape hshape).withNode _ _).2]
  · exact ⟨rfl, hsame⟩

/-- **What becomes of a file in a live run**: it holds what the rules make of it, or it is as before, with
a reason. -/
theorem rewriteFile_cases (h : Placed d p loc) (rules : RuleSet) {c : ByteArray} {k : Nat}
    (hfile : d.root.get? loc = some (.file c k)) :
    (∃ text r, Utf8.decode c = .ok text ∧ (rules.apply text).content ≠ text
      ∧ (rewriteFile d p rules false).1 = .ok r ∧ r.isModified = true ∧ r.path = p
      ∧ (rewriteFile d p rules false).2.root.at? loc
        = some (.file (rules.apply text).content.toUTF8 k))
    ∨ (rewriteFile d p rules false).2 = d
      ∧ ((∃ text r, Utf8.decode c = .ok text ∧ (rules.apply text).content = text
          ∧ (rewriteFile d p rules false).1 = .ok r ∧ r.isModified = false)
        ∨ ∃ err, (rewriteFile d p rules false).1 = .error err) := by
  obtain ⟨temp, heq⟩ := h.rewriteFile_eq rules false
  rw [heq (.refl d) hfile, rewritten]
  cases refusal? p with
  | some err => exact .inr ⟨rfl, .inr ⟨_, rfl⟩⟩
  | none =>
    cases hdecode : Utf8.decode c with
    | error fault => exact .inr ⟨rfl, .inr ⟨_, rfl⟩⟩
    | ok text =>
      by_cases hchange : (rules.apply text).content = text
      · have hmodified : (FileRecord.of p text rules).isModified = false := by
          simp [FileRecord.isModified, FileRecord.of, hchange]
        simp only [hmodified, Bool.false_and, Bool.false_eq_true, if_false]
        exact .inr ⟨rfl, .inl ⟨text, _, rfl, hchange, rfl, hmodified⟩⟩
      · have hmodified : (FileRecord.of p text rules).isModified = true := by
          simpa [FileRecord.isModified, FileRecord.of] using Ne.symm hchange
        simp only [hmodified, Bool.true_and, Bool.not_false, if_true]
        cases writeRefusal? p temp (.file c k) with
        | some err => exact .inr ⟨rfl, .inr ⟨_, rfl⟩⟩
        | none =>
          refine .inl ⟨text, _, rfl, hchange, rfl, hmodified, rfl, ?_⟩
          simp only [if_true, (h.withNode _ _).2]
          rfl

theorem of_free {s : Walk.Settings} (hd : d.WellNamed) (hl : ∀ s ∈ l, IsName s) (hne : names ≠ [])
    (hfree : ∀ front x, base ++ names = front ++ [x] → d.root.get? (front ++ [tempName x]) = none)
    (helig : Walk.Eligible s d l base names)
    (hparent : d.LeadsTo (pathOf (l ++ names.dropLast)) (base ++ names.dropLast)) :
    Placed d (pathOf (l ++ names)) (base ++ names) := by
  obtain ⟨front, x, rfl⟩ := (List.eq_nil_or_concat names).resolve_left hne
  obtain ⟨c, k, hfile⟩ := helig.file
  rw [List.concat_eq_append, List.dropLast_concat] at hparent
  rw [List.concat_eq_append, ← List.append_assoc] at hfile hfree ⊢
  rw [← List.append_assoc]
  have hname : ∀ s ∈ base ++ front ++ [x], IsName s := hd _ _ hfile
  rw [List.forall_mem_append, List.forall_mem_append, List.forall_mem_singleton] at hname
  exact .file hparent (List.forall_mem_append.2 ⟨hl, hname.1.2⟩) hname.2 ⟨c, k, hfile⟩
    (hfree _ x rfl)

theorem of_eligible {s : Walk.Settings} (hd : d.WellNamed) (htemp : d.TempFree)
    (hl : ∀ s ∈ l, IsName s) (hne : names ≠ []) (helig : Walk.Eligible s d l base names)
    (hparent : d.LeadsTo (pathOf (l ++ names.dropLast)) (base ++ names.dropLast)) :
    Placed d (pathOf (l ++ names)) (base ++ names) := by
  refine of_free hd hl hne (fun front x heq => ?_) helig hparent
  obtain ⟨c, k, hfile⟩ := helig.file
  exact htemp front x c k (heq ▸ hfile)

end Placed

/-! ## One file after the other -/

namespace RunRequest

open Walk

/-- What comes of a file, on the disk as it is at first. -/
def result (q : RunRequest) (d : Disk) (p : Path) : Path × Except Error FileRecord :=
  (p, (rewriteFile d p q.rules q.dryRun).1)

theorem keeps_process {p : Path} {loc : Location} (h : Placed d p loc) :
    Keeps (q.process root) d p := by
  intro e g hshape
  rw [process_eq]
  exact hshape.trans ((h.of_sameShape hshape).rewriteFile_frame q.rules q.dryRun).1

/-- **Each file is rewritten as if it were the only one.** -/
theorem visitAll_process (root : Path) (g : Progress) {all : List Location} (hnodup : all.Nodup)
    (hall : ∀ names ∈ all, Placed d (pathOf (l ++ names)) (base ++ names)) (hshape : d.SameShape e)
    (hsame : ∀ names ∈ all, e.root.at? (base ++ names) = d.root.at? (base ++ names)) :
    (visitAll (q.process root) (all.map fun names => pathOf (l ++ names)) (g, e)).1
      = (all.map fun names => q.result d (pathOf (l ++ names))).foldl (Progress.note root q.dryRun) g
    ∧ (∀ names ∈ all,
      (visitAll (q.process root) (all.map fun names => pathOf (l ++ names)) (g, e)).2.root.at?
        (base ++ names)
      = (rewriteFile d (pathOf (l ++ names)) q.rules q.dryRun).2.root.at? (base ++ names))
    ∧ ∀ loc, (∀ names ∈ all, loc ≠ base ++ names) →
      (visitAll (q.process root) (all.map fun names => pathOf (l ++ names)) (g, e)).2.root.at? loc
        = e.root.at? loc := by
  induction all generalizing e g with
  | nil => exact ⟨rfl, by simp, fun _ _ => rfl⟩
  | cons names all ih =>
    simp only [List.forall_mem_cons] at hall hsame ⊢
    rw [List.nodup_cons] at hnodup
    obtain ⟨hplaced, hall⟩ := hall
    obtain ⟨hsame, hothers⟩ := hsame
    obtain ⟨hresult, hhere⟩ := hplaced.rewriteFile_congr hshape hsame q.rules q.dryRun
    obtain ⟨hshape', hframe⟩ := (hplaced.of_sameShape hshape).rewriteFile_frame q.rules q.dryRun
    have hne {other : Location} (hmem : other ∈ all) : base ++ other ≠ base ++ names := fun h =>
      hnodup.1 (List.append_cancel_left h ▸ hmem)
    obtain ⟨ihvalue, ihfiles, ihrest⟩ := ih
      (g.note root q.dryRun (q.result d (pathOf (l ++ names)))) hnodup.2 hall (hshape.trans hshape')
      fun other hmem => (hframe _ (hne hmem)).trans (hothers other hmem)
    have hstep : visitAll (q.process root) ((names :: all).map fun names => pathOf (l ++ names)) (g, e)
        = visitAll (q.process root) (all.map fun names => pathOf (l ++ names))
          (g.note root q.dryRun (q.result d (pathOf (l ++ names))),
            (rewriteFile e (pathOf (l ++ names)) q.rules q.dryRun).2) := by
      simp only [visitAll, List.map_cons, List.foldl_cons, process_eq, hresult, result]
    rw [hstep]
    refine ⟨ihvalue, ⟨?_, ihfiles⟩, fun loc hloc => ?_⟩
    · rw [ihrest _ fun other hmem => (hne hmem).symm, hhere]
    · rw [ihrest loc hloc.2, hframe loc hloc.1]

/-- **A walk that finds the names of the second files free** visits what is reached at the start. -/
theorem run_placed {mode : Nat} {es : Entries} (hd : d.WellNamed) (hl : ∀ s ∈ l, IsName s)
    (hlead : d.LeadsTo (pathOf l) base) (hdir : d.root.get? base = some (.dir mode es))
    (skip : List Path) (g : Progress)
    (hplaced : ∀ names, Eligible (q.walkSettings (pathOf l) skip) d l base names →
      d.LeadsTo (pathOf (l ++ names.dropLast)) (base ++ names.dropLast) →
      Placed d (pathOf (l ++ names)) (base ++ names)) :
    ∃ all : List Location, all.Nodup
      ∧ (∀ names ∈ all, Eligible (q.walkSettings (pathOf l) skip) d l base names
        ∧ Placed d (pathOf (l ++ names)) (base ++ names))
      ∧ all.map (fun names => pathOf (l ++ names)) = (listing (pathOf l) es).flatMap
        (reached (q.walkSettings (pathOf l) skip) d d.root.height)
      ∧ Walk.run (q.walkSettings (pathOf l) skip) (q.process (pathOf l)) g d
        = .ok (State.after (q.process (pathOf l)) (all.map fun names => pathOf (l ++ names))
          ((listing (pathOf l) es).flatMap
            (unlisted (q.walkSettings (pathOf l) skip) d d.root.height)) { disk := d, value := g }) := by
  obtain ⟨all, hreached, hnodup, hall⟩ := exists_names_reached hd
    (q.walkSettings (pathOf l) skip) d.root.height hlead hl hdir
  have hall (names : Location) (hmem : names ∈ all) :=
    And.intro (hall names hmem).1 (hplaced names (hall names hmem).1 (hall names hmem).2)
  refine ⟨all, hnodup, hall, hreached.symm, ?_⟩
  rw [← hreached]
  refine run_eq (checkRoot_dir hlead hdir) fun p hp => ?_
  obtain ⟨names, hmem, rfl⟩ := List.mem_map.1 (hreached ▸ hp)
  exact keeps_process (hall names hmem).2

/-- **Rewriting what is below a root**: the files that a walk is meant for are rewritten, each as if it were
the only one, but those below directories that cannot be listed. -/
theorem run_process (hd : d.WellNamed) (htemp : d.TempFree) (hl : ∀ s ∈ l, IsName s)
    (hlead : d.LeadsTo (pathOf l) base) (skip : List Path) (g : Progress) :
    ∃ (all : List Location) (w : State Progress),
      Walk.run (q.walkSettings (pathOf l) skip) (q.process (pathOf l)) g d = .ok w
      ∧ (∀ names ∈ all, Eligible (q.walkSettings (pathOf l) skip) d l base names
        ∧ Placed d (pathOf (l ++ names)) (base ++ names))
      ∧ (∀ names, Eligible (q.walkSettings (pathOf l) skip) d l base names → names ∈ all
        ∨ ∃ dirs, dirs ≠ [] ∧ dirs <+: names.dropLast
          ∧ ∃ reason, ⟨pathOf (l ++ dirs), reason⟩ ∈ w.skipped)
      ∧ w.value = (all.map fun names => q.result d (pathOf (l ++ names))).foldl
        (Progress.note (pathOf l) q.dryRun) g
      ∧ (∀ names ∈ all, w.disk.root.at? (base ++ names)
        = (rewriteFile d (pathOf (l ++ names)) q.rules q.dryRun).2.root.at? (base ++ names))
      ∧ ∀ loc, (∀ names ∈ all, loc ≠ base ++ names) → w.disk.root.at? loc = d.root.at? loc := by
  obtain ⟨mode, es, hdir⟩ := hlead.get?
  obtain ⟨all, hnodup, hall, hreached, hrun⟩ := run_placed (q := q) hd hl hlead hdir skip g
    fun names helig hparent => .of_eligible hd htemp hl (helig.ne_nil hdir) helig hparent
  obtain ⟨hvalue, hfiles, hrest⟩ := visitAll_process (q := q) (pathOf l) g hnodup
    (fun names hmem => (hall names hmem).2) (.refl d) (fun _ _ => rfl)
  refine ⟨all, _, hrun, hall, ?_, hvalue, hfiles, hrest⟩
  intro names helig
  have hheight : (Node.dir mode es).height ≤ d.root.height + 1 :=
    Nat.le_succ_of_le (height_le_of_get? hdir)
  rcases mem_reached hd hlead hl hdir hheight helig with hmem | hdirs
  · refine .inl ?_
    rw [← hreached] at hmem
    obtain ⟨names', hmem, heq⟩ := List.mem_map.1 hmem
    have hsame := pathOf_injective ((hall names' hmem).1.names hd hl) (helig.names hd hl) heq
    exact List.append_cancel_left hsame ▸ hmem
  · exact .inr (by simpa [State.after] using hdirs)

/-! ## What is listed -/

theorem rewriteFile_path {p : Path} {rules : RuleSet} {dryRun : Bool} {r : FileRecord}
    (h : (rewriteFile d p rules dryRun).1 = .ok r) : r.path = p := by
  rw [rewriteFile] at h
  cases htext : d.readText p with
  | error e => simp [htext] at h
  | ok text =>
    simp only [htext] at h
    split at h
    · rcases hreplace : d.replaceFile p (FileRecord.of p text rules).content.toUTF8 with ⟨_ | _, e⟩
      · rw [hreplace] at h
        cases h
      · rw [hreplace] at h
        exact (Except.ok.inj h) ▸ rfl
    · exact (Except.ok.inj h) ▸ rfl

variable {t : Summary} {all : List Location}

theorem relative_pathOf (hroot : t.root = pathOf l) (hnames : ∀ s ∈ l ++ names, IsName s) :
    t.relative (pathOf (l ++ names)) = ⟨"/".intercalate names⟩ := by
  obtain ⟨hl, hrest⟩ := List.forall_mem_append.1 hnames
  rw [Summary.relative, hroot, below?_pathOf hl hrest]
  rfl

/-- **The summary lists a file as modified if its text has changed**, and not otherwise. -/
theorem mem_modified (hroot : t.root = pathOf l) (hall : ∀ names ∈ all, ∀ s ∈ l ++ names, IsName s)
    (hnames : ∀ s ∈ l ++ names, IsName s) :
    ⟨"/".intercalate names⟩ ∈ ((all.map fun names => q.result d (pathOf (l ++ names))).filterMap
      t.modified?).map (·.path)
    ↔ names ∈ all ∧ ∃ r, (rewriteFile d (pathOf (l ++ names)) q.rules q.dryRun).1 = .ok r
      ∧ r.isModified = true := by
  have hlisted {names : Location} {f : FileSummary} (hnames : ∀ s ∈ l ++ names, IsName s) :
      t.modified? (q.result d (pathOf (l ++ names))) = some f ↔
        ∃ r, (rewriteFile d (pathOf (l ++ names)) q.rules q.dryRun).1 = .ok r
          ∧ r.isModified = true ∧ f = ⟨⟨"/".intercalate names⟩, r.hits⟩ := by
    rw [result]
    cases h : (rewriteFile d (pathOf (l ++ names)) q.rules q.dryRun).1 with
    | error e => simp [Summary.modified?]
    | ok r =>
      rw [Summary.modified?, rewriteFile_path h, relative_pathOf hroot hnames]
      by_cases hr : r.isModified = true <;> simp [hr, eq_comm (b := f)]
  simp only [List.mem_map, List.mem_filterMap]
  constructor
  · rintro ⟨f, ⟨_, ⟨names', hmem, rfl⟩, hf⟩, hpath⟩
    obtain ⟨r, hr, hmodified, rfl⟩ := (hlisted (hall names' hmem)).1 hf
    have hsame : names' = names := by
      refine pathOf_injective (fun s hs => hall names' hmem s (by simp [hs]))
        (fun s hs => hnames s (by simp [hs])) ?_
      have htext : "/".intercalate names' = "/".intercalate names := congrArg Path.text hpath
      rw [pathOf, pathOf, htext]
    exact hsame ▸ ⟨hmem, r, hr, hmodified⟩
  · rintro ⟨hmem, r, hr, hmodified⟩
    exact ⟨_, ⟨_, ⟨names, hmem, rfl⟩, (hlisted hnames).2 ⟨r, hr, hmodified, rfl⟩⟩, rfl⟩

/-- **A file that went wrong is listed**. -/
theorem mem_errors {err : Error} (hroot : t.root = pathOf l) (hmem : names ∈ all)
    (hnames : ∀ s ∈ l ++ names, IsName s)
    (herr : (rewriteFile d (pathOf (l ++ names)) q.rules q.dryRun).1 = .error err) :
    ⟨"/".intercalate names⟩ ∈ ((all.map fun names => q.result d (pathOf (l ++ names))).filterMap
      t.failed?).map (·.path) := by
  simp only [List.mem_map, List.mem_filterMap]
  refine ⟨_, ⟨_, ⟨names, hmem, rfl⟩, by rw [result, herr, Summary.failed?]⟩, ?_⟩
  rw [relative_pathOf hroot hnames]

end RunRequest

end Codemod
