/-
A second run. Where the rules leave alone what they have made, a file that was rewritten stays as it is
(`Placed.rewriteFile_again`), and one that could not be rewritten fails as before; what an entry took is
gone, and the others are refused as before (`Deletion.removeAll_none`). As files are all that a run changes, a
second one resolves its root to the same path (`absolute_again`), and its walk reaches no file that the
first one did not reach. So it changes nothing (`execute_again`).
-/
import Mathlib.Data.List.Induction
import Codemod.Proofs.Disk.Read
import Codemod.Proofs.Rule.Hits
import Codemod.Proofs.Run.Trace

namespace Codemod

open Disk Node Codemod.Path Text

variable {d e : Disk} {l base names loc : Location} {x : String} {q : RunRequest} {p root : Path}
  {rules : RuleSet} {k : Nat} {c : ByteArray}

/-! ## One file -/

/-- What comes of the content that a rewriting leaves. -/
theorem rewritten_again {temp : Path} {r : FileRecord}
    (hagain : ∀ t, (rules.apply (rules.apply t).content).content = (rules.apply t).content)
    (h : rewritten rules false p temp c k = .ok r) :
    ∃ r', rewritten rules false p temp (if r.written then r.content.toUTF8 else c) k = .ok r'
      ∧ r'.isModified = false ∧ r'.written = false := by
  have hsame := h
  rw [rewritten] at h
  cases hp : refusal? p with
  | some err => simp [hp] at h
  | none =>
    cases hdecode : Utf8.decode c with
    | error fault => simp [hp, hdecode] at h
    | ok text =>
      simp only [hp, hdecode, Bool.not_false, Bool.and_true] at h
      by_cases hmodified : (FileRecord.of p text rules).isModified = true
      · rw [if_pos hmodified] at h
        cases hr : writeRefusal? p temp (.file c k) with
        | some err => simp [hr] at h
        | none =>
          rw [hr] at h
          obtain rfl := Except.ok.inj h
          have hstays : (FileRecord.of p (rules.apply text).content rules).isModified = false := by
            simp [FileRecord.isModified, FileRecord.of, hagain]
          refine ⟨FileRecord.of p (rules.apply text).content rules, ?_, hstays, rfl⟩
          simp only [if_true, FileRecord.of]
          rw [rewritten, hp, decode_toUTF8]
          simp only
          rw [hstays]
          rfl
      · rw [if_neg hmodified] at h
        obtain rfl := Except.ok.inj h
        exact ⟨_, hsame, by simpa using hmodified, rfl⟩

/-- **What a run leaves of a file, another run leaves as it is.** -/
theorem Placed.rewriteFile_again (h : Placed d p loc)
    (hagain : ∀ t, (rules.apply (rules.apply t).content).content = (rules.apply t).content)
    (hshape : d.SameShape e)
    (hsame : e.root.at? loc = (rewriteFile d p rules false).2.root.at? loc) :
    (rewriteFile e p rules false).2 = e
      ∧ ∀ r, (rewriteFile e p rules false).1 = .ok r → r.isModified = false := by
  obtain ⟨c, k, hfile⟩ := h.exists_file
  obtain ⟨temp, heq⟩ := h.rewriteFile_eq rules false
  rw [heq (.refl d) hfile] at hsame
  cases hr : rewritten rules false p temp c k with
  | error err =>
    rw [hr, at?_eq_file.2 hfile, at?_eq_file] at hsame
    rw [heq hshape hsame, hr]
    exact ⟨rfl, fun r h => by cases h⟩
  | ok r =>
    obtain ⟨r', hr', hmodified, hwritten⟩ := rewritten_again hagain hr
    have hget : e.root.get? loc = some (.file (if r.written then r.content.toUTF8 else c) k) := by
      rw [hr] at hsame
      cases hw : r.written with
      | true =>
        simp only [hw, if_true, (h.withNode _ _).2] at hsame
        exact at?_eq_file.1 hsame
      | false =>
        simp only [hw, Bool.false_eq_true, if_false, at?_eq_file.2 hfile] at hsame
        exact at?_eq_file.1 hsame
    rw [heq hshape hget, hr']
    refine ⟨by simp [hwritten], fun r h => ?_⟩
    obtain rfl := Except.ok.inj h
    exact hmodified

/-! ## The root -/

namespace Disk

namespace SameShape

variable (h : d.SameShape e)

include h

theorem file_before {b : ByteArray} (hfile : e.root.get? loc = some (.file b k)) :
    ∃ c k, d.root.get? loc = some (.file c k) := by
  obtain ⟨n, hn, -, -, hkind⟩ := h.kinds.symm.exists_node hfile
  cases n with
  | file c k => exact ⟨c, k, hn⟩
  | link | full | dir => simp [Node.isFile] at hkind

theorem wellNamed (hd : d.WellNamed) : e.WellNamed := by
  intro loc n hn
  obtain ⟨m, hm, -⟩ := h.kinds.symm.exists_node hn
  exact hd loc m hm

theorem tempFree (hd : d.TempFree) : e.TempFree := by
  intro loc x c k hfile
  obtain ⟨c, k, hfile⟩ := h.file_before hfile
  exact h.kinds.none_iff.1 (hd loc x c k hfile)

end SameShape

/-- A directory above one that a path leads to is led to by the path above. -/
theorem leadsTo_above {a b : Location} (h : d.LeadsTo (pathOf (a ++ b)) loc)
    (hnames : ∀ s ∈ a ++ b, IsName s) : ∃ loc, d.LeadsTo (pathOf a) loc := by
  induction b using List.reverseRecOn generalizing loc with
  | nil => exact ⟨loc, by simpa using h⟩
  | append_singleton b x ih =>
    rw [← List.append_assoc] at h hnames
    obtain ⟨hfront, hx⟩ := List.forall_mem_append.1 hnames
    have hx : IsName x := List.forall_mem_singleton.1 hx
    rw [← join_name hfront hx] at h
    obtain ⟨mode, es, h⟩ := h
    have hrelative : (⟨x⟩ : Path).isAbsolute = false := by
      simp only [isAbsolute, beq_eq_false_iff_ne, ne_eq]
      exact fun h => hx.no_separator (List.mem_of_head? h)
    obtain ⟨loc', hlead⟩ := exists_leadsTo_of_join pathOf_ne_empty hrelative hx.ne_empty (find_eq_ok.2 h)
    exact ih hlead hfront

/-- **What a path is resolved to stays**, if it is a directory and nothing but files goes. -/
theorem absolute_again (hd : d.WellNamed) (hlead : d.LeadsTo (d.absolute p) base)
    (hways : d.root.SameWays e.root) (hdir : e.workDir = d.workDir)
    (hback : ∀ loc, d.root.get? loc = none → e.root.get? loc = none) :
    e.absolute p = d.absolute p := by
  have hhere : e.here = d.here := by rw [here, here, hdir]
  suffices hsame : ∀ r, e.canonical (d.here.join p) = .ok r ↔ d.canonical (d.here.join p) = .ok r by
    rw [absolute, absolute, hhere]
    cases hc : d.canonical (d.here.join p) with
    | ok r => rw [(hsame r).2 hc]
    | error err =>
      cases he : e.canonical (d.here.join p) with
      | ok r => rw [(hsame r).1 he] at hc; cases hc
      | error err => rfl
  intro r
  rw [canonical_eq_ok, canonical_eq_ok]
  constructor
  · rintro ⟨loc, m, hfind, hshort, rfl⟩
    cases hn : d.root.get? loc with
    | none =>
      have := get?_of_resolve (find_eq_ok.1 hfind)
      rw [hback loc hn] at this
      cases this
    | some n =>
      exact ⟨loc, n, Deletion.find_of_sameWays hfind hways.symm hdir.symm hn, hshort, rfl⟩
  · rintro ⟨loc, n, hfind, hshort, rfl⟩
    -- What the root is resolved to is a directory, and so it is still there.
    have hn := get?_of_resolve (find_eq_ok.1 hfind)
    have habsolute : d.absolute p = pathOf loc := by
      rw [absolute, canonical_eq_ok.2 ⟨loc, n, hfind, hshort, rfl⟩]
    obtain ⟨m, hm⟩ : ∃ m, e.root.get? loc = some m := by
      cases n with
      | dir mode es =>
        obtain ⟨mode', es', hget⟩ := hways.dir hn
        exact ⟨_, hget⟩
      | link t => exact ⟨_, hways.link hn⟩
      | file | full =>
        rw [habsolute] at hlead
        obtain ⟨mode, es, hresolve⟩ := hlead
        have hnames := hd _ _ hn
        have hway := (resolve_eq_ok.1 hresolve).2
        rw [startsAtRoot_pathOf, if_pos rfl, pathPieces_pathOf hnames] at hway
        have hself : loc.filter (· != ".") = loc :=
          List.filter_eq_self.2 fun s hs => by simpa using (hnames s hs).ne_here
        have hend := hway.eq_of_names (by rw [hself, List.nil_append]; exact hn) rfl
          fun h => (hnames _ h).ne_up rfl
        cases (Spot.node.inj hend).2
    exact ⟨loc, m, Deletion.find_of_sameWays hfind hways hdir hm, hshort, rfl⟩

end Disk

/-! ## The walk -/

namespace Walk

variable {s : Settings} {depth : Nat} {entry : Entry} {dir : SkippedDir}

theorem entriesOf_of_mem_unlisted (h : dir ∈ unlisted s d depth entry) :
    ∃ err, entriesOf d dir.path = .error err := by
  obtain ⟨p, isDir⟩ := entry
  induction depth generalizing p isDir with
  | zero => cases isDir <;> cases h
  | succ depth ih =>
    cases isDir with
    | false => cases h
    | true =>
      cases hes : entriesOf d p with
      | error err =>
        rw [unlisted_refused depth hes] at h
        split at h
        · cases h
        · obtain rfl := List.mem_singleton.1 h
          exact ⟨err, hes⟩
      | ok es =>
        rw [unlisted_dir depth hes] at h
        split at h
        · cases h
        · obtain ⟨⟨p, isDir⟩, -, h⟩ := List.mem_flatMap.1 h
          exact ih p isDir h

/-- What a walk is meant for is reached, if its directory is. -/
theorem mem_reached_of_leadsTo {mode : Nat} {es : Entries} (hd : d.WellNamed)
    (hlead : d.LeadsTo (pathOf l) base) (hl : ∀ s ∈ l, IsName s)
    (hdir : d.root.get? base = some (.dir mode es)) (helig : Eligible s d l base names)
    (hparent : d.LeadsTo (pathOf (l ++ names.dropLast)) loc) :
    pathOf (l ++ names) ∈ (listing (pathOf l) es).flatMap (reached s d d.root.height) := by
  have hheight : (Node.dir mode es).height ≤ d.root.height + 1 :=
    Nat.le_succ_of_le (height_le_of_get? hdir)
  refine (mem_reached hd hlead hl hdir hheight helig).resolve_right ?_
  rintro ⟨dirs, -, ⟨rest, hrest⟩, reason, hmem⟩
  -- The directory that could not be listed would be one that a path leads to.
  obtain ⟨entry, -, hmem⟩ := List.mem_flatMap.1 hmem
  obtain ⟨err, herr⟩ := entriesOf_of_mem_unlisted hmem
  have hnames : ∀ s ∈ l ++ names.dropLast, IsName s := by
    obtain ⟨hl, hnames⟩ := List.forall_mem_append.1 (helig.names hd hl)
    exact List.forall_mem_append.2 ⟨hl, fun s hs => hnames s (List.dropLast_subset _ hs)⟩
  rw [← hrest, ← List.append_assoc] at hparent hnames
  obtain ⟨loc, hlead⟩ := leadsTo_above hparent hnames
  obtain ⟨mode, es, hget⟩ := hlead.get?
  rw [entriesOf_dir hlead hget] at herr
  cases herr

end Walk

namespace RunRequest

open Walk

variable {g : Progress} {skip : List Path} {w : State Progress}

/-- Files that stay as they are leave the disk as it is. -/
theorem visitAll_still (root : Path) (g : Progress) (ps : List Path)
    (h : ∀ p ∈ ps, (rewriteFile d p q.rules q.dryRun).2 = d) :
    visitAll (q.process root) ps (g, d)
      = ((ps.map (q.result d)).foldl (Progress.note root q.dryRun) g, d) := by
  induction ps generalizing g with
  | nil => rfl
  | cons p ps ih =>
    rw [List.forall_mem_cons] at h
    have ih := ih (g.note root q.dryRun (q.result d p)) h.2
    simp only [visitAll, List.map_cons, List.foldl_cons, process_eq, h.1] at ih ⊢
    exact ih

/-- What the walk of a run has reached, and what it has made of it. -/
theorem exists_rewritten {mode : Nat} {es : Entries} (hd : d.WellNamed) (htemp : d.TempFree)
    (hl : ∀ s ∈ l, IsName s) (hlead : d.LeadsTo (pathOf l) base)
    (hdir : d.root.get? base = some (.dir mode es))
    (hrun : Walk.run (q.walkSettings (pathOf l) skip) (q.process (pathOf l)) g d = .ok w) :
    d.SameShape w.disk ∧ ∃ all : List Location,
      all.map (fun names => pathOf (l ++ names)) = (listing (pathOf l) es).flatMap
        (reached (q.walkSettings (pathOf l) skip) d d.root.height)
      ∧ ∀ names ∈ all, (∀ s ∈ l ++ names, IsName s) ∧ Placed d (pathOf (l ++ names)) (base ++ names)
        ∧ w.disk.root.at? (base ++ names)
          = (rewriteFile d (pathOf (l ++ names)) q.rules q.dryRun).2.root.at? (base ++ names) := by
  obtain ⟨all, hnodup, hall, hreached, hfirst⟩ := run_placed (q := q) hd hl hlead hdir skip g
    fun names helig hparent => .of_eligible hd htemp hl (helig.ne_nil hdir) helig hparent
  obtain ⟨-, hfiles, -⟩ := visitAll_process (q := q) (pathOf l) g hnodup
    (fun names hmem => (hall names hmem).2) (.refl d) (fun _ _ => rfl)
  rw [hfirst] at hrun
  obtain rfl := Except.ok.inj hrun
  refine ⟨sameShape_visitAll (fun p hp => ?_) (.refl d), all, hreached, fun names hmem =>
    ⟨(hall names hmem).1.names hd hl, (hall names hmem).2, hfiles names hmem⟩⟩
  obtain ⟨names, hmem, rfl⟩ := List.mem_map.1 hp
  exact keeps_process (hall names hmem).2

/-- **The walk of a second run changes nothing**, and lists no file as modified. -/
theorem run_again (skip' : List Path) (g' : Progress) (hlive : q.dryRun = false)
    (hagain : ∀ t, (q.rules.apply (q.rules.apply t).content).content = (q.rules.apply t).content)
    (hd : d.WellNamed) (htemp : d.TempFree) (hl : ∀ s ∈ l, IsName s)
    (hlead : d.LeadsTo (pathOf l) base)
    (hrun : Walk.run (q.walkSettings (pathOf l) skip) (q.process (pathOf l)) g d = .ok w)
    (helig : ∀ names, Eligible (q.walkSettings (pathOf l) skip') w.disk l base names →
      Eligible (q.walkSettings (pathOf l) skip) d l base names) : ∃ w',
      Walk.run (q.walkSettings (pathOf l) skip') (q.process (pathOf l)) g' w.disk = .ok w'
      ∧ w'.disk = w.disk ∧ w'.value.summary.modified = g'.summary.modified
      ∧ w'.value.summary.deleted = g'.summary.deleted := by
  obtain ⟨mode, es, hdir⟩ := hlead.get?
  obtain ⟨hshape, all, hreached, hall⟩ := exists_rewritten hd htemp hl hlead hdir hrun
  generalize w.disk = e at helig hshape hall ⊢
  have hd' := hshape.wellNamed hd
  have hlead' := hlead.of_sameWays hshape.kinds.ways hshape.workDir
  obtain ⟨mode', es', hdir'⟩ := hlead'.get?
  obtain ⟨all', -, hall', hreached', hsecond⟩ := run_placed (q := q) hd' hl hlead' hdir' skip' g'
    fun names helig hparent =>
      .of_eligible hd' (hshape.tempFree htemp) hl (helig.ne_nil hdir') helig hparent
  -- Each file that is reached now was reached before.
  have hstill : ∀ names ∈ all', (rewriteFile e (pathOf (l ++ names)) q.rules false).2 = e
      ∧ ∀ r, (rewriteFile e (pathOf (l ++ names)) q.rules false).1 = .ok r → r.isModified = false := by
    intro names hmem
    have helig' := (hall' names hmem).1
    have hp : pathOf (l ++ names) ∈ all'.map fun names => pathOf (l ++ names) :=
      List.mem_map_of_mem hmem
    rw [hreached'] at hp
    obtain ⟨same, heq, hsame, hparent⟩ := exists_of_mem_reached hd' hlead' hl hdir' hp
    obtain rfl := List.append_cancel_left
      (pathOf_injective (helig'.names hd' hl) (hsame.names hd' hl) heq)
    have hbefore := mem_reached_of_leadsTo hd hlead hl hdir (helig names helig')
      (hparent.of_sameWays hshape.kinds.ways.symm hshape.workDir.symm)
    rw [← hreached] at hbefore
    obtain ⟨before, hbefore, heq⟩ := List.mem_map.1 hbefore
    obtain ⟨hnames, hplaced, hfile⟩ := hall before hbefore
    obtain rfl := List.append_cancel_left (pathOf_injective hnames (helig'.names hd' hl) heq)
    exact hplaced.rewriteFile_again hagain hshape (hlive ▸ hfile)
  have hvisit := visitAll_still (q := q) (pathOf l) g' (all'.map fun names => pathOf (l ++ names))
    fun p hp => by
      obtain ⟨names, hmem, rfl⟩ := List.mem_map.1 hp
      exact hlive ▸ (hstill names hmem).1
  refine ⟨_, hsecond, ?_⟩
  simp only [State.after, hvisit, true_and]
  obtain ⟨-, hdeleted, hmodified, -⟩ := Progress.foldl_note_summary (pathOf l) q.dryRun
    ((all'.map fun names => pathOf (l ++ names)).map (q.result e)) g'
  refine ⟨hmodified.trans ?_, hdeleted⟩
  rw [List.filterMap_eq_nil_iff.2, List.append_nil]
  intro r hr
  obtain ⟨p, hp, rfl⟩ := List.mem_map.1 hr
  obtain ⟨names, hmem, rfl⟩ := List.mem_map.1 hp
  rw [result, hlive]
  cases hresult : (rewriteFile e (pathOf (l ++ names)) q.rules false).1 with
  | error err => rfl
  | ok r => simp [Summary.modified?, (hstill names hmem).2 r hresult]

/-- After a run, the entries that it took lead to nothing, and the others are refused as before. -/
theorem removals_again {gone : List (Path × Location)} (hlead : d.LeadsTo (d.absolute q.root) base)
    (habsolute : e.absolute q.root = d.absolute q.root) (hways : d.root.SameWays e.root)
    (hdir : e.workDir = d.workDir)
    (hfile : ∀ loc c k, e.root.get? loc = some (.file c k) →
      loc ∉ gone.map (·.2) ∧ ∃ c k, d.root.get? loc = some (.file c k))
    (hall : ∀ p ∈ Path.distinct q.deletions, ∀ loc,
      Deletion.Takes ⟨d.absolute q.root, q.excludedDirs, q.dryRun⟩
        (Deletion.realRoot d (d.absolute q.root)) d p loc → loc ∈ gone.map (·.2)) :
    Deletion.deleted (q.removals e).1 = [] ∧ (q.removals e).2 = e := by
  rw [removals, habsolute, Deletion.run, Deletion.realRoot_of_sameWays hlead hways hdir]
  have hnone : ∀ p ∈ Path.distinct q.deletions, ∀ loc, ¬ Deletion.Takes ⟨d.absolute q.root, q.excludedDirs, q.dryRun⟩
      (Deletion.realRoot d (d.absolute q.root)) e p loc := by
    intro p hp loc htakes
    obtain ⟨c, k, hget⟩ := htakes.exists_file
    obtain ⟨hkept, hbefore⟩ := hfile loc c k hget
    exact hkept (hall p hp loc (htakes.of_sameWays hways.symm hdir.symm hbefore))
  exact ⟨Deletion.deleted_none hnone, by rw [Deletion.removeAll_none hnone]⟩

/-- **A second run changes nothing**, if the rules leave alone what they have made. Whatever went wrong in the
first one, the second one ends well, lists no file as modified and none as deleted, and leaves the disk
as it finds it. -/
theorem execute_again {configHash configHash' : String} {duration duration' : Nat} {s : Summary}
    (hlive : q.dryRun = false) (hd : d.WellNamed) (htemp : d.TempFree)
    (hagain : ∀ t, (q.rules.apply (q.rules.apply t).content).content = (q.rules.apply t).content)
    (hok : (q.execute configHash duration d).outcome = .ok s) : ∃ s',
      (q.execute configHash' duration' (q.execute configHash duration d).disk).outcome = .ok s'
      ∧ s'.modified = [] ∧ s'.deleted = []
      ∧ (q.execute configHash' duration' (q.execute configHash duration d).disk).disk
        = (q.execute configHash duration d).disk := by
  obtain ⟨w, hrun, -, -, -, hdisk⟩ := execute_ok hok
  obtain ⟨base, hlead⟩ := leadsTo_of_execute_ok hok
  obtain ⟨l, hl, hroot⟩ := absolute_eq_pathOf hd q.root
  obtain ⟨gone, hdeleted, hgone, hall, hagree⟩ := removals_spec hlive hlead
  have hshrinks : d.Shrinks (q.removals d).2 := .of_agreeBut hagree fun loc hloc => by
    obtain ⟨g, hg, rfl⟩ := List.mem_map.1 hloc
    exact (hgone g hg).2.2
  have hlead' := hagree.leadsTo (hroot ▸ hlead)
  obtain ⟨mode, es, hdir⟩ := hlead'.get?
  rw [hroot] at hrun
  obtain ⟨hshape, -⟩ := exists_rewritten (hshrinks.wellNamed hd) (hshrinks.tempFree htemp) hl hlead'
    hdir hrun
  -- Files are all that has changed.
  have hways : d.root.SameWays w.disk.root := hagree.ways.trans hshape.kinds.ways
  have hwork : w.disk.workDir = d.workDir := hshape.workDir.trans hagree.workDir
  have hfile : ∀ loc c k, w.disk.root.get? loc = some (.file c k) →
      loc ∉ gone.map (·.2) ∧ ∃ c k, d.root.get? loc = some (.file c k) := by
    intro loc c k hget
    obtain ⟨c, k, hget⟩ := hshape.file_before hget
    refine ⟨fun hmem => ?_, c, k, hshrinks.file hget⟩
    obtain ⟨g, hg, rfl⟩ := List.mem_map.1 hmem
    rw [← at?_eq_file, (hgone g hg).2.2] at hget
    cases hget
  have habsolute : w.disk.absolute q.root = d.absolute q.root :=
    absolute_again hd hlead hways hwork fun loc hnone =>
      hshape.kinds.none_iff.1 (hshrinks.get?_eq_none hnone)
  obtain ⟨hnone, hsame⟩ := removals_again hlead habsolute hways hwork hfile hall
  obtain ⟨s', hok'⟩ := execute_isOk (q := q) configHash' duration'
    (habsolute ▸ hlead.of_sameWays hways hwork)
  obtain ⟨w', hrun', rfl, -, -, hdisk'⟩ := execute_ok hok'
  rw [habsolute, hroot, hnone, hsame] at hrun'
  obtain ⟨again, hsecond, hdiskagain, hmodified, hdeleted'⟩ := run_again []
    (q.opening configHash' w.disk) hlive hagain (hshrinks.wellNamed hd)
    (hshrinks.tempFree htemp) hl hlead' hrun fun names helig => by
      obtain ⟨c, k, hget⟩ := helig.file
      obtain ⟨hkept, hbefore⟩ := hfile _ c k hget
      obtain ⟨mode, es, hdir⟩ := (hlead.of_sameWays hways hwork).get?
      obtain ⟨-, hunexcluded, hname⟩ := Candidate.of_eligible helig (helig.ne_nil hdir)
        (helig.names (hshape.wellNamed (hshrinks.wellNamed hd)) hl)
      rw [hdeleted, hroot]
      exact (eligible_iff names hd hl hroot (hroot ▸ hlead) (fun g hg => (hgone g hg).2.1)
        (fun g hg => (hgone g hg).2.2) hagree).2 ⟨⟨hbefore, hunexcluded, hname⟩, hkept⟩
  obtain rfl := Except.ok.inj (hrun'.symm.trans hsecond)
  have hopening := opening_summary (q := q) (d := w.disk) configHash'
  refine ⟨_, hdisk ▸ hok', ?_, ?_, ?_⟩
  · simp only [Summary.finish, hmodified, hopening]
    rfl
  · simp only [Summary.finish, hdeleted', hopening, hnone]
    rfl
  · rw [hdisk, hdisk', hdiskagain]

end RunRequest

/-! ## A rule for one letter -/

namespace Rule

variable {a : Char} {b : String} {c d : Cursor}

/-- Every letter is looked at once. -/
theorem splice_letter (hle : c ≤ d) : splice (.literal b) c (Matcher.occurrences [a] d)
    = .ok (c.upTo d ++ d.ahead.flatMap fun x => if x = a then b.toList else [x]) := by
  fun_induction Matcher.occurrences [a] d generalizing c
  case case1 d hp stop hlt ih =>
    obtain ⟨rest, hrest⟩ : ∃ rest, d.ahead = a :: rest := by
      obtain ⟨rest, hrest⟩ := List.isPrefixOf_iff_prefix.1 hp
      exact ⟨rest, hrest.symm⟩
    have hstop : stop.ahead = rest := by
      rw [Cursor.ahead_advance, hrest]
      rfl
    have hself : stop.upTo stop = [] := by simp [Cursor.upTo]
    rw [splice, ih (le_refl stop), hself, hstop, hrest]
    simp [Replacement.render, bind, Except.bind, pure, Except.pure]
  case case2 d hp stop hlt =>
    obtain ⟨rest, hrest⟩ := List.isPrefixOf_iff_prefix.1 hp
    refine absurd ?_ hlt
    have hleft := d.left_eq
    rw [← hrest] at hleft
    rw [Cursor.left_advance, hleft]
    simp
  case case3 d hp x d' hnext ih =>
    have hahead := Cursor.ahead_of_next? hnext
    have hne : x ≠ a := by
      rintro rfl
      exact hp (by simp [hahead])
    have hle' := hle.trans (Cursor.le_of_next? hnext)
    have hupTo : c.upTo d' = c.upTo d ++ [x] := by
      refine (List.append_left_inj d'.ahead).1 ?_
      rw [Cursor.upTo_append_ahead hle', List.append_assoc, List.singleton_append, ← hahead,
        Cursor.upTo_append_ahead hle]
    rw [ih hle', hupTo, hahead]
    simp [hne]
  case case4 d hp hnext =>
    have hend := Cursor.next?_eq_none.1 hnext
    have hahead := Cursor.upTo_append_ahead hle
    rw [hend, List.append_nil] at hahead
    rw [splice, hend, List.flatMap_nil, List.append_nil, hahead]

end Rule

namespace RunRequest

theorem letterRules_content (t : String) : (letterRules.apply t).content
    = String.ofList (t.toList.flatMap fun x => if x = 'A' then ['B'] else [x]) := by
  have hsplice := Rule.splice_letter (a := 'A') (b := "B") (le_refl (.start t.toList))
  have hstart : Cursor.upTo (.start t.toList) (.start t.toList) = [] := by simp [Cursor.upTo]
  rw [hstart, List.nil_append, Cursor.ahead_start] at hsplice
  have hneedle : "A".toList = ['A'] := by decide
  have htext : "B".toList = ['B'] := by decide
  rw [htext] at hsplice
  simp only [RuleSet.apply, letterRules, List.foldl_cons, List.foldl_nil, RuleSet.applyRule, Rule.apply,
    Matcher.findAll, hneedle]
  cases hhits : Matcher.occurrences ['A'] (.start t.toList) with
  | nil =>
    rw [hhits, Rule.splice, Cursor.ahead_start] at hsplice
    rw [← Except.ok.inj hsplice]
    simp [bind, Except.bind, pure, Except.pure]
  | cons h hits =>
    rw [hhits] at hsplice
    simp [bind, Except.bind, pure, Except.pure, hsplice]

/-- The rule for a letter leaves no such letter. -/
theorem letterRules_again (t : String) :
    (letterRules.apply (letterRules.apply t).content).content = (letterRules.apply t).content := by
  rw [letterRules_content, letterRules_content, String.toList_ofList, List.flatMap_assoc]
  refine congrArg String.ofList (List.flatMap_congr fun x _ => ?_)
  by_cases hx : x = 'A'
  · simp [hx]
  · simp [hx]

/-- The first run removes one of two files and rewrites the other, and the second one changes nothing. -/
theorem execute_again_letters : lettersRequest.dryRun = false ∧ lettersDisk.WellNamed
    ∧ lettersDisk.TempFree
    ∧ (∀ t, (letterRules.apply (letterRules.apply t).content).content = (letterRules.apply t).content)
    ∧ (∃ s, (lettersRequest.execute "" 0 lettersDisk).outcome = .ok s)
    ∧ ∃ s', (lettersRequest.execute "" 0 (lettersRequest.execute "" 0 lettersDisk).disk).outcome = .ok s'
      ∧ s'.modified = [] ∧ s'.deleted = []
      ∧ (lettersRequest.execute "" 0 (lettersRequest.execute "" 0 lettersDisk).disk).disk
        = (lettersRequest.execute "" 0 lettersDisk).disk := by
  obtain ⟨base, hlead⟩ := LeadsTo.of_isDir isDir_lettersRequest
  obtain ⟨s, hok⟩ := execute_isOk (q := lettersRequest) "" 0 hlead
  exact ⟨rfl, lettersDisk_tidy.named, lettersDisk_tidy.free, letterRules_again, ⟨s, hok⟩,
    execute_again rfl lettersDisk_tidy.named lettersDisk_tidy.free letterRules_again hok⟩

end RunRequest

end Codemod
