/-
The texts that a run starts from. Until a file has its turn, nothing happens to it but that it may go
(`Unspoiled`): what is written goes to the file whose turn it is, by way of a second file beside it, which is not
there when all is done. So each record of a run, dry or live, has the text that its file held before the run, and
what the rules make of that text (`execute_originals`), unless a link has the name of a second file.
-/
import Codemod.Proofs.Run.Account
import Codemod.Proofs.Run.Exclusion
import Codemod.Proofs.Run.Preview

namespace Codemod

open Disk Node Codemod.Path Text

variable {d e : Disk} {l base front dirs : Location} {x : String} {q : RunRequest} {root : Path} {g : Progress}
  {c : ByteArray} {k : Nat} {had more : Location → Prop} {rs : List FileRecord}

/-! ## One file -/

/-- What is read from a file that is gone or as it was is what it held. -/
theorem decode_of_readText {text : String} (hlead : e.LeadsTo (pathOf l) dirs) (hl : ∀ s ∈ l, IsName s) (hx : IsName x)
    (hfile : d.root.get? (dirs ++ [x]) = some (.file c k))
    (hsame : e.root.at? (dirs ++ [x]) = none ∨ e.root.at? (dirs ++ [x]) = d.root.at? (dirs ++ [x]))
    (h : e.readText (pathOf (l ++ [x])) = .ok text) : Utf8.decode c = .ok text := by
  obtain ⟨mode, es, hdir⟩ := hlead.get?
  rw [← join_name hl hx] at h
  rcases hsame with hgone | hsame
  · have hnone : Entries.get? x es = none := (get?_concat hdir x).symm.trans (at?_eq_none.1 hgone)
    obtain ⟨err, hfind⟩ := find_join_free hlead hx hdir hnone true
    rw [readText, Disk.read, stat, hfind] at h
    cases h
  · rw [at?_eq_file.2 hfile] at hsame
    rw [readText_entry hlead hx (at?_eq_file.1 hsame)] at h
    cases hr : refusal? ((pathOf l).join ⟨x⟩) with
    | some err => simp [hr] at h
    | none =>
      cases hdecode : Utf8.decode c with
      | error fault => simp [hr, hdecode] at h
      | ok text' => simpa [hr, hdecode] using h

namespace RunRequest

open Walk

/-- No link has the name of the second file of a file that a run is meant for. -/
def Unlinked (q : RunRequest) (d : Disk) (base : Location) : Prop := ∀ dir x, q.Candidate d base (dir ++ [x]) →
  ∀ t, d.root.get? (base ++ dir ++ [tempName x]) ≠ some (.link t)

/-- A record of a file that a run is meant for, with the text that the file has on a disk, and what the rules make
of it. -/
structure Original (q : RunRequest) (d : Disk) (l base names : Location) (r : FileRecord) : Prop where
  path : r.path = pathOf (l ++ names)
  named : ∀ s ∈ l ++ names, IsName s
  candidate : q.Candidate d base names
  text : ∃ c k, d.root.get? (base ++ names) = some (.file c k) ∧ Utf8.decode c = .ok r.original
  content : r.content = (q.rules.apply r.original).content

/-- What holds when the files at some places have had their turn: elsewhere, things are as at first or gone, and
the records have the texts of the first disk. -/
structure Unspoiled (q : RunRequest) (d : Disk) (l base : Location) (had : Location → Prop) (e : Disk)
    (records : List FileRecord) : Prop where
  agree : ∃ places, d.AgreeBut e places
  rest : ∀ m, ¬ had m → e.root.at? m = none ∨ e.root.at? m = d.root.at? m
  records : ∀ r ∈ records, ∃ names, q.Original d l base names r

namespace Unspoiled

theorem mono (h : q.Unspoiled d l base had e rs) (hsub : ∀ m, had m → more m) : q.Unspoiled d l base more e rs :=
  ⟨h.agree, fun m hm => h.rest m fun hhad => hm (hsub m hhad), h.records⟩

/-- The disk after a file has had its turn. -/
theorem rewriteFile (hlinks : q.dryRun = false → q.Unlinked d base)
    (hlead : d.LeadsTo (pathOf (l ++ front)) (base ++ front)) (hl : ∀ s ∈ l ++ front, IsName s) (hx : IsName x)
    (hc : q.Candidate d base (front ++ [x])) (hnew : ¬ had (base ++ front ++ [x]))
    (h : q.Unspoiled d l base had e rs) :
    q.Unspoiled d l base (fun m => had m ∨ m = base ++ front ++ [x])
      (rewriteFile e (pathOf (l ++ front ++ [x])) q.rules q.dryRun).2 rs := by
  have hsame : q.Unspoiled d l base (fun m => had m ∨ m = base ++ front ++ [x]) e rs := h.mono fun _ => .inl
  cases hdry : q.dryRun with
  | true => rwa [rewriteFile_dry]
  | false =>
    obtain ⟨⟨places, hagree⟩, hrest, hrecords⟩ := h
    have hlead' := hagree.leadsTo hlead
    obtain ⟨mode, es, hdir⟩ := hlead'.get?
    obtain ⟨c, k, hfile⟩ := hc.file
    rw [← List.append_assoc] at hfile
    rw [← join_name hl hx]
    cases hn : Entries.get? x es with
    | none => rwa [rewriteFile_missing _ _ (find_join_free hlead' hx hdir hn true)]
    | some n =>
      have hget : e.root.get? (base ++ front ++ [x]) = some n := (get?_concat hdir x).trans hn
      have hthere : e.root.at? (base ++ front ++ [x]) = d.root.at? (base ++ front ++ [x]) := by
        refine (hrest _ hnew).resolve_left fun hgone => ?_
        rw [at?_eq_none, hget] at hgone
        cases hgone
      rw [at?_eq_file.2 hfile, at?_eq_file, hget] at hthere
      obtain rfl := Option.some.inj hthere
      have hlink (t : String) : Entries.get? (tempName x) es ≠ some (.link t) := by
        rw [← get?_concat hdir]
        exact fun ht => hlinks hdry front x hc t (hagree.ways.symm.link ht)
      refine ⟨⟨_, hagree.trans (rewriteFile_elsewhere hlead' hx hdir hn hlink)⟩, fun m hm => ?_, hrecords⟩
      rw [not_or] at hm
      refine (rewriteFile_others hlead' hx hdir hn hlink hm.2).elim .inl fun hkept => ?_
      rw [hkept]
      exact hrest m hm.1

/-- **A file that has its turn is as it was at first, or gone.** -/
theorem process (hlinks : q.dryRun = false → q.Unlinked d base)
    (hlead : d.LeadsTo (pathOf (l ++ front)) (base ++ front)) (hl : ∀ s ∈ l ++ front, IsName s) (hx : IsName x)
    (hc : q.Candidate d base (front ++ [x])) (hnew : ¬ had (base ++ front ++ [x]))
    (h : q.Unspoiled d l base had e g.records) :
    q.Unspoiled d l base (fun m => had m ∨ m = base ++ front ++ [x])
      (q.process root e g (pathOf (l ++ front ++ [x]))).2
      (q.process root e g (pathOf (l ++ front ++ [x]))).1.records := by
  obtain ⟨hagree, hrest, hrecords⟩ := h.rewriteFile hlinks hlead hl hx hc hnew
  rw [process_eq]
  refine ⟨hagree, hrest, ?_⟩
  rw [Progress.note_records]
  refine List.forall_mem_append.2 ⟨hrecords, fun r hr => ⟨front ++ [x], ?_⟩⟩
  have hresult : (Codemod.rewriteFile e (pathOf (l ++ front ++ [x])) q.rules q.dryRun).1 = .ok r := by
    rw [Option.mem_toList] at hr
    cases hresult : (Codemod.rewriteFile e (pathOf (l ++ front ++ [x])) q.rules q.dryRun).1 with
    | error err =>
      rw [hresult] at hr
      cases hr
    | ok r' =>
      rw [hresult] at hr
      exact congrArg Except.ok (Option.some.inj hr)
  obtain ⟨hread, hcontent, -⟩ := rewriteFile_ok hresult
  obtain ⟨places, hbefore⟩ := h.agree
  obtain ⟨c, k, hfile⟩ := hc.file
  rw [← List.append_assoc] at hfile
  refine ⟨?_, ?_, hc, ⟨c, k, ?_, ?_⟩, hcontent⟩
  · rw [rewriteFile_path hresult, List.append_assoc]
  · rw [← List.append_assoc]
    exact hx.concat hl
  · rw [← List.append_assoc]
    exact hfile
  · exact decode_of_readText (hbefore.leadsTo hlead) hl hx hfile (h.rest _ hnew) hread

/-! ## One file after the other -/

/-- Entries with different names have their turn one after the other. -/
theorem entries (dirs : Location) {visit : State Progress → Entry → State Progress} {p : Path} {es : Entries} {xs : List String}
    {st : State Progress} (hst : q.Unspoiled d l base had st.disk st.value.records) (hxs : xs.Nodup)
    (hnew : ∀ x ∈ xs, ∀ m, dirs ++ [x] <+: m → ¬ had m)
    (hvisit : ∀ x ∈ xs, ∀ entry ∈ listed? p es x, ∀ had st, q.Unspoiled d l base had st.disk st.value.records →
      (∀ m, dirs ++ [x] <+: m → ¬ had m) →
      q.Unspoiled d l base (fun m => had m ∨ dirs ++ [x] <+: m) (visit st entry).disk
        (visit st entry).value.records) :
    q.Unspoiled d l base (fun m => had m ∨ ∃ x ∈ xs, dirs ++ [x] <+: m)
      ((xs.filterMap (listed? p es)).foldl visit st).disk
      ((xs.filterMap (listed? p es)).foldl visit st).value.records := by
  induction xs generalizing had st with
  | nil => exact hst.mono fun m => .inl
  | cons x xs ih =>
    rw [List.forall_mem_cons] at hnew hvisit
    rw [List.nodup_cons] at hxs
    have hothers := not_below_other hxs.1 hnew.2
    have hsub : ∀ m, (had m ∨ dirs ++ [x] <+: m) ∨ (∃ y ∈ xs, dirs ++ [y] <+: m) →
        had m ∨ ∃ y ∈ x :: xs, dirs ++ [y] <+: m := by
      rintro m ((h | h) | ⟨y, hy, h⟩)
      · exact .inl h
      · exact .inr ⟨x, List.mem_cons_self, h⟩
      · exact .inr ⟨y, List.mem_cons_of_mem x hy, h⟩
    rw [List.filterMap_cons]
    cases hentry : listed? p es x with
    | none => exact (ih (hst.mono fun m => .inl) hxs.2 hothers hvisit.2).mono hsub
    | some entry => exact (ih (hvisit.1 entry hentry had st hst hnew.1) hxs.2 hothers hvisit.2).mono hsub

/-- So have those that a directory lists. -/
theorem listing (visit : State Progress → Entry → State Progress) (st : State Progress) {mode : Nat} {es : Entries}
    (hd : d.WellNamed) (hl : ∀ s ∈ l ++ front, IsName s) (hst : q.Unspoiled d l base had st.disk st.value.records)
    (hdir : st.disk.root.get? (base ++ front) = some (.dir mode es)) (hnew : ∀ m, base ++ front <+: m → ¬ had m)
    (hvisit : ∀ x n, d.root.get? (base ++ front ++ [x]) = some n → n.isFile = true ∨ n.isDir = true →
      ∀ had st, q.Unspoiled d l base had st.disk st.value.records → (∀ m, base ++ front ++ [x] <+: m → ¬ had m) →
      q.Unspoiled d l base (fun m => had m ∨ base ++ front ++ [x] <+: m)
        (visit st ⟨pathOf (l ++ front ++ [x]), n.isDir⟩).disk
        (visit st ⟨pathOf (l ++ front ++ [x]), n.isDir⟩).value.records) :
    q.Unspoiled d l base (fun m => had m ∨ base ++ front <+: m)
      ((Walk.listing (pathOf (l ++ front)) es).foldl visit st).disk
      ((Walk.listing (pathOf (l ++ front)) es).foldl visit st).value.records := by
  obtain ⟨places, hagree⟩ := hst.agree
  refine (entries (base ++ front) hst (nodup_sortedNames es)
    (fun x _ m hm => hnew m ((List.prefix_append _ _).trans hm)) ?_).mono ?_
  · intro x _ entry hentry had st hst hnew
    obtain ⟨n, hn, rfl⟩ := eq_of_mem_listed? (hagree.wellNamed hd) hl hdir hentry
    obtain ⟨m, hm, hmdir, hmfile⟩ := hagree.exists_before hn
    have hkind : n.isFile = true ∨ n.isDir = true := by
      rw [listed?, (get?_concat hdir x).symm.trans hn] at hentry
      cases n <;> simp_all [Node.isFile, Node.isDir]
    rw [← hmdir]
    exact hvisit x m hm (by rwa [hmdir, hmfile]) had st hst hnew
  · rintro m (h | ⟨x, -, h⟩)
    · exact .inl h
    · exact .inr ((List.prefix_append _ _).trans h)

section Tree

variable {skip : List Path} (hd : d.WellNamed) (hlinks : q.dryRun = false → q.Unlinked d base)
  (hl : ∀ s ∈ l, IsName s)

include hd hlinks hl

theorem visitEntry_file (depth : Nat) {st : State Progress}
    (hlead : d.LeadsTo (pathOf (l ++ front)) (base ++ front)) (hfront : ∀ y ∈ front, y ∉ q.excludedDirs)
    (hn : d.root.get? (base ++ front ++ [x]) = some (.file c k)) (hnew : ∀ m, base ++ front ++ [x] <+: m → ¬ had m)
    (hst : q.Unspoiled d l base had st.disk st.value.records) :
    q.Unspoiled d l base (fun m => had m ∨ base ++ front ++ [x] <+: m)
      (visitEntry (q.walkSettings root skip) (q.process root) depth st ⟨pathOf (l ++ front ++ [x]), false⟩).disk
      (visitEntry (q.walkSettings root skip) (q.process root) depth st
        ⟨pathOf (l ++ front ++ [x]), false⟩).value.records := by
  obtain ⟨hpath, hx⟩ := names_of_entry hd hl hn
  rw [Walk.visitEntry_file]
  by_cases hcandidate : isCandidate (q.walkSettings root skip) (pathOf (l ++ front ++ [x])) = true
  · rw [if_pos hcandidate]
    have hc : q.Candidate d base (front ++ [x]) := by
      have heligible : Eligible (q.walkSettings root skip) d l base (front ++ [x]) := by
        refine ⟨⟨c, k, ?_⟩, ?_, ?_⟩
        · rw [← List.append_assoc]
          exact hn
        · rw [List.dropLast_concat]
          exact hfront
        · rw [← List.append_assoc]
          exact hcandidate
      refine .of_eligible heligible (by simp) ?_
      rw [← List.append_assoc]
      exact hx.concat hpath
    refine (hst.process hlinks hlead hpath hx hc (hnew _ (List.prefix_refl _))).mono ?_
    rintro m (h | rfl)
    · exact .inl h
    · exact .inr (List.prefix_refl _)
  · rw [if_neg hcandidate]
    exact hst.mono fun m => .inl

/-- **What is below an entry has its turn when the entry is visited.** -/
theorem visitEntry {depth : Nat} {n : Node} {st : State Progress}
    (hlead : d.LeadsTo (pathOf (l ++ front)) (base ++ front)) (hfront : ∀ y ∈ front, y ∉ q.excludedDirs)
    (hn : d.root.get? (base ++ front ++ [x]) = some n) (hkind : n.isFile = true ∨ n.isDir = true)
    (hnew : ∀ m, base ++ front ++ [x] <+: m → ¬ had m)
    (hst : q.Unspoiled d l base had st.disk st.value.records) :
    q.Unspoiled d l base (fun m => had m ∨ base ++ front ++ [x] <+: m)
      (Walk.visitEntry (q.walkSettings root skip) (q.process root) depth st
        ⟨pathOf (l ++ front ++ [x]), n.isDir⟩).disk
      (Walk.visitEntry (q.walkSettings root skip) (q.process root) depth st
        ⟨pathOf (l ++ front ++ [x]), n.isDir⟩).value.records := by
  induction depth generalizing front x n had st with
  | zero =>
    cases n with
    | file c k => exact visitEntry_file hd hlinks hl 0 hlead hfront hn hnew hst
    | dir => exact hst.mono fun m => .inl
    | link | full => simp [Node.isFile, Node.isDir] at hkind
  | succ depth ih =>
    cases n with
    | file c k => exact visitEntry_file hd hlinks hl _ hlead hfront hn hnew hst
    | dir mode es =>
      have hsame : q.Unspoiled d l base (fun m => had m ∨ base ++ front ++ [x] <+: m) st.disk st.value.records :=
        hst.mono fun _ => .inl
      obtain ⟨hpath, hx⟩ := names_of_entry hd hl hn
      obtain ⟨places, hagree⟩ := hst.agree
      obtain ⟨mode', es', hn'⟩ := hagree.ways.dir hn
      simp only [Node.isDir]
      cases hr : refusal? (pathOf (l ++ front ++ [x])) with
      | some err =>
        rw [visitEntry_refused _ _ _ (entriesOf_refused (hagree.leadsTo hlead) hpath hx hn' hr)]
        split <;> exact hsame
      | none =>
        have hdeeper := leadsTo_entry hlead hpath hx hn hr
        rw [visitEntry_dir _ _ _ (entriesOf_dir (hagree.leadsTo hdeeper) hn'), isExcluded_pathOf hpath hx]
        split
        · exact hsame
        · rename_i hexcluded
          have hfront' : ∀ y ∈ front ++ [x], y ∉ q.excludedDirs :=
            List.forall_mem_append.2 ⟨hfront, by simpa [walkSettings] using hexcluded⟩
          have hpath' := hx.concat hpath
          rw [List.append_assoc] at hdeeper hn' hpath' hnew ⊢
          rw [List.append_assoc] at hdeeper ⊢
          exact listing _ _ hd hpath' hst hn' hnew fun y m hm hkind had st hst hnew =>
            ih hdeeper hfront' hm hkind hnew hst
    | link | full => simp [Node.isFile, Node.isDir] at hkind

/-- The records of a walk over what is left of a disk have the texts of the disk. -/
theorem run {w : State Progress} (hlead : d.LeadsTo (pathOf l) base)
    (hst : q.Unspoiled d l base (fun _ => False) e g.records)
    (hrun : Walk.run (q.walkSettings (pathOf l) skip) (q.process (pathOf l)) g e = .ok w) :
    q.Unspoiled d l base (fun m => base <+: m) w.disk w.value.records := by
  obtain ⟨places, hagree⟩ := hst.agree
  obtain ⟨mode, es, hdir⟩ := (hagree.leadsTo hlead).get?
  rw [Walk.run, walkSettings, checkRoot_dir (hagree.leadsTo hlead) hdir] at hrun
  obtain rfl := Except.ok.inj hrun
  -- The root is the directory with no names in front of it.
  rw [← List.append_nil l, ← List.append_nil base] at hlead
  rw [← List.append_nil base] at hdir
  have hwalk := listing (Walk.visitEntry (q.walkSettings (pathOf l) skip) (q.process (pathOf l)) e.root.height)
    ⟨e, g, []⟩ hd (by simpa using hl) hst hdir (fun _ _ => id) fun x n hn hkind had st hst hnew =>
      visitEntry hd hlinks hl hlead (by simp) hn hkind hnew hst
  rw [List.append_nil, List.append_nil] at hwalk
  exact hwalk.mono fun m => Or.rec False.elim id

end Tree

end Unspoiled

/-! ## A whole run -/

/-- What is left when files have been removed is unspoiled. -/
theorem unspoiled_removals (hlead : d.LeadsTo (d.absolute q.root) base) (l : Location) :
    q.Unspoiled d l base (fun _ => False) (q.removals d).2 [] := by
  cases hdry : q.dryRun with
  | true =>
    have hsame : (q.removals d).2 = d := Deletion.removeAll_dry hdry
    rw [hsame]
    exact ⟨⟨[], .refl d []⟩, fun _ _ => .inr rfl, by simp⟩
  | false =>
    obtain ⟨gone, -, hgone, -, hagree⟩ := removals_spec hdry hlead
    refine ⟨⟨_, hagree⟩, fun m _ => ?_, by simp⟩
    by_cases hmem : m ∈ gone.map (·.2)
    · obtain ⟨g, hg, rfl⟩ := List.mem_map.1 hmem
      exact .inl (hgone g hg).2.2
    · exact .inr (hagree.at?_eq m hmem)

/-- **Each record of a run has the text that its file held before the run**, and what the rules make of it, in
dry runs as in live ones, if no link has the name of a second file. -/
theorem execute_originals {configHash : String} {duration : Nat} {s : Summary}
    (h : (q.execute configHash duration d).outcome = .ok s) (hd : d.WellNamed)
    (hlinks : q.dryRun = false → ∀ base, d.LeadsTo (d.absolute q.root) base → q.Unlinked d base) :
    ∃ l base, d.absolute q.root = pathOf l ∧ d.LeadsTo (d.absolute q.root) base
      ∧ ∀ r ∈ (q.execute configHash duration d).records, ∃ names, q.Original d l base names r := by
  obtain ⟨base, hlead⟩ := leadsTo_of_execute_ok h
  obtain ⟨l, hl, hroot⟩ := absolute_eq_pathOf hd q.root
  obtain ⟨w, hrun, -, -, hrecords, -⟩ := execute_ok h
  rw [hroot] at hrun
  have hstart : q.Unspoiled d l base (fun _ => False) (q.removals d).2 (q.opening configHash d).records := by
    rw [opening_records]
    exact unspoiled_removals hlead l
  rw [hrecords]
  exact ⟨l, base, hroot, hlead, (Unspoiled.run hd (fun hlive => hlinks hlive base hlead) hl (hroot ▸ hlead) hstart
    hrun).records⟩

end RunRequest

end Codemod
