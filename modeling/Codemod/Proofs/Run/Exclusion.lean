/-
What a run does below excluded directories. The walk does not go there (`keepsOut_visitEntry`): what it
changes lies, name by name, in directories that are not excluded. Removing listed files looks at the
names that an entry is written with, and not at where they lead: a file below an excluded directory
goes if and only if an entry leads to it by way of a link (`execute_excluded`).
-/
import Codemod.Proofs.Run.Effect

namespace Codemod

open Disk Node Codemod.Path

variable {d e : Disk} {l base front : Location} {x : String} {q : RunRequest} {root : Path}

/-- No link has the name that the second file of a file would have. -/
def Disk.TempUnlinked (d : Disk) : Prop := ∀ loc x c k t,
  d.root.get? (loc ++ [x]) = some (.file c k) → d.root.get? (loc ++ [tempName x]) ≠ some (.link t)

namespace Disk.AgreeBut

variable {ps : List Location}

theorem wellNamed (h : d.AgreeBut e ps) (hd : d.WellNamed) : e.WellNamed := fun loc _ hn => by
  obtain ⟨m, hm, -⟩ := h.exists_before hn
  exact hd loc m hm

theorem tempUnlinked (h : d.AgreeBut e ps) (hd : d.TempUnlinked) : e.TempUnlinked := by
  intro loc x c k t hfile hlink
  obtain ⟨m, hm, -, hkind⟩ := h.exists_before hfile
  cases m with
  | file c' k' => exact hd loc x c' k' t hm (h.ways.symm.link hlink)
  | link | full | dir => simp [Node.isFile] at hkind

end Disk.AgreeBut

/-! ## One file -/

/-- A path that leads to nothing is not rewritten. -/
theorem rewriteFile_missing {p : Path} (rules : RuleSet) (dryRun : Bool)
    (h : ∃ err, d.find true p = .error err) : (rewriteFile d p rules dryRun).2 = d := by
  obtain ⟨err, h⟩ := h
  rw [rewriteFile, readText, Disk.read, stat, h]
  rfl

namespace RunRequest

open Walk

/-- A place below the root that is in no excluded directory. -/
def Open (q : RunRequest) (base loc : Location) : Prop :=
  ∃ front x, loc = base ++ front ++ [x] ∧ ∀ y ∈ front, y ∉ q.excludedDirs

/-- Nothing has changed but files that are in no excluded directory. -/
def KeepsOut (q : RunRequest) (base : Location) (d e : Disk) : Prop :=
  ∃ ps, (∀ loc ∈ ps, q.Open base loc) ∧ d.AgreeBut e ps

theorem KeepsOut.refl (q : RunRequest) (base : Location) (d : Disk) : q.KeepsOut base d d :=
  ⟨[], by simp, .refl d []⟩

/-- What has the name of an excluded directory on the way is as before. -/
theorem KeepsOut.at?_eq {dirs : Location} {f : String} (h : q.KeepsOut base d e)
    (hexcluded : ∃ y ∈ dirs, y ∈ q.excludedDirs) :
    e.root.at? (base ++ dirs ++ [f]) = d.root.at? (base ++ dirs ++ [f]) := by
  obtain ⟨ps, hopen, hagree⟩ := h
  refine hagree.at?_eq _ fun hmem => ?_
  obtain ⟨front, x, heq, hfront⟩ := hopen _ hmem
  obtain ⟨hdirs, -⟩ := List.append_inj' heq rfl
  obtain rfl := List.append_cancel_left hdirs
  obtain ⟨y, hy, hexcluded⟩ := hexcluded
  exact hfront y hy hexcluded

/-- **Rewriting a file in a directory that is not excluded keeps out of those that are**, whatever the file
has become since it was listed. -/
theorem keepsOut_process {c : ByteArray} {k : Nat} (hlinks : d.TempUnlinked)
    (hlead : d.LeadsTo (pathOf (l ++ front)) (base ++ front)) (hl : ∀ s ∈ l ++ front, IsName s)
    (hx : IsName x) (hfront : ∀ y ∈ front, y ∉ q.excludedDirs)
    (hfile : d.root.get? (base ++ front ++ [x]) = some (.file c k)) (h : q.KeepsOut base d e)
    (g : Progress) :
    q.KeepsOut base d (q.process root e g (pathOf (l ++ front ++ [x]))).2 := by
  obtain ⟨ps, hopen, hagree⟩ := h
  have hlead' := hagree.leadsTo hlead
  obtain ⟨mode, es, hdir⟩ := hlead'.get?
  rw [process_eq]
  cases hn : Entries.get? x es with
  | none =>
    refine ⟨ps, hopen, ?_⟩
    rw [rewriteFile_missing _ _ (join_name hl hx ▸ find_join_free hlead' hx hdir hn true)]
    exact hagree
  | some n =>
    have hget : e.root.get? (base ++ front ++ [x]) = some n := (get?_concat hdir x).trans hn
    obtain ⟨m, hm, -, hkind⟩ := hagree.exists_before hget
    obtain rfl := Option.some.inj (hfile.symm.trans hm)
    cases n with
    | link | full | dir => simp [Node.isFile] at hkind
    | file c' k' =>
      have hlink (t : String) : Entries.get? (tempName x) es ≠ some (.link t) := by
        rw [← get?_concat hdir]
        exact hagree.tempUnlinked hlinks _ x c' k' t hget
      refine ⟨ps ++ [base ++ front ++ [tempName x], base ++ front ++ [x]], ?_,
        hagree.trans (join_name hl hx ▸ rewriteFile_elsewhere hlead' hx hdir hn hlink)⟩
      intro loc hloc
      simp only [List.mem_append, List.mem_cons, List.not_mem_nil, or_false] at hloc
      rcases hloc with hloc | rfl | rfl
      · exact hopen loc hloc
      · exact ⟨front, _, rfl, hfront⟩
      · exact ⟨front, _, rfl, hfront⟩

/-- Visits that keep out of excluded directories one by one do so one after the other. -/
theorem keepsOut_foldl {visit : State Progress → Entry → State Progress} {mode : Nat} {es : Entries}
    {st : State Progress} (hd : d.WellNamed) (hl : ∀ s ∈ l ++ front, IsName s)
    (hvisit : ∀ x n st, d.root.get? (base ++ front ++ [x]) = some n →
      n.isFile = true ∨ n.isDir = true → q.KeepsOut base d st.disk →
      q.KeepsOut base d (visit st ⟨pathOf (l ++ front ++ [x]), n.isDir⟩).disk)
    (he : q.KeepsOut base d e) (hdir : e.root.get? (base ++ front) = some (.dir mode es))
    (hst : q.KeepsOut base d st.disk) :
    q.KeepsOut base d ((listing (pathOf (l ++ front)) es).foldl visit st).disk := by
  obtain ⟨ps, -, hagree⟩ := he
  refine List.foldlRecOn (motive := fun st : State Progress => q.KeepsOut base d st.disk) _ visit hst
    fun st hst entry hentry => ?_
  obtain ⟨x, n, hn, hkind, rfl⟩ :=
    (mem_listing hl (names_of_wellNamed (hagree.wellNamed hd) hdir)).1 hentry
  obtain ⟨m, hm, hmdir, hmfile⟩ := hagree.exists_before ((get?_concat hdir x).trans hn)
  rw [← hmdir]
  exact hvisit x m st hm (by rwa [hmdir, hmfile]) hst

/-- What is below the root by names has names. -/
theorem names_of_entry {n : Node} (hd : d.WellNamed) (hl : ∀ s ∈ l, IsName s)
    (hn : d.root.get? (base ++ front ++ [x]) = some n) : (∀ s ∈ l ++ front, IsName s) ∧ IsName x := by
  obtain ⟨hfront, hx⟩ := List.forall_mem_append.1 (hd _ n hn)
  exact ⟨List.forall_mem_append.2 ⟨hl, (List.forall_mem_append.1 hfront).2⟩,
    List.forall_mem_singleton.1 hx⟩

theorem keepsOut_visitEntry_file {skip : List Path} (depth : Nat) {c : ByteArray} {k : Nat}
    {st : State Progress} (hd : d.WellNamed) (hlinks : d.TempUnlinked) (hl : ∀ s ∈ l, IsName s)
    (hlead : d.LeadsTo (pathOf (l ++ front)) (base ++ front))
    (hfront : ∀ y ∈ front, y ∉ q.excludedDirs)
    (hn : d.root.get? (base ++ front ++ [x]) = some (.file c k)) (hst : q.KeepsOut base d st.disk) :
    q.KeepsOut base d (visitEntry (q.walkSettings root skip) (q.process root) depth st
      ⟨pathOf (l ++ front ++ [x]), false⟩).disk := by
  obtain ⟨hpath, hx⟩ := names_of_entry hd hl hn
  rw [visitEntry_file]
  split
  · exact keepsOut_process hlinks hlead hpath hx hfront hn hst _
  · exact hst

/-- **The walk keeps out of excluded directories.** -/
theorem keepsOut_visitEntry {skip : List Path} {depth : Nat} {n : Node} {st : State Progress}
    (hd : d.WellNamed) (hlinks : d.TempUnlinked) (hl : ∀ s ∈ l, IsName s)
    (hlead : d.LeadsTo (pathOf (l ++ front)) (base ++ front))
    (hfront : ∀ y ∈ front, y ∉ q.excludedDirs) (hn : d.root.get? (base ++ front ++ [x]) = some n)
    (hkind : n.isFile = true ∨ n.isDir = true) (hst : q.KeepsOut base d st.disk) :
    q.KeepsOut base d (visitEntry (q.walkSettings root skip) (q.process root) depth st
      ⟨pathOf (l ++ front ++ [x]), n.isDir⟩).disk := by
  induction depth generalizing front x n st with
  | zero =>
    cases n with
    | file c k => exact keepsOut_visitEntry_file 0 hd hlinks hl hlead hfront hn hst
    | dir => exact hst
    | link | full => simp [Node.isFile, Node.isDir] at hkind
  | succ depth ih =>
    cases n with
    | file c k => exact keepsOut_visitEntry_file _ hd hlinks hl hlead hfront hn hst
    | dir mode es =>
      obtain ⟨hpath, hx⟩ := names_of_entry hd hl hn
      obtain ⟨ps, hopen, hagree⟩ := hst
      obtain ⟨mode', es', hn'⟩ := hagree.ways.dir hn
      simp only [Node.isDir]
      cases hr : refusal? (pathOf (l ++ front ++ [x])) with
      | some err =>
        rw [visitEntry_refused _ _ _
          (entriesOf_refused (hagree.leadsTo hlead) hpath hx hn' hr)]
        split <;> exact ⟨ps, hopen, hagree⟩
      | none =>
        have hdeeper := leadsTo_entry hlead hpath hx hn hr
        rw [visitEntry_dir _ _ _ (entriesOf_dir (hagree.leadsTo hdeeper) hn'),
          isExcluded_pathOf hpath hx]
        split
        · exact ⟨ps, hopen, hagree⟩
        · rename_i hexcluded
          have hfront' : ∀ y ∈ front ++ [x], y ∉ q.excludedDirs :=
            List.forall_mem_append.2 ⟨hfront, by simpa [walkSettings] using hexcluded⟩
          have hpath' := hx.concat hpath
          rw [List.append_assoc] at hdeeper hn' hpath' ⊢
          rw [List.append_assoc] at hdeeper
          exact keepsOut_foldl hd hpath' (fun y m st hm hkind hst => ih hdeeper hfront' hm hkind hst)
            ⟨ps, hopen, hagree⟩ hn' ⟨ps, hopen, hagree⟩
    | link | full => simp [Node.isFile, Node.isDir] at hkind

/-- Whatever is walked over, nothing changes below excluded directories. -/
theorem keepsOut_run (skip : List Path) (g : Progress) (hd : d.WellNamed) (hlinks : d.TempUnlinked)
    (hl : ∀ s ∈ l, IsName s) (hlead : d.LeadsTo (pathOf l) base) :
    ∃ w, Walk.run (q.walkSettings (pathOf l) skip) (q.process (pathOf l)) g d = .ok w
      ∧ q.KeepsOut base d w.disk := by
  obtain ⟨mode, es, hdir⟩ := hlead.get?
  have hcheck : checkRoot d (q.walkSettings (pathOf l) skip).root = .ok (listing (pathOf l) es) :=
    checkRoot_dir hlead hdir
  refine ⟨_, by rw [Walk.run, hcheck]; rfl, ?_⟩
  -- The root is the directory with no names in front of it.
  rw [← List.append_nil l] at hlead ⊢
  rw [← List.append_nil base] at hlead hdir
  refine keepsOut_foldl hd (by simpa using hl) (fun x n st hn hkind hst => ?_) (.refl q base d) hdir
    (.refl q base d)
  exact keepsOut_visitEntry hd hlinks hl hlead (by simp) hn hkind hst

/-! ## The whole run -/

/-- An entry of the list of files to remove leads to a file, and passes all checks. -/
def Takes (q : RunRequest) (d : Disk) (p : Path) (loc : Location) : Prop :=
  Deletion.Takes ⟨d.absolute q.root, q.excludedDirs, q.dryRun⟩
    (Deletion.realRoot d (d.absolute q.root)) d p loc

/-- All that a run does below excluded directories is to remove files. -/
theorem removed_below_excluded (dirs : Location) (f : String) (configHash : String) (duration : Nat)
    (hlive : q.dryRun = false) (hd : d.WellNamed) (hlinks : d.TempUnlinked)
    (hlead : d.LeadsTo (d.absolute q.root) base) (hexcluded : ∃ y ∈ dirs, y ∈ q.excludedDirs) :
    ∃ gone : List (Path × Location),
      (∀ g ∈ gone, g.1 ∈ Path.distinct q.deletions ∧ q.Takes d g.1 g.2)
      ∧ (∀ p ∈ Path.distinct q.deletions, ∀ loc, q.Takes d p loc → loc ∈ gone.map (·.2))
      ∧ (q.execute configHash duration d).disk.root.at? (base ++ dirs ++ [f])
        = if base ++ dirs ++ [f] ∈ gone.map (·.2) then none
          else d.root.at? (base ++ dirs ++ [f]) := by
  obtain ⟨mode, es, hdir⟩ := hlead.get?
  obtain ⟨l, hl, hroot⟩ := absolute_eq_pathOf hd q.root
  obtain ⟨gone, -, hgone, hall, hagree⟩ := removals_spec hlive hlead
  obtain ⟨w, hrun, hkeeps⟩ := keepsOut_run (q := q) (Deletion.deleted (q.removals d).1)
    (q.opening configHash d) (hagree.wellNamed hd) (hagree.tempUnlinked hlinks) hl
    (hagree.leadsTo (hroot ▸ hlead))
  refine ⟨gone, fun g hg => ⟨(hgone g hg).1, (hgone g hg).2.1⟩, hall, ?_⟩
  rw [execute_eq configHash duration (checkRoot_dir hlead hdir), hroot, hrun]
  refine (hkeeps.at?_eq hexcluded).trans ?_
  split
  · rename_i hmem
    obtain ⟨g, hg, heq⟩ := List.mem_map.1 hmem
    rw [← heq]
    exact (hgone g hg).2.2
  · rename_i hmem
    exact hagree.at?_eq _ hmem

/-- **Without links, nothing changes below excluded directories.** -/
theorem execute_excluded_unlinked (dirs : Location) (f : String) (configHash : String) (duration : Nat)
    (hlive : q.dryRun = false) (hd : d.WellNamed) (hnone : ∀ loc t, d.root.get? loc ≠ some (.link t))
    (hlead : d.LeadsTo (d.absolute q.root) base) (hexcluded : ∃ y ∈ dirs, y ∈ q.excludedDirs) :
    (q.execute configHash duration d).disk.root.at? (base ++ dirs ++ [f])
      = d.root.at? (base ++ dirs ++ [f]) := by
  obtain ⟨l, hl, hroot⟩ := absolute_eq_pathOf hd q.root
  obtain ⟨gone, hgone, -, hat⟩ := removed_below_excluded dirs f configHash duration hlive hd
    (fun _ _ _ _ _ _ => hnone _ _) hlead hexcluded
  rw [hat, if_neg]
  intro hmem
  obtain ⟨g, hg, heq⟩ := List.mem_map.1 hmem
  obtain ⟨y, hy, hexcluded⟩ := hexcluded
  exact (hgone g hg).2.of_unlinked hroot (hroot ▸ hlead) hl hnone heq y hy hexcluded

/-- **What a run does to a file below an excluded directory.** The file is gone if and only if an entry of
the list of files to remove leads to it and passes all checks, and otherwise it is as before. -/
theorem execute_excluded (dirs : Location) (f : String) (configHash : String) (duration : Nat)
    {c : ByteArray} {k : Nat}
    (hlive : q.dryRun = false) (hd : d.WellNamed) (hlinks : d.TempUnlinked)
    (hlead : d.LeadsTo (d.absolute q.root) base) (hexcluded : ∃ y ∈ dirs, y ∈ q.excludedDirs)
    (hfile : d.root.get? (base ++ dirs ++ [f]) = some (.file c k)) :
    ((q.execute configHash duration d).disk.root.get? (base ++ dirs ++ [f]) = none
      ↔ ∃ p ∈ Path.distinct q.deletions, q.Takes d p (base ++ dirs ++ [f]))
    ∧ ((¬ ∃ p ∈ Path.distinct q.deletions, q.Takes d p (base ++ dirs ++ [f])) →
      (q.execute configHash duration d).disk.root.get? (base ++ dirs ++ [f])
        = some (.file c k)) := by
  obtain ⟨gone, hgone, hall, hat⟩ := removed_below_excluded dirs f configHash duration hlive hd
    hlinks hlead hexcluded
  have hmem : base ++ dirs ++ [f] ∈ gone.map (·.2)
      ↔ ∃ p ∈ Path.distinct q.deletions, q.Takes d p (base ++ dirs ++ [f]) := by
    constructor
    · intro hmem
      obtain ⟨g, hg, heq⟩ := List.mem_map.1 hmem
      exact ⟨g.1, (hgone g hg).1, heq ▸ (hgone g hg).2⟩
    · rintro ⟨p, hp, htakes⟩
      exact hall p hp _ htakes
  rw [at?_eq_file.2 hfile] at hat
  rw [← hmem]
  by_cases h : base ++ dirs ++ [f] ∈ gone.map (·.2)
  · rw [if_pos h] at hat
    exact ⟨iff_of_true (at?_eq_none.1 hat) h, fun hnot => absurd h hnot⟩
  · rw [if_neg h] at hat
    have hkept := at?_eq_file.1 hat
    exact ⟨iff_of_false (by rw [hkept]; simp) h, fun _ => hkept⟩

/-- A directory that is excluded, and a link to it. -/
def linkedDisk : Disk where
  root := .dir 0o755 [
    ("node_modules", .dir 0o755 [("a.ts", .file "A".toUTF8 0o644)]),
    ("vendor", .link "node_modules")]
  workDir := []

/-- A run that is to remove one file. -/
def removalOf (p : String) : RunRequest where
  root := ⟨"/"⟩
  rules := .empty
  extensions := [".ts"]
  excludedDirs := ["node_modules"]
  deletions := [⟨p⟩]

theorem linkedDisk_tidy : linkedDisk.root.Tidy := by
  have hinner : (Node.dir 0o755 [("a.ts", .file "A".toUTF8 0o644)]).Tidy := by
    refine tidy_dir ?_ (by decide)
    simp only [List.forall_mem_cons]
    exact ⟨⟨by decide, tidy_leaf rfl⟩, by simp⟩
  refine tidy_dir ?_ (by decide)
  simp only [List.forall_mem_cons]
  exact ⟨⟨by decide, hinner⟩, ⟨by decide, tidy_leaf rfl⟩, by simp⟩

theorem absolute_removalOf (p : String) : linkedDisk.absolute (removalOf p).root = ⟨"/"⟩ :=
  absolute_separator rfl

/-- The link leads to the directory, and to what is in it. -/
theorem walks_vendor {follow : Bool} {links : Nat} {rest : List String} {spot : Spot}
    (hrest : rest ≠ [] ∨ follow = true)
    (h : Walks linkedDisk.root follow links ["node_modules"] rest spot) :
    Walks linkedDisk.root follow (links + 1) [] ("vendor" :: rest) spot := by
  refine .follow ⟨by decide, by decide, by decide⟩ (t := "node_modules") rfl hrest ?_
  exact .down ⟨by decide, by decide, by decide⟩ rfl rfl h

theorem find_vendor_file : linkedDisk.find false ⟨"/vendor/a.ts"⟩
    = .ok (["node_modules", "a.ts"], .file "A".toUTF8 0o644) := by
  have hpieces : pathPieces "/vendor/a.ts" = ["vendor", "a.ts"] := by decide
  refine find_eq_ok.2 (resolve_eq_ok.2 ⟨by decide, ?_⟩)
  rw [hpieces, if_pos (by decide)]
  exact walks_vendor (.inl (by simp)) (.down ⟨by decide, by decide, by decide⟩ rfl rfl (.stop rfl))

theorem find_vendor : linkedDisk.find true ⟨"/vendor"⟩
    = .ok (["node_modules"], .dir 0o755 [("a.ts", .file "A".toUTF8 0o644)]) := by
  have hpieces : pathPieces "/vendor" = ["vendor"] := by decide
  refine find_eq_ok.2 (resolve_eq_ok.2 ⟨by decide, ?_⟩)
  rw [hpieces, if_pos (by decide)]
  exact walks_vendor (.inr rfl) (.stop rfl)

theorem takes_vendor : (removalOf "vendor/a.ts").Takes linkedDisk ⟨"vendor/a.ts"⟩
    ["node_modules", "a.ts"] := by
  have hjoin : (⟨"/"⟩ : Path).join ⟨"vendor/a.ts"⟩ = ⟨"/vendor/a.ts"⟩ := by decide
  have hparent : (⟨"/vendor/a.ts"⟩ : Path).parent? = some ⟨"/vendor"⟩ := by decide
  rw [Takes, absolute_removalOf, Deletion.realRoot, canonical_separator rfl]
  refine ⟨by decide, ?_, ?_⟩
  · simp only [hjoin]
    exact ⟨_, _, find_vendor_file⟩
  · simp only [hjoin]
    rw [Deletion.checkPlace, hparent]
    simp only [canonical, find_vendor]
    rw [if_neg (by decide)]
    simp only
    rw [if_pos (by decide)]

theorem linkedDisk_unlinked : linkedDisk.TempUnlinked := fun loc x c k t hfile hlink => by
  simp [linkedDisk_tidy.free loc x c k hfile] at hlink

/-- An entry that is written with the name of the link removes a file below the excluded directory. -/
theorem linked_file_removed : (removalOf "vendor/a.ts").dryRun = false ∧ linkedDisk.WellNamed
    ∧ linkedDisk.TempUnlinked
    ∧ linkedDisk.LeadsTo (linkedDisk.absolute (removalOf "vendor/a.ts").root) []
    ∧ "node_modules" ∈ (removalOf "vendor/a.ts").excludedDirs
    ∧ linkedDisk.root.get? ["node_modules", "a.ts"] = some (.file "A".toUTF8 0o644)
    ∧ ((removalOf "vendor/a.ts").execute "" 0 linkedDisk).disk.root.get? ["node_modules", "a.ts"]
      = none := by
  have hlead : linkedDisk.LeadsTo (linkedDisk.absolute (removalOf "vendor/a.ts").root) [] := by
    rw [absolute_removalOf]
    exact leadsTo_separator rfl
  have hmem : "node_modules" ∈ (removalOf "vendor/a.ts").excludedDirs := List.mem_singleton.2 rfl
  obtain ⟨gone, -, hall, hat⟩ := removed_below_excluded ["node_modules"] "a.ts" "" 0 rfl
    linkedDisk_tidy.named linkedDisk_unlinked hlead ⟨_, List.mem_singleton.2 rfl, hmem⟩
  have hgone : [] ++ ["node_modules"] ++ ["a.ts"] ∈ gone.map (·.2) :=
    hall _ (List.mem_singleton.2 rfl) _ takes_vendor
  rw [if_pos hgone] at hat
  exact ⟨rfl, linkedDisk_tidy.named, linkedDisk_unlinked, hlead, hmem, rfl, at?_eq_none.1 hat⟩

/-- An entry that is written with the name of the directory does not. -/
theorem execute_excluded_named : (removalOf "node_modules/a.ts").dryRun = false
    ∧ linkedDisk.WellNamed ∧ linkedDisk.TempUnlinked
    ∧ linkedDisk.LeadsTo (linkedDisk.absolute (removalOf "node_modules/a.ts").root) []
    ∧ "node_modules" ∈ (removalOf "node_modules/a.ts").excludedDirs
    ∧ linkedDisk.root.get? ["node_modules", "a.ts"] = some (.file "A".toUTF8 0o644)
    ∧ ((removalOf "node_modules/a.ts").execute "" 0 linkedDisk).disk.root.get? ["node_modules", "a.ts"]
      = some (.file "A".toUTF8 0o644) := by
  have hlead : linkedDisk.LeadsTo (linkedDisk.absolute (removalOf "node_modules/a.ts").root) [] := by
    rw [absolute_removalOf]
    exact leadsTo_separator rfl
  have hmem : "node_modules" ∈ (removalOf "node_modules/a.ts").excludedDirs :=
    List.mem_singleton.2 rfl
  have hnot : ¬ ∃ p ∈ Path.distinct (removalOf "node_modules/a.ts").deletions,
      (removalOf "node_modules/a.ts").Takes linkedDisk p ["node_modules", "a.ts"] := by
    rintro ⟨p, hp, htakes⟩
    obtain rfl := List.mem_singleton.1 hp
    exact absurd htakes.text (by decide)
  exact ⟨rfl, linkedDisk_tidy.named, linkedDisk_unlinked, hlead, hmem, rfl,
    (execute_excluded ["node_modules"] "a.ts" "" 0 rfl linkedDisk_tidy.named linkedDisk_unlinked hlead
      ⟨_, List.mem_singleton.2 rfl, hmem⟩ rfl).2 hnot⟩

end RunRequest

end Codemod
