/-
Replacing the content of whatever a path leads to, where nothing has the name of the second file yet. Either
the entry that the path names is a file with the new content and the permissions that were found, and all
else is as before, or nothing has happened at all (`replaceFile_of_swappable`, `replaceFile_else`). What is
read afterwards is the new content, unless the path led to its entry by way of that entry
(`stat_replaced_iff`).
-/
import Codemod.Proofs.Disk.Past
import Codemod.Proofs.Run.Tidy

namespace Codemod.Disk

open Node Codemod.Path

variable {d e : Disk} {p q : Path} {loc loc' l : Location} {x y t : String} {n m : Node} {b : ByteArray} {follow : Bool}

namespace Node

theorem eq_dir_of_isDir (h : n.isDir = true) : ∃ mode es, n = .dir mode es := by
  cases n with
  | dir mode es => exact ⟨mode, es, rfl⟩
  | file | link | full => cases h

theorem SameWays.isDir_eq {r s : Node} (h : r.SameWays s) (hr : r.get? l = some n) (hs : s.get? l = some m) :
    m.isDir = n.isDir := by
  rw [Bool.eq_iff_iff]
  constructor
  · intro hm
    obtain ⟨mode, es, rfl⟩ := eq_dir_of_isDir hm
    obtain ⟨_, _, hget⟩ := h.symm.dir hs
    rw [Option.some.inj (hr.symm.trans hget)]
    rfl
  · intro hn
    obtain ⟨mode, es, rfl⟩ := eq_dir_of_isDir hn
    obtain ⟨_, _, hget⟩ := h.dir hr
    rw [Option.some.inj (hs.symm.trans hget)]
    rfl

end Node

/-! ## Giving a file another name -/

theorem not_prefix_beside (hne : x ≠ y) : (loc ++ [x]).isPrefixOf (loc ++ [y]) = false := by
  rw [Bool.eq_false_iff, ne_eq, List.isPrefixOf_iff_prefix]
  exact fun h => hne (by simpa using h.eq_of_length (by simp))

/-- What asks for a directory does not become a file. -/
theorem rename_refused (hfind : d.find false p = .ok (l, n)) (hn : n.isDir = false)
    (hq : isNameless q = true ∨ endsWithSeparator q = true) : ∃ err, d.rename p q = .error err := by
  rw [rename, hfind]
  simp only [bind, Except.bind]
  by_cases hnameless : (isNameless p || isNameless q) = true
  · rw [if_pos hnameless]
    cases d.resolve false q with
    | error err => exact ⟨err, rfl⟩
    | ok spot => exact ⟨.busy, rfl⟩
  · have hsep : endsWithSeparator q = true := by simp_all
    rw [if_neg hnameless]
    exact ⟨.notDirectory, by simp [hn, hsep]⟩

theorem mayReplace_of_isLeaf (hn : n.isLeaf = true) :
    mayReplace (l, n) (loc, m) = if m.isDir then .error .isDirectory else .ok () := by
  cases n with
  | file | full => cases m <;> rfl
  | link | dir => simp [isLeaf] at hn

/-- A file takes the place of what is no directory. -/
theorem Names.rename_over (h : d.Names p loc x) (hq : d.Names q loc y) (hne : x ≠ y) (hr : refusal? p = none)
    (hr' : refusal? q = none) (hn : d.root.get? (loc ++ [x]) = some n) (hleaf : n.isLeaf = true)
    (hm : d.root.get? (loc ++ [y]) = some m) : d.rename p q = if m.isDir then .error .isDirectory
      else .ok ((d.without (loc ++ [x])).withNode (loc ++ [y]) n) := by
  have hother : (loc ++ [y] == loc ++ [x]) = false := by simpa using Ne.symm hne
  rw [Disk.rename, h.find_unfollowed hr hn, find_eq_ok.1 (hq.find_unfollowed hr' hm)]
  simp only [bind, Except.bind, h.isNameless, hq.isNameless, h.endsWithSeparator, hq.endsWithSeparator, hother,
    not_prefix_beside hne, not_prefix_beside hne.symm, mayReplace_of_isLeaf hleaf, Bool.or_self, Bool.and_false,
    Bool.false_eq_true, if_false, pure, Except.pure]
  cases m.isDir <;> rfl

/-! ## The second file -/

/-- Nothing has the name that the second file of a file has. -/
def BesideFree (d : Disk) (p : Path) : Prop :=
  ∀ x m, p.fileName? = some x → d.lstat (p.withFileName (tempName x)) ≠ .ok m

section Free

variable (h : d.Names q loc t) (hfree : d.root.get? (loc ++ [t]) = none)

include hfree

theorem without_withNode_free (n : Node) : (d.withNode (loc ++ [t]) n).without (loc ++ [t]) = d := by
  rw [without_withNode, without_of_get? hfree]

include h

/-- The second file is all that is there more. -/
theorem Names.withNode_free (hn : n.isLeaf = true) : d.root.SameWays (d.withNode (loc ++ [t]) n).root
    ∧ (d.withNode (loc ++ [t]) n).root.get? (loc ++ [t]) = some n
    ∧ ∀ l, (d.withNode (loc ++ [t]) n).root.at? l = if l = loc ++ [t] then some n.label else d.root.at? l := by
  obtain ⟨mode, es, hdir⟩ := h.get?
  have hnone : Entries.get? t es = none := by rw [← get?_concat hdir, hfree]
  exact ⟨withNode_sameWays hdir (by simp [hnone]) hn, withNode_get? hdir n,
    at?_withNode hdir (by simp [hnone]) (isDir_of_isLeaf hn)⟩

variable (hr : refusal? q = none)

include hr

theorem Names.remove_free (hn : n.isLeaf = true) : (d.withNode (loc ++ [t]) n).remove q = .ok d := by
  obtain ⟨hways, hget, -⟩ := h.withNode_free hfree hn
  have hnames : (d.withNode (loc ++ [t]) n).Names q loc t := h.of_sameWays hways rfl
  rw [Disk.remove, hnames.find_unfollowed hr hget]
  simp only [bind, Except.bind, isDir_of_isLeaf hn, Bool.false_eq_true, if_false]
  exact congrArg Except.ok (without_withNode_free hfree n)

/-- Up to its last step, a replacement makes the second file and nothing else. -/
theorem Names.fillAndSwap_free (mode : Nat) (b : ByteArray) :
    d.fillAndSwap p q mode b = match (d.withNode (loc ++ [t]) (.file b mode)).rename q p with
      | .ok e => (.ok (), e)
      | .error err => (.error err, d.withNode (loc ++ [t]) (.file b mode)) := by
  have hopen : d.openFile true q = .ok (loc ++ [t], d.withNode (loc ++ [t]) (.file .empty fileMode)) := by
    rw [Disk.openFile, h.resolve true (by simp [hfree]), hr, hfree]
    rfl
  obtain ⟨-, hempty, -⟩ := h.withNode_free hfree (n := .file .empty fileMode) rfl
  obtain ⟨hways, hfull, -⟩ := h.withNode_free hfree (n := .file b fileMode) rfl
  have hmode : (d.withNode (loc ++ [t]) (.file b fileMode)).setMode q mode
      = .ok (d.withNode (loc ++ [t]) (.file b mode)) := by
    have hleaf : ∀ n, (d.withNode (loc ++ [t]) (.file b fileMode)).root.get? (loc ++ [t]) = some n →
        n.isLeaf = true := by
      intro n hn
      rw [← Option.some.inj (hfull.symm.trans hn)]
      rfl
    rw [setMode, (h.of_sameWays hways rfl).find (fun _ => hleaf), hr, hfull]
    exact congrArg Except.ok (withNode_withNode d loc t _ _)
  rw [fillAndSwap, hopen]
  simp only [append_file hempty, withNode_withNode, ByteArray.empty_append, sync_file hfull, hmode]
  split <;> simp_all

end Free

/-! ## Entries that can be replaced -/

/-- A path to an entry whose place a new file can take, and what the path leads to. -/
structure Swappable (d : Disk) (p : Path) (loc : Location) (x : String) (n : Node) : Prop where
  names : d.Names p loc x
  leads : d.stat p = .ok n
  writable : n.isReadOnly = false
  occupied : ∃ m, d.root.get? (loc ++ [x]) = some m ∧ m.isDir = false
  temp : refusal? (p.withFileName (tempName x)) = none

theorem exists_find (h : (d.find follow p).map (·.2) = .ok n) : ∃ l, d.find follow p = .ok (l, n) := by
  cases hfind : d.find follow p with
  | error err => simp [hfind, Except.map] at h
  | ok found =>
    rw [hfind] at h
    exact ⟨found.1, by rw [← Except.ok.inj h]⟩

theorem exists_find_of_stat (h : d.stat p = .ok n) : ∃ l, d.find true p = .ok (l, n) := exists_find h

theorem exists_find_of_lstat (h : d.lstat p = .ok n) : ∃ l, d.find false p = .ok (l, n) := exists_find h

theorem lstat_of_find (h : d.find false p = .ok (l, n)) : d.lstat p = .ok n := by
  rw [lstat, h]
  rfl

/-- Where a path leads to something, the second file has a directory to be made in. -/
theorem exists_temp (hstat : d.stat p = .ok n) (hname : p.fileName? = some x) :
    ∃ loc, d.Names (p.withFileName (tempName x)) loc (tempName x) := by
  obtain ⟨l, hfind⟩ := exists_find_of_stat hstat
  obtain ⟨hx, -⟩ := trimmed_of_fileName hname
  obtain ⟨loc, htemp, -⟩ := exists_names hname hx.temp hfind
  exact ⟨loc, htemp⟩

/-- The second file of an entry is an entry of the same directory. -/
theorem Names.temp (h : d.Names p loc x) (hstat : d.stat p = .ok n) :
    d.Names (p.withFileName (tempName x)) loc (tempName x) := by
  obtain ⟨l, hfind⟩ := exists_find_of_stat hstat
  obtain ⟨loc', htemp, hnames | ⟨-, hdir⟩⟩ := exists_names h.fileName? h.name.temp hfind
  · rwa [(h.unique hnames).1]
  · simp [h.isNameless, h.endsWithSeparator] at hdir

theorem Swappable.refusal?_eq_none (h : d.Swappable p loc x n) : refusal? p = none := by
  obtain ⟨l, hfind⟩ := exists_find_of_stat h.leads
  obtain ⟨l', m, hfind⟩ := exists_find_unfollowed hfind
  exact (h.names.entry hfind).1

/-- There is no second file of an entry where its name is free in the directory. -/
theorem Swappable.besideFree_iff (h : d.Swappable p loc x n) :
    d.BesideFree p ↔ d.root.get? (loc ++ [tempName x]) = none := by
  have htemp := h.names.temp h.leads
  constructor
  · intro hfree
    refine Option.eq_none_iff_forall_ne_some.2 fun m hm => ?_
    exact hfree x m h.names.fileName? (lstat_of_find (htemp.find_unfollowed h.temp hm))
  · intro hget y m hy hm
    obtain rfl := Option.some.inj (h.names.fileName?.symm.trans hy)
    rw [lstat, find, htemp.resolve false (absurd · Bool.false_ne_true), h.temp, hget] at hm
    cases hm

/-! ## The steps of a replacement -/

/-- What is refused at the start leaves the disk as it was. -/
theorem replaceFile_early (h : ∀ x n, d.stat p = .ok n → n.isReadOnly = false → p.fileName? ≠ some x)
    (b : ByteArray) : ∃ err, d.replaceFile p b = (.error err, d) := by
  rw [replaceFile]
  cases hstat : d.stat p with
  | error err => exact ⟨_, rfl⟩
  | ok n =>
    simp only
    cases hmode : n.isReadOnly with
    | true => exact ⟨_, rfl⟩
    | false =>
      cases hname : p.fileName? with
      | none => exact ⟨_, rfl⟩
      | some x => exact absurd hname (h x n hstat hmode)

/-- Otherwise the second file is made, and goes again if a step fails. -/
theorem replaceFile_swap (hstat : d.stat p = .ok n) (hmode : n.isReadOnly = false) (hname : p.fileName? = some x)
    (b : ByteArray) : d.replaceFile p b = match d.fillAndSwap p (p.withFileName (tempName x)) n.mode b with
      | (.ok (), e) => (.ok (), e)
      | (.error err, e) => (.error (.ofOs p err), match e.remove (p.withFileName (tempName x)) with
        | .ok e => e
        | .error _ => e) := by
  rcases hswap : d.fillAndSwap p (p.withFileName (tempName x)) n.mode b with ⟨r, e⟩
  cases r with
  | ok => simp [replaceFile, hstat, hmode, hname, hswap]
  | error err =>
    cases hremove : e.remove (p.withFileName (tempName x)) <;>
      simp [replaceFile, hstat, hmode, hname, hswap, hremove]

/-- Where there is nothing beside, all depends on whether the second file can be made, and then be given the
name of the first. -/
theorem replaceFile_of_free (hstat : d.stat p = .ok n) (hmode : n.isReadOnly = false)
    (hname : p.fileName? = some x) (hfree : d.BesideFree p) (b : ByteArray) :
    (∃ err, d.replaceFile p b = (.error err, d)) ∨ refusal? (p.withFileName (tempName x)) = none
      ∧ ∃ loc, d.Names (p.withFileName (tempName x)) loc (tempName x) ∧ d.root.get? (loc ++ [tempName x]) = none
      ∧ d.replaceFile p b
        = match (d.withNode (loc ++ [tempName x]) (.file b n.mode)).rename (p.withFileName (tempName x)) p with
          | .ok e => (.ok (), e)
          | .error err => (.error (.ofOs p err), d) := by
  obtain ⟨loc, htemp⟩ := exists_temp hstat hname
  rw [replaceFile_swap hstat hmode hname]
  cases hr : refusal? (p.withFileName (tempName x)) with
  | some err =>
    have hnone (follow : Bool) : d.resolve follow (p.withFileName (tempName x)) = .error err := by
      rw [htemp.resolve follow fun _ h => by simp [hr] at h, hr]
    refine .inl ⟨.ofOs p err, ?_⟩
    simp [fillAndSwap, openFile, remove, find, hnone, bind, Except.bind]
  | none =>
    have hget : d.root.get? (loc ++ [tempName x]) = none :=
      Option.eq_none_iff_forall_ne_some.2 fun m hm =>
        hfree x m hname (lstat_of_find (htemp.find_unfollowed hr hm))
    refine .inr ⟨rfl, loc, htemp, hget, ?_⟩
    rw [htemp.fillAndSwap_free hget hr]
    cases (d.withNode (loc ++ [tempName x]) (.file b n.mode)).rename (p.withFileName (tempName x)) p with
    | ok e => rfl
    | error err => simp only [htemp.remove_free hget hr (n := .file b n.mode) rfl]

/-! ## All or nothing -/

/-- The second file takes the place of an entry beside it. -/
theorem Swappable.rename (h : d.Swappable p loc x n) (hfree : d.root.get? (loc ++ [tempName x]) = none)
    (b : ByteArray) : (d.withNode (loc ++ [tempName x]) (.file b n.mode)).rename (p.withFileName (tempName x)) p
      = .ok (d.withNode (loc ++ [x]) (.file b n.mode)) := by
  have htemp := h.names.temp h.leads
  obtain ⟨m, hm, hnot⟩ := h.occupied
  obtain ⟨hways, hget, hat⟩ := htemp.withNode_free hfree (n := .file b n.mode) rfl
  have hoccupant : ∃ m', (d.withNode (loc ++ [tempName x]) (.file b n.mode)).root.get? (loc ++ [x]) = some m'
      ∧ m'.isDir = false := by
    have hsame := hat (loc ++ [x])
    rw [if_neg (by simpa using (tempName_ne x).symm), at?, at?, hm] at hsame
    obtain ⟨m', hm', -⟩ := Option.map_eq_some_iff.1 hsame
    exact ⟨m', hm', (hways.isDir_eq hm hm').trans hnot⟩
  obtain ⟨m', hm', hnot'⟩ := hoccupant
  rw [(htemp.of_sameWays hways rfl).rename_over (h.names.of_sameWays hways rfl) (tempName_ne x) h.temp
    h.refusal?_eq_none hget rfl hm', hnot', without_withNode_free hfree]
  rfl

/-- **An entry whose place a new file can take is given the new content** and the permissions that were found,
and nothing else changes. -/
theorem replaceFile_of_swappable (h : d.Swappable p loc x n) (hfree : d.BesideFree p) (b : ByteArray) :
    d.replaceFile p b = (.ok (), d.withNode (loc ++ [x]) (.file b n.mode)) := by
  have hget := h.besideFree_iff.1 hfree
  rw [replaceFile_swap h.leads h.writable h.names.fileName?,
    (h.names.temp h.leads).fillAndSwap_free hget h.temp, h.rename hget]

/-- **Where there is no such entry, nothing happens.** -/
theorem replaceFile_else (h : ∀ loc x n, ¬ d.Swappable p loc x n) (hfree : d.BesideFree p) (b : ByteArray) :
    ∃ err, d.replaceFile p b = (.error err, d) := by
  by_cases hbegins : ∀ x n, d.stat p = .ok n → n.isReadOnly = false → p.fileName? ≠ some x
  · exact replaceFile_early hbegins b
  push Not at hbegins
  obtain ⟨x, n, hstat, hmode, hname⟩ := hbegins
  obtain herror | ⟨hr, loc, htemp, hget, heq⟩ := replaceFile_of_free hstat hmode hname hfree b
  · exact herror
  suffices hrefused : ∃ err, (d.withNode (loc ++ [tempName x]) (.file b n.mode)).rename
      (p.withFileName (tempName x)) p = .error err by
    obtain ⟨err, hrefused⟩ := hrefused
    exact ⟨_, by rw [heq, hrefused]⟩
  obtain ⟨l, hfind⟩ := exists_find_of_stat hstat
  obtain ⟨hways, hthere, -⟩ := htemp.withNode_free hget (n := .file b n.mode) rfl
  have hnames : (d.withNode (loc ++ [tempName x]) (.file b n.mode)).Names _ loc _ := htemp.of_sameWays hways rfl
  obtain ⟨loc', htemp', hp | ⟨-, hdir⟩⟩ := exists_names hname htemp.name hfind
  · -- The path names an entry, and that is a directory.
    obtain rfl := (htemp.unique htemp').1
    obtain ⟨l', m, hentry⟩ := exists_find_unfollowed hfind
    obtain ⟨hr', -, hm⟩ := hp.entry hentry
    have hmdir : m.isDir = true := by
      by_contra hnot
      exact h loc x n ⟨hp, hstat, hmode, ⟨m, hm, by simpa using hnot⟩, hr⟩
    obtain ⟨mode, es, rfl⟩ := eq_dir_of_isDir hmdir
    obtain ⟨mode', es', hm'⟩ := hways.dir hm
    refine ⟨.isDirectory, ?_⟩
    rw [hnames.rename_over (hp.of_sameWays hways rfl) (tempName_ne x) hr hr' hthere rfl hm']
    rfl
  · exact rename_refused (hnames.find_unfollowed hr hthere) rfl hdir

/-! ## What is read afterwards -/

section Replaced

variable (h : d.Swappable p loc x n)

include h

theorem Swappable.at?_withNode (b : ByteArray) (k : Nat) (l : Location) :
    (d.withNode (loc ++ [x]) (.file b k)).root.at? l
      = if l = loc ++ [x] then some (.file b k) else d.root.at? l := by
  obtain ⟨mode, es, hdir⟩ := h.names.get?
  obtain ⟨m, hm, hnot⟩ := h.occupied
  refine Disk.at?_withNode hdir (fun n hn => ?_) rfl l
  rwa [Option.some.inj (hn.symm.trans ((get?_concat hdir x).symm.trans hm))]

theorem Swappable.at?_without (l : Location) : (d.without (loc ++ [x])).root.at? l
    = if l = loc ++ [x] then none else d.root.at? l := by
  obtain ⟨mode, es, hdir⟩ := h.names.get?
  obtain ⟨m, hm, hnot⟩ := h.occupied
  refine Disk.at?_without hdir (fun n hn => ?_) l
  rwa [Option.some.inj (hn.symm.trans ((get?_concat hdir x).symm.trans hm))]

/-- For whoever follows a path, a file is as good as nothing. -/
theorem Swappable.sameWays (b : ByteArray) (k : Nat) :
    (d.without (loc ++ [x])).root.SameWays (d.withNode (loc ++ [x]) (.file b k)).root := by
  intro l
  rw [way?, way?, h.at?_withNode, h.at?_without]
  split <;> rfl

theorem Swappable.fewer {l : Location} {w : Way} (hw : (d.without (loc ++ [x])).root.way? l = some w) :
    d.root.way? l = some w := by
  rw [way?, h.at?_without] at hw
  split at hw
  · cases hw
  · exact hw

/-- **The new content is read** where the path does not lead by way of the entry that it names. -/
theorem Swappable.stat_withNode (hpast : (d.without (loc ++ [x])).Names p loc x) (b : ByteArray) (k : Nat) :
    (d.withNode (loc ++ [x]) (.file b k)).stat p = .ok (.file b k) := by
  have hnames : (d.withNode (loc ++ [x]) (.file b k)).Names p loc x := hpast.of_sameWays (h.sameWays b k) rfl
  have hget := at?_eq_file.1 ((h.at?_withNode b k (loc ++ [x])).trans (if_pos rfl))
  rw [stat, hnames.find, h.refusal?_eq_none, hget]
  · rfl
  · intro _ n hn
    rw [← Option.some.inj (hget.symm.trans hn)]
    rfl

/-- Something that a path leads to afterwards is the entry that it named. -/
theorem Swappable.names_of_withNode {y : String} {k : Nat} (hq : d.Names q loc y)
    (hfind : (d.withNode (loc ++ [x]) (.file b k)).find follow q = .ok (l, m)) :
    (d.without (loc ++ [x])).Names q loc y := by
  obtain ⟨loc', hnames⟩ := hq.of_find hfind
  have hpast : (d.without (loc ++ [x])).Names q loc' y := hnames.of_sameWays (h.sameWays b k).symm rfl
  obtain rfl := (hq.unique (hpast.of_fewer rfl fun _ _ => h.fewer)).1
  exact hpast

/-- **A path that does not lead to a directory** does not lead by way of its entry. -/
theorem Swappable.past (hn : n.isDir = false) : (d.without (loc ++ [x])).Names p loc x := by
  obtain ⟨m, hm, hnot⟩ := h.occupied
  obtain ⟨l, hfind⟩ := exists_find_of_stat h.leads
  refine h.names.past rfl (fun l hl => ?_) fun l y t ht => ?_
  · rw [way?, h.at?_without, if_neg]
    · exact hl
    · intro hplace
      obtain ⟨mode, es, hdir⟩ := exists_dir_of_way? (hplace ▸ hl)
      rw [Option.some.inj (hm.symm.trans hdir)] at hnot
      cases hnot
  · by_cases hplace : l ++ [y] = loc ++ [x]
    · obtain ⟨rfl, hy⟩ := List.append_inj' hplace rfl
      rw [List.singleton_inj.1 hy]
      exact .inr (h.names.no_dir_behind hfind hn)
    · refine .inl (way?_eq_target.1 ?_)
      rw [way?, h.at?_without, if_neg hplace]
      exact way?_eq_target.2 ht

/-- The second file is gone again. -/
theorem Swappable.besideFree (hfree : d.BesideFree p) (b : ByteArray) (k : Nat) :
    (d.withNode (loc ++ [x]) (.file b k)).BesideFree p := by
  intro y m hy hm
  obtain rfl := Option.some.inj (h.names.fileName?.symm.trans hy)
  have htemp := h.names.temp h.leads
  obtain ⟨l, hfind⟩ := exists_find_of_lstat hm
  have hnames : (d.withNode (loc ++ [x]) (.file b k)).Names _ loc _ :=
    (h.names_of_withNode htemp hfind).of_sameWays (h.sameWays b k) rfl
  obtain ⟨-, -, hget⟩ := hnames.entry hfind
  have hat := h.at?_withNode b k (loc ++ [tempName x])
  rw [at?, hget, if_neg (by simpa using tempName_ne x), at?_eq_none.2 (h.besideFree_iff.1 hfree)] at hat
  cases hat

end Replaced

theorem exists_find_of_read {c : ByteArray} (h : d.read p = .ok c) :
    ∃ l n, d.find true p = .ok (l, n) := by
  rw [read] at h
  cases hstat : d.stat p with
  | error err => simp [hstat, bind, Except.bind] at h
  | ok n =>
    obtain ⟨l, hfind⟩ := exists_find_of_stat hstat
    exact ⟨l, n, hfind⟩

/-- **Replacing content is all or nothing**, where nothing has the name of the second file. A replacement
that fails leaves the disk exactly as it was, and so does one of what nobody may write, which always fails. One that
succeeds, as it does wherever a file can take the place of the entry that the path names, leaves a file there with the
new content and the permissions that were found, and no second file. The path then leads to that file, unless it led
there by way of the entry itself, which has to have been a link and to have led to a directory. -/
theorem replaceFile_all_or_nothing (b : ByteArray) (hfree : d.BesideFree p) :
    (∀ err, (d.replaceFile p b).1 = .error err → (d.replaceFile p b).2 = d)
    ∧ ((d.replaceFile p b).1 = .ok () → ∃ loc x n, d.Swappable p loc x n
      ∧ (d.replaceFile p b).2 = d.withNode (loc ++ [x]) (.file b n.mode)
      ∧ (d.replaceFile p b).2.BesideFree p
      ∧ ((d.replaceFile p b).2.read p = .ok b ↔ (d.without (loc ++ [x])).Names p loc x)
      ∧ ((d.replaceFile p b).2.stat p = .ok (.file b n.mode) ↔ (d.without (loc ++ [x])).Names p loc x)
      ∧ (n.isDir = false → (d.without (loc ++ [x])).Names p loc x))
    ∧ (∀ loc x n, d.Swappable p loc x n → (d.replaceFile p b).1 = .ok ())
    ∧ ∀ n, d.stat p = .ok n → n.isReadOnly = true → ∃ err, (d.replaceFile p b).1 = .error err := by
  by_cases hswappable : ∃ loc x n, d.Swappable p loc x n
  · obtain ⟨loc, x, n, h⟩ := hswappable
    rw [replaceFile_of_swappable h hfree b]
    refine ⟨by simp, fun _ => ⟨loc, x, n, h, rfl, h.besideFree hfree b n.mode, ?_, ?_, h.past⟩, by simp, ?_⟩
    · refine ⟨fun hread => ?_, fun hpast => ?_⟩
      · obtain ⟨l, m, hfind⟩ := exists_find_of_read hread
        exact h.names_of_withNode h.names hfind
      · rw [read, h.stat_withNode hpast]
        rfl
    · refine ⟨fun hstat => ?_, fun hpast => h.stat_withNode hpast b n.mode⟩
      obtain ⟨l, hfind⟩ := exists_find_of_stat hstat
      exact h.names_of_withNode h.names hfind
    · intro n' hn' hmode
      rw [Except.ok.inj (hn'.symm.trans h.leads), h.writable] at hmode
      cases hmode
  · push Not at hswappable
    obtain ⟨err, herror⟩ := replaceFile_else hswappable hfree b
    rw [herror]
    exact ⟨fun _ _ => rfl, by simp, fun loc x n h => absurd h (hswappable loc x n), fun _ _ _ => ⟨err, rfl⟩⟩

/-- A directory with a file and with a link to itself. -/
def nearDisk : Disk where
  root := .dir 0o755 [("a.ts", .file "A".toUTF8 0o640), ("near", .link ".")]
  workDir := []

theorem walks_near {links : Nat} {ps : List String} {spot : Spot} (hps : ps ≠ [] ∨ follow = true)
    (h : Walks nearDisk.root follow links [] ps spot) : Walks nearDisk.root follow (links + 1) [] ("near" :: ps) spot :=
  .follow ⟨by decide, by decide, by decide⟩ (t := ".") rfl hps (.stay rfl h)

theorem names_near (hx : IsName x) (hpieces : pathPieces p.text = ["near", x])
    (hstart : startsAtRoot p.text = false) : nearDisk.Names p [] x :=
  ⟨hx, ["near"], hpieces, 0o755, _, by rw [hstart]; exact walks_near (.inr rfl) (.stop rfl)⟩

/-- By way of the link, the file is replaced and read. -/
theorem replaceFile_by_link : nearDisk.BesideFree ⟨"near/a.ts"⟩
    ∧ (nearDisk.replaceFile ⟨"near/a.ts"⟩ "B".toUTF8).1 = .ok ()
    ∧ (nearDisk.replaceFile ⟨"near/a.ts"⟩ "B".toUTF8).2.stat ⟨"near/a.ts"⟩ = .ok (.file "B".toUTF8 0o640) := by
  have hnames : nearDisk.Names ⟨"near/a.ts"⟩ [] "a.ts" := names_near (by decide) (by decide) (by decide)
  have hstat : nearDisk.stat ⟨"near/a.ts"⟩ = .ok (.file "A".toUTF8 0o640) := by
    have hleaf : ∀ n, nearDisk.root.get? ["a.ts"] = some n → n.isLeaf = true := by
      intro n hn
      cases hn
      rfl
    rw [stat, hnames.find fun _ => hleaf]
    rfl
  have h : nearDisk.Swappable ⟨"near/a.ts"⟩ [] "a.ts" (.file "A".toUTF8 0o640) :=
    ⟨hnames, hstat, by decide, ⟨_, rfl, rfl⟩, by decide⟩
  have hfree : nearDisk.BesideFree ⟨"near/a.ts"⟩ := h.besideFree_iff.2 rfl
  obtain ⟨-, hdone, hok, -⟩ := replaceFile_all_or_nothing "B".toUTF8 hfree
  obtain ⟨loc, x, n, h', -, -, -, hread, hpast⟩ := hdone (hok _ _ _ h)
  obtain rfl := Except.ok.inj (hstat.symm.trans h'.leads)
  exact ⟨hfree, hok _ _ _ h, hread.2 (hpast rfl)⟩

/-- A path that leads by way of the link that it names leads nowhere when the link has been replaced. -/
theorem replaced_link_not_read : nearDisk.BesideFree ⟨"near/near"⟩
    ∧ (nearDisk.replaceFile ⟨"near/near"⟩ "B".toUTF8).1 = .ok ()
    ∧ (nearDisk.replaceFile ⟨"near/near"⟩ "B".toUTF8).2.read ⟨"near/near"⟩ ≠ .ok "B".toUTF8 := by
  have hpieces : pathPieces "near/near" = ["near", "near"] := by decide
  have hnames : nearDisk.Names ⟨"near/near"⟩ [] "near" := names_near (by decide) hpieces (by decide)
  have hresolve : nearDisk.resolve true ⟨"near/near"⟩ = .ok (.node [] nearDisk.root) := by
    refine resolve_eq_ok.2 ⟨by decide, ?_⟩
    rw [hpieces, if_neg (by decide)]
    exact walks_near (.inr rfl) (walks_near (.inr rfl) (.stop rfl))
  have hstat : nearDisk.stat ⟨"near/near"⟩ = .ok nearDisk.root := by
    rw [stat, find_eq_ok.2 hresolve]
    rfl
  have h : nearDisk.Swappable ⟨"near/near"⟩ [] "near" nearDisk.root :=
    ⟨hnames, hstat, by decide, ⟨_, rfl, rfl⟩, by decide⟩
  have hfree : nearDisk.BesideFree ⟨"near/near"⟩ := h.besideFree_iff.2 rfl
  rw [replaceFile_of_swappable h hfree]
  refine ⟨hfree, rfl, fun hread => ?_⟩
  -- The first piece leads to the new file now, and there is no going on from it.
  obtain ⟨l, n, hfind⟩ := exists_find_of_read hread
  have hway := (resolve_eq_ok.1 (find_eq_ok.1 hfind)).2
  rw [hpieces, if_neg (by decide), ← walk_eq_ok] at hway
  have hfirst : Walks (nearDisk.withNode ["near"] (.file "B".toUTF8 0o755)).root true maxLinks [] ["near"]
      (.node ["near"] (.file "B".toUTF8 0o755)) :=
    .down ⟨by decide, by decide, by decide⟩ rfl rfl (.stop rfl)
  obtain ⟨err, herror⟩ := hfirst.stuck rfl "near" [] true
  cases herror.symm.trans hway

end Codemod.Disk
