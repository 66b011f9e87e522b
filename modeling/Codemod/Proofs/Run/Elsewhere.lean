/-
What replacing a file does elsewhere. Up to the last step disks only grow (`Grows`): a file is made or filled,
at the name of the second file or wherever a link of that name leads. The last step takes away what had the
name (`replaceFile_clears`), so that nothing else is touched exactly if there was nothing, or a directory,
which stops the replacement at once (`replaceFile_elsewhere_iff`).
-/
import Codemod.Proofs.Run.Atomic
import Codemod.Proofs.Run.Order

namespace Codemod.Disk

open Node Codemod.Path

namespace Node

variable {root n v : Node} {loc : Location}

theorem get?_put_self (h : root.get? loc = some n) (v : Node) : (root.put loc v).get? loc = some v := by
  rcases List.eq_nil_or_concat loc with rfl | ⟨front, x, rfl⟩
  · simp [put, alter]
  · rw [List.concat_eq_append] at h ⊢
    obtain ⟨mode, es, hdir⟩ := exists_dir_above h
    exact get?_alter_self hdir

/-- What has the same below it changes nothing elsewhere. -/
theorem at?_put_over (h : root.get? loc = some n) (hbelow : ∀ x rest, v.get? (x :: rest) = n.get? (x :: rest))
    (l : Location) : (root.put loc v).at? l = if l = loc then some v.label else root.at? l := by
  by_cases hp : loc <+: l
  · obtain ⟨rest, rfl⟩ := hp
    rw [at?, at?, get?_append, get?_append, get?_put_self h, h]
    cases rest with
    | nil => simp
    | cons x rest => simp [hbelow]
  · rw [put, at?_alter_elsewhere hp, if_neg]
    intro hl
    exact hp (hl ▸ List.prefix_refl _)

theorem get?_withMode (n : Node) (k : Nat) (x : String) (rest : Location) :
    (n.withMode k).get? (x :: rest) = n.get? (x :: rest) := by
  cases n <;> rfl

theorem way?_withMode (n : Node) (k : Nat) : (n.withMode k).label.way? = n.label.way? := by
  cases n <;> rfl

end Node

variable {d e f : Disk} {p q : Path} {loc l : Location} {x t : String} {n m v : Node} {b : ByteArray}
  {mode : Nat} {empty : Bool}

/-! ## Disks that grow -/

/-- A disk with the directories and links of another, and with something wherever there was something. -/
structure Grows (d e : Disk) : Prop where
  workDir : e.workDir = d.workDir
  ways : d.root.SameWays e.root
  there : ∀ l, d.root.at? l ≠ none → e.root.at? l ≠ none

namespace Grows

theorem refl (d : Disk) : d.Grows d := ⟨rfl, .refl _, fun _ => id⟩

theorem trans (h : d.Grows e) (h' : e.Grows f) : d.Grows f :=
  ⟨h'.workDir.trans h.workDir, h.ways.trans h'.ways, fun l hl => h'.there l (h.there l hl)⟩

/-- What has the same below it takes the place of something. -/
theorem of_put (h : d.root.get? loc = some n) (hbelow : ∀ x rest, v.get? (x :: rest) = n.get? (x :: rest))
    (hway : v.label.way? = n.label.way?) : d.Grows (d.withNode loc v) := by
  have hat := at?_put_over h hbelow
  refine ⟨rfl, fun l => ?_, fun l hl => ?_⟩
  · rw [way?, way?, withNode, hat]
    split
    · rename_i hloc
      rw [hloc, at?, h]
      exact hway.symm
    · rfl
  · rw [withNode, hat]
    split
    · simp
    · exact hl

theorem of_leaf (h : d.root.get? loc = some n) (hn : n.isLeaf = true) (hv : v.isLeaf = true) :
    d.Grows (d.withNode loc v) := by
  refine of_put h (fun x rest => ?_) ((way?_label hv).trans (way?_label hn).symm)
  cases v <;> cases n <;> simp_all [isLeaf, get?]

/-- A file is made where there was nothing. -/
theorem of_free (hdir : d.root.get? loc = some (.dir mode es)) (hnone : Entries.get? x es = none)
    (hv : v.isLeaf = true) : d.Grows (d.withNode (loc ++ [x]) v) := by
  refine ⟨rfl, withNode_sameWays hdir (by simp [hnone]) hv, fun l hl => ?_⟩
  rw [at?_withNode hdir (by simp [hnone]) (isDir_of_isLeaf hv)]
  split
  · simp
  · exact hl

theorem of_openFile (h : d.openFile empty p = .ok (loc, e)) : d.Grows e := by
  rw [openFile] at h
  cases hresolve : d.resolve true p with
  | error err =>
    rw [hresolve] at h
    cases h
  | ok spot =>
    rw [hresolve] at h
    cases spot with
    | free parent name =>
      cases h
      obtain ⟨mode, es, hdir, hnone⟩ := (resolve_eq_ok.1 hresolve).2.entry_of_free
      exact of_free hdir hnone rfl
    | node place n =>
      cases n with
      | file c k =>
        cases h
        cases empty with
        | true => exact of_leaf (get?_of_resolve hresolve) rfl rfl
        | false => exact refl d
      | full =>
        cases h
        exact refl d
      | dir | link => cases h

theorem of_append (h : d.append loc b = .ok e) : d.Grows e := by
  rw [append] at h
  split at h
  · rename_i hget
    cases h
    exact of_leaf hget rfl rfl
  · split at h
    · cases h
      exact refl d
    · cases h
  · cases h
    exact refl d

theorem of_setMode (h : d.setMode p mode = .ok e) : d.Grows e := by
  rw [setMode] at h
  cases hfind : d.find true p with
  | error err =>
    rw [hfind] at h
    cases h
  | ok found =>
    obtain ⟨loc, n⟩ := found
    rw [hfind] at h
    cases h
    exact of_put (get?_of_resolve (find_eq_ok.1 hfind)) (get?_withMode n mode) (way?_withMode n mode)

end Grows

/-- The second file gets its name on a disk that has grown, or does not get it. -/
theorem fillAndSwap_cases (d : Disk) (p q : Path) (mode : Nat) (b : ByteArray) : ∃ g, d.Grows g
    ∧ ((∃ err, d.fillAndSwap p q mode b = (.error err, g))
      ∨ ∃ e, g.rename q p = .ok e ∧ d.fillAndSwap p q mode b = (.ok (), e)) := by
  rw [fillAndSwap]
  cases hopen : d.openFile true q with
  | error err => exact ⟨d, .refl d, .inl ⟨err, rfl⟩⟩
  | ok opened =>
    obtain ⟨loc, d₁⟩ := opened
    have h₁ := Grows.of_openFile hopen
    simp only
    cases happend : d₁.append loc b with
    | error err => exact ⟨d₁, h₁, .inl ⟨err, rfl⟩⟩
    | ok d₂ =>
      have h₂ := h₁.trans (Grows.of_append happend)
      simp only
      cases hsync : d₂.sync loc with
      | error err => exact ⟨d₂, h₂, .inl ⟨err, rfl⟩⟩
      | ok _ =>
        simp only
        cases hmode : d₂.setMode q mode with
        | error err => exact ⟨d₂, h₂, .inl ⟨err, rfl⟩⟩
        | ok d₃ =>
          have h₃ := h₂.trans (Grows.of_setMode hmode)
          simp only
          cases hrename : d₃.rename q p with
          | error err => exact ⟨d₃, h₃, .inl ⟨err, rfl⟩⟩
          | ok e => exact ⟨d₃, h₃, .inr ⟨e, hrename, rfl⟩⟩

/-! ## What had the name of the second file -/

/-- Where a file is given another name, it is gone from its place. -/
theorem rename_clears {g : Disk} (hfind : g.find false q = .ok (loc ++ [t], n))
    (hnot : ∀ m, g.resolve false p ≠ .ok (.node (loc ++ [t]) m)) (h : g.rename q p = .ok e) :
    e.root.at? (loc ++ [t]) = none := by
  have hget := get?_of_resolve (find_eq_ok.1 hfind)
  obtain ⟨mode, es, hdir⟩ := exists_dir_above hget
  -- What is put at a place that is not above this one leaves it free.
  have hmove {target : Location} (htarget : ¬ target <+: loc ++ [t]) :
      ((g.root.erase (loc ++ [t])).put target n).at? (loc ++ [t]) = none := by
    rw [put, at?_alter_elsewhere htarget, at?, erase, get?_alter_self hdir]
    rfl
  rw [rename, hfind] at h
  simp only [bind, Except.bind] at h
  split at h
  · cases hresolve : g.resolve false p <;> simp [hresolve] at h
  · split at h
    · cases h
    · cases hresolve : g.resolve false p with
      | error err => simp [hresolve] at h
      | ok spot =>
        rw [hresolve] at h
        cases spot with
        | node target m =>
          simp only at h
          split at h
          · rename_i hsame
            exact absurd (beq_iff_eq.1 hsame ▸ hresolve) (hnot m)
          · split at h
            · cases h
            · split at h
              · cases h
              · rename_i hprefix
                split at h
                · cases h
                · cases h
                  exact hmove (by rwa [← List.isPrefixOf_iff_prefix])
        | free parent name =>
          simp only at h
          split at h
          · cases h
          · cases h
            refine hmove fun hprefix => ?_
            obtain ⟨rest, hrest⟩ := hprefix
            obtain ⟨_, _, hparent, hnone⟩ := (resolve_eq_ok.1 hresolve).2.entry_of_free
            rw [← hrest, get?_append, get?_concat hparent, hnone] at hget
            cases hget

/-- What a path names is not what has the name of the second file. -/
theorem ne_temp (hname : p.fileName? = some x) (hfind : d.find false p = .ok (l, m)) (hm : m.isDir = false)
    (loc : Location) : l ≠ loc ++ [tempName x] := by
  obtain ⟨hx, -⟩ := trimmed_of_fileName hname
  obtain ⟨loc', -, hp | ⟨hdir, -⟩⟩ := exists_names hname hx.temp hfind
  · intro heq
    have hlast := List.append_inj_right' (heq.symm.trans (hp.entry hfind).2.1) rfl
    exact tempName_ne x (List.singleton_inj.1 hlast)
  · rw [hm] at hdir
    cases hdir

/-- **What had the name of the second file is gone**, whether the file has been replaced or not, if it was no
directory. -/
theorem replaceFile_clears (hstat : d.stat p = .ok n) (hmode : n.isReadOnly = false) (hname : p.fileName? = some x)
    (htemp : d.find false (p.withFileName (tempName x)) = .ok (l, m)) (hm : m.isDir = false) (b : ByteArray) :
    (d.replaceFile p b).2.root.at? l = none := by
  obtain ⟨loc, hnames⟩ := exists_temp hstat hname
  obtain ⟨hr, rfl, hget⟩ := hnames.entry htemp
  obtain ⟨g, hgrows, hcases⟩ := fillAndSwap_cases d p (p.withFileName (tempName x)) n.mode b
  -- It is still there before the last step.
  obtain ⟨m', hget', hm'⟩ : ∃ m', g.root.get? (loc ++ [tempName x]) = some m' ∧ m'.isDir = false := by
    have hthere := hgrows.there (loc ++ [tempName x]) (by simp [at?, hget])
    obtain ⟨m', hget'⟩ := Option.ne_none_iff_exists'.1 fun hnone => hthere (at?_eq_none.2 hnone)
    exact ⟨m', hget', (hgrows.ways.isDir_eq hget hget').trans hm⟩
  have hnames' : g.Names (p.withFileName (tempName x)) loc (tempName x) :=
    hnames.of_sameWays hgrows.ways hgrows.workDir
  have hfind' := hnames'.find_unfollowed hr hget'
  rw [replaceFile_swap hstat hmode hname]
  rcases hcases with ⟨err, herror⟩ | ⟨e, hrename, hok⟩
  · rw [herror]
    obtain ⟨mode, es, hdir⟩ := hnames'.get?
    have hgone : (g.without (loc ++ [tempName x])).root.at? (loc ++ [tempName x]) = none := by
      rw [at?_without hdir, if_pos rfl]
      intro n hn
      rwa [Option.some.inj (hn.symm.trans ((get?_concat hdir _).symm.trans hget'))]
    simp only [remove, hfind', bind, Except.bind, hm', Bool.false_eq_true, if_false]
    exact hgone
  · rw [hok]
    refine rename_clears hfind' (fun k hk => ?_) hrename
    have hback := resolve_of_sameWays hk hgrows.ways.symm hgrows.workDir.symm hget
    exact ne_temp hname (find_eq_ok.2 hback) hm loc rfl

/-- A directory that has the name of the second file stops a replacement. -/
theorem replaceFile_stopped (hstat : d.stat p = .ok n) (hmode : n.isReadOnly = false) (hname : p.fileName? = some x)
    (htemp : d.find false (p.withFileName (tempName x)) = .ok (l, m)) (hm : m.isDir = true) (b : ByteArray) :
    ∃ err, d.replaceFile p b = (.error err, d) := by
  obtain ⟨loc, hnames⟩ := exists_temp hstat hname
  obtain ⟨hr, rfl, hget⟩ := hnames.entry htemp
  obtain ⟨mode, es, rfl⟩ := eq_dir_of_isDir hm
  have hopen : d.openFile true (p.withFileName (tempName x)) = .error .isDirectory := by
    rw [openFile, hnames.resolve true (by simp [hget]), hr, hget]
    rfl
  refine ⟨.ofOs p .isDirectory, ?_⟩
  rw [replaceFile_swap hstat hmode hname]
  simp [fillAndSwap, hopen, remove, htemp, bind, Except.bind, hm]

/-! ## Nothing else -/

/-- Where nothing has the name of the second file, nothing else changes. -/
theorem replaceFile_elsewhere_of_free (hfree : d.BesideFree p) (hother : ∀ n, d.find false p ≠ .ok (l, n))
    (b : ByteArray) : (d.replaceFile p b).2.root.at? l = d.root.at? l := by
  by_cases hswappable : ∃ loc x n, d.Swappable p loc x n
  · obtain ⟨loc, x, n, h⟩ := hswappable
    rw [replaceFile_of_swappable h hfree, h.at?_withNode, if_neg]
    intro hl
    obtain ⟨m, hm, -⟩ := h.occupied
    exact hother m (hl ▸ h.names.find_unfollowed h.refusal?_eq_none hm)
  · push Not at hswappable
    obtain ⟨err, herror⟩ := replaceFile_else hswappable hfree b
    rw [herror]

/-- **Replacing a file touches nothing else, exactly if nothing but a directory has the name of the second
file** when the replacement comes to make it. Whatever else has the name is lost, and a link there leads the
new content to another file. -/
theorem replaceFile_elsewhere_iff (d : Disk) (p : Path) (b : ByteArray) :
    (∀ l, (∀ n, d.find false p ≠ .ok (l, n)) → (d.replaceFile p b).2.root.at? l = d.root.at? l)
      ↔ ∀ x n m, p.fileName? = some x → d.stat p = .ok n → n.isReadOnly = false →
        d.lstat (p.withFileName (tempName x)) = .ok m → m.isDir = true := by
  constructor
  · intro hsame x n m hname hstat hmode hlstat
    by_contra hnot
    rw [Bool.not_eq_true] at hnot
    obtain ⟨l, htemp⟩ := exists_find_of_lstat hlstat
    have hget := get?_of_resolve (find_eq_ok.1 htemp)
    obtain ⟨loc, hnames⟩ := exists_temp hstat hname
    have hother : ∀ n', d.find false p ≠ .ok (l, n') := by
      intro n' hfind
      obtain rfl := Option.some.inj (hget.symm.trans (get?_of_resolve (find_eq_ok.1 hfind)))
      exact ne_temp hname hfind hnot loc (hnames.entry htemp).2.1
    have hgone := replaceFile_clears hstat hmode hname htemp hnot b
    rw [hsame l hother, at?, hget] at hgone
    cases hgone
  · intro hdirs l hother
    by_cases hfree : d.BesideFree p
    · exact replaceFile_elsewhere_of_free hfree hother b
    by_cases hbegins : ∀ x n, d.stat p = .ok n → n.isReadOnly = false → p.fileName? ≠ some x
    · obtain ⟨err, herror⟩ := replaceFile_early hbegins b
      rw [herror]
    simp only [BesideFree] at hfree
    push Not at hbegins hfree
    obtain ⟨x, n, hstat, hmode, hname⟩ := hbegins
    obtain ⟨y, m, hname', hlstat⟩ := hfree
    obtain rfl := Option.some.inj (hname.symm.trans hname')
    obtain ⟨l', htemp⟩ := exists_find_of_lstat hlstat
    obtain ⟨err, herror⟩ := replaceFile_stopped hstat hmode hname htemp (hdirs x n m hname hstat hmode hlstat) b
    rw [herror]

section Link

open Walk

/-- A link with the name of the second file makes a file elsewhere. -/
theorem replaceFile_makes_elsewhere :
    (∀ n, (tempDisk linkTemp).find false ⟨"/a.ts"⟩ ≠ .ok (["z", "new.ts"], n))
    ∧ (tempDisk linkTemp).root.at? ["z", "new.ts"] = none
    ∧ ((tempDisk linkTemp).replaceFile ⟨"/a.ts"⟩ "B".toUTF8).2.root.at? ["z", "new.ts"]
      = some (.file "B".toUTF8 0o644) := by
  have hfind : (tempDisk linkTemp).find false ⟨"/a.ts"⟩ = .ok (["a.ts"], .file "A".toUTF8 0o644) := by
    have hpieces : pathPieces "/a.ts" = ["a.ts"] := by decide
    refine find_eq_ok.2 (resolve_eq_ok.2 ⟨by decide, ?_⟩)
    rw [hpieces, if_pos (by decide)]
    exact .down ⟨by decide, by decide, by decide⟩ rfl rfl (.stop rfl)
  refine ⟨fun n hn => ?_, rfl, ?_⟩
  · rw [hfind] at hn
    simp at hn
  · rw [replaceFile_linkTemp]
    rfl

end Link

end Codemod.Disk
