/-
Replacing the content of a file. The second file is made, filled and put in the place of the first, and
what is left is the tree with another content at one place (`replaceFile_eq`); where the text of one
of the two paths is refused, nothing has happened (`replaceFile_refused`). What stands at the name of
the second file matters: a file there is lost, a device goes, a directory keeps the first file as it
is.
-/
import Codemod.Proofs.Disk.Kinds
import Codemod.Run.Rewrite

namespace Codemod

open Disk Node Codemod.Path

theorem length_tempName (x : String) : (tempName x).length = x.length + 9 := by
  rw [tempName, String.length_append, String.length_append, show ".".length = 1 from rfl,
    show ".srw-tmp".length = 8 from rfl]
  omega

theorem tempName_ne (x : String) : tempName x ≠ x := by
  intro h
  have := length_tempName x
  rw [h] at this
  omega

theorem IsName.temp {x : String} (hx : IsName x) : IsName (tempName x) where
  ne_empty h := by
    have := length_tempName x
    rw [h, show "".length = 0 from rfl] at this
    omega
  ne_here h := by
    have := length_tempName x
    rw [h, show ".".length = 1 from rfl] at this
    omega
  ne_up h := by
    have := length_tempName x
    rw [h, show "..".length = 2 from rfl] at this
    omega
  no_separator h := by simp [tempName, hx.no_separator] at h

namespace Disk

/-- The disk with something else at a place. -/
def withNode (d : Disk) (loc : Location) (n : Node) : Disk := { d with root := d.root.put loc n }

def without (d : Disk) (loc : Location) : Disk := { d with root := d.root.erase loc }

variable {d : Disk} {p : Path} {loc : Location} {x : String} {n m : Node} {k mode : Nat} {es : Entries}
  {c b : ByteArray}

theorem withNode_withNode (d : Disk) (loc : Location) (x : String) (m n : Node) :
    (d.withNode (loc ++ [x]) m).withNode (loc ++ [x]) n = d.withNode (loc ++ [x]) n := by
  have h : loc ++ [x] ≠ [] := by simp
  simp only [withNode, put_put h]

theorem without_withNode (d : Disk) (loc : Location) (x : String) (m : Node) :
    (d.withNode (loc ++ [x]) m).without (loc ++ [x]) = d.without (loc ++ [x]) := by
  have h : loc ++ [x] ≠ [] := by simp
  simp only [withNode, without, erase_put h]

theorem without_of_get? (h : d.root.get? loc = none) : d.without loc = d := by
  rw [without, erase_of_get? h]

section Node

variable (hdir : d.root.get? loc = some (.dir mode es))

include hdir

theorem withNode_get? (n : Node) : (d.withNode (loc ++ [x]) n).root.get? (loc ++ [x]) = some n :=
  get?_alter_self hdir

theorem at?_withNode (hold : ∀ n, Entries.get? x es = some n → n.isDir = false) (hn : n.isDir = false)
    (l : Location) : (d.withNode (loc ++ [x]) n).root.at? l
      = if l = loc ++ [x] then some n.label else d.root.at? l :=
  at?_alter hdir hold (by rintro _ ⟨⟩; exact hn) l

theorem at?_without (hold : ∀ n, Entries.get? x es = some n → n.isDir = false) (l : Location) :
    (d.without (loc ++ [x])).root.at? l = if l = loc ++ [x] then none else d.root.at? l :=
  at?_alter hdir hold (by rintro _ ⟨⟩) l

variable (hold : ∀ n, Entries.get? x es = some n → n.isLeaf = true)

include hold

theorem withNode_sameWays (hn : n.isLeaf = true) :
    d.root.SameWays (d.withNode (loc ++ [x]) n).root :=
  sameWays_alter hdir hold (by rintro _ ⟨⟩; exact hn)

theorem without_sameWays : d.root.SameWays (d.without (loc ++ [x])).root :=
  sameWays_alter hdir hold (by rintro _ ⟨⟩)

end Node

/-! ## Disks that differ at a few places -/

/-- Two disks that differ in nothing but files and devices at some places: they are gone, or the files are
other files. -/
structure AgreeBut (d e : Disk) (places : List Location) : Prop where
  workDir : e.workDir = d.workDir
  ways : d.root.SameWays e.root
  kinds : ∀ loc, e.root.at? loc = none
    ∨ (e.root.at? loc).map Label.isFile = (d.root.at? loc).map Label.isFile
  at?_eq : ∀ loc, loc ∉ places → e.root.at? loc = d.root.at? loc

namespace AgreeBut

variable {e f : Disk} {ps qs : List Location}

theorem refl (d : Disk) (ps : List Location) : d.AgreeBut d ps :=
  ⟨rfl, .refl _, fun _ => .inr rfl, fun _ _ => rfl⟩

theorem trans (h : d.AgreeBut e ps) (h' : e.AgreeBut f qs) : d.AgreeBut f (ps ++ qs) where
  workDir := h'.workDir.trans h.workDir
  ways := h.ways.trans h'.ways
  kinds loc := by
    rcases h'.kinds loc with hnone | hsame
    · exact .inl hnone
    · refine (h.kinds loc).imp (fun hnone => ?_) hsame.trans
      rw [hnone, Option.map_none, Option.map_eq_none_iff] at hsame
      exact hsame
  at?_eq loc hloc := by
    simp only [List.mem_append, not_or] at hloc
    exact (h'.at?_eq loc hloc.2).trans (h.at?_eq loc hloc.1)

theorem mono (h : d.AgreeBut e ps) (hsub : ps ⊆ qs) : d.AgreeBut e qs :=
  ⟨h.workDir, h.ways, h.kinds, fun loc hloc => h.at?_eq loc fun hmem => hloc (hsub hmem)⟩

theorem file (h : d.AgreeBut e ps) (hloc : loc ∉ ps) (hfile : d.root.get? loc = some (.file c k)) :
    e.root.get? loc = some (.file c k) := by
  rw [← at?_eq_file, h.at?_eq loc hloc, at?_eq_file.2 hfile]

theorem leadsTo {p : Path} (h : d.AgreeBut e ps) (hp : d.LeadsTo p loc) : e.LeadsTo p loc :=
  hp.of_sameWays h.ways h.workDir

/-- What is there was there before, and is a file if it was one. -/
theorem exists_before (h : d.AgreeBut e ps) {loc : Location} {n : Node}
    (hn : e.root.get? loc = some n) :
    ∃ m, d.root.get? loc = some m ∧ m.isDir = n.isDir ∧ m.isFile = n.isFile := by
  rcases h.kinds loc with hnone | hsame
  · simp [at?, hn] at hnone
  · rw [at?, hn] at hsame
    cases hm : d.root.get? loc with
    | none => simp [at?, hm] at hsame
    | some m =>
      have hway := h.ways loc
      simp only [way?, at?, hm, hn, Option.map_some, Option.some.injEq, Option.bind_some] at hsame hway
      refine ⟨m, rfl, ?_⟩
      cases m <;> cases n <;>
        simp_all [label, Label.isFile, Label.way?, Node.isDir, Node.isFile]

end AgreeBut

theorem agreeBut_withFile (hdir : d.root.get? loc = some (.dir mode es))
    (hfile : Entries.get? x es = some (.file c k)) (b : ByteArray) (j : Nat) :
    d.AgreeBut (d.withNode (loc ++ [x]) (.file b j)) [loc ++ [x]] := by
  have hold : ∀ n, Entries.get? x es = some n → n.isLeaf = true := by
    rw [hfile]
    rintro _ ⟨⟩
    rfl
  have hat := at?_withNode hdir (fun n hn => isDir_of_isLeaf (hold n hn)) (n := .file b j) rfl
  refine ⟨rfl, withNode_sameWays hdir hold rfl, fun l => .inr ?_, fun l hl => ?_⟩
  · rw [hat]
    split
    · rename_i hl
      rw [hl, at?, get?_concat hdir, hfile]
      rfl
    · rfl
  · rw [hat, if_neg (by simpa using hl)]

theorem agreeBut_without (hdir : d.root.get? loc = some (.dir mode es))
    (hold : ∀ n, Entries.get? x es = some n → n.isLeaf = true) :
    d.AgreeBut (d.without (loc ++ [x])) [loc ++ [x]] := by
  have hat := at?_without hdir fun n hn => isDir_of_isLeaf (hold n hn)
  refine ⟨rfl, without_sameWays hdir hold, fun l => ?_, fun l hl => ?_⟩
  · rw [hat]
    split
    · exact .inl rfl
    · exact .inr rfl
  · rw [hat, if_neg (by simpa using hl)]

/-- A file is still one when the second file is gone, and can be given another content. -/
theorem agreeBut_withFile_without (hdir : d.root.get? loc = some (.dir mode es))
    (hfile : Entries.get? x es = some (.file c k))
    (hold : ∀ n, Entries.get? (tempName x) es = some n → n.isLeaf = true) (b : ByteArray) (j : Nat) :
    (d.without (loc ++ [tempName x])).AgreeBut
      ((d.without (loc ++ [tempName x])).withNode (loc ++ [x]) (.file b j)) [loc ++ [x]] := by
  have hgone := agreeBut_without hdir hold
  obtain ⟨mode', es', hdir'⟩ := hgone.ways.dir hdir
  have hfile' : Entries.get? x es' = some (.file c k) := by
    rw [← get?_concat hdir', ← at?_eq_file, hgone.at?_eq _ (by simpa using (tempName_ne x).symm),
      at?_eq_file, get?_concat hdir, hfile]
  exact agreeBut_withFile hdir' hfile' b j

theorem append_file (h : d.root.get? loc = some (.file c k)) :
    d.append loc b = .ok (d.withNode loc (.file (c ++ b) k)) := by
  rw [append, h]
  rfl

theorem sync_file (h : d.root.get? loc = some (.file c k)) : d.sync loc = .ok () := by
  rw [sync, h]

/-! ## One entry -/

section Entry

variable (hlead : d.LeadsTo p loc) (hx : IsName x)

include hlead hx

theorem stat_entry (hn : d.root.get? (loc ++ [x]) = some n) (hlink : n.isLink = false) :
    d.stat (p.join ⟨x⟩) = match refusal? (p.join ⟨x⟩) with
      | some e => .error e
      | none => .ok n := by
  rw [stat, find_join hlead hx hn hlink]
  cases refusal? (p.join ⟨x⟩) <;> rfl

theorem setMode_entry (hn : d.root.get? (loc ++ [x]) = some n) (hlink : n.isLink = false)
    (hr : refusal? (p.join ⟨x⟩) = none) (k : Nat) :
    d.setMode (p.join ⟨x⟩) k = .ok (d.withNode (loc ++ [x]) (n.withMode k)) := by
  rw [setMode, find_join hlead hx hn hlink, hr]
  rfl

/-- Opening a file empties it, and makes one where there is none. -/
theorem openFile_entry (hdir : d.root.get? loc = some (.dir mode es))
    (hold : ∀ n, Entries.get? x es = some n → n.isFile = true)
    (hr : refusal? (p.join ⟨x⟩) = none) : ∃ k, d.openFile true (p.join ⟨x⟩) =
      .ok (loc ++ [x], d.withNode (loc ++ [x]) (.file .empty k)) := by
  have hnot (t : String) : Entries.get? x es ≠ some (.link t) := fun h => by
    simpa [isFile] using hold _ h
  rw [openFile, resolve_join hlead hx hdir hnot, hr]
  cases hn : Entries.get? x es with
  | none => exact ⟨fileMode, rfl⟩
  | some n =>
    cases n with
    | file c k => exact ⟨k, rfl⟩
    | link t | full | dir => exact absurd (hold _ hn) (by simp [isFile])

theorem openFile_refused {e : OsError} (hr : refusal? (p.join ⟨x⟩) = some e)
    (hdir : d.root.get? loc = some (.dir mode es))
    (hlink : ∀ t, Entries.get? x es ≠ some (.link t)) :
    d.openFile true (p.join ⟨x⟩) = .error e := by
  rw [openFile, resolve_join hlead hx hdir hlink, hr]
  rfl

/-- A file takes the place of another in its directory. -/
theorem rename_entry {q : Path} {y : String} {c' : ByteArray} {k' : Nat} (hlead' : d.LeadsTo q loc)
    (hy : IsName y) (hne : x ≠ y)
    (hsource : d.root.get? (loc ++ [x]) = some (.file c k))
    (htarget : d.root.get? (loc ++ [y]) = some (.file c' k'))
    (hr : refusal? (p.join ⟨x⟩) = none) (hr' : refusal? (q.join ⟨y⟩) = none) :
    d.rename (p.join ⟨x⟩) (q.join ⟨y⟩) =
      .ok ((d.without (loc ++ [x])).withNode (loc ++ [y]) (.file c k)) := by
  have hfind := find_join hlead hx hsource rfl false
  have hresolve := find_join hlead' hy htarget rfl false
  rw [hr] at hfind
  rw [hr'] at hresolve
  have hx' : (loc ++ [x]).isPrefixOf (loc ++ [y]) = false := by
    rw [Bool.eq_false_iff, ne_eq, List.isPrefixOf_iff_prefix]
    exact fun h => hne (by simpa using h.eq_of_length (by simp))
  have hy' : (loc ++ [y]).isPrefixOf (loc ++ [x]) = false := by
    rw [Bool.eq_false_iff, ne_eq, List.isPrefixOf_iff_prefix]
    exact fun h => hne (by simpa using (h.eq_of_length (by simp)).symm)
  have hother : (loc ++ [y] == loc ++ [x]) = false := by simpa using Ne.symm hne
  rw [rename, hfind]
  simp only [bind, Except.bind, find_eq_ok.1 hresolve, isNameless_of_solid hx (solid_join_name hlead.text_ne_empty hx),
    isNameless_of_solid hy (solid_join_name hlead'.text_ne_empty hy),
    endsWithSeparator_join_name hlead.text_ne_empty hx, endsWithSeparator_join_name hlead'.text_ne_empty hy,
    hx', hy', hother, mayReplace, Bool.or_self, Bool.and_false, Bool.false_eq_true, if_false, pure, Except.pure]
  rfl

end Entry

/-! ## A file and the second one beside it -/

/-- Why a file is not replaced, as far as its path, that of the second file and the permissions tell. -/
def writeRefusal? (p temp : Path) (n : Node) : Option Error :=
  match refusal? p with
  | some e => some (.ofOs p e)
  | none =>
    if n.isReadOnly then some (.permissionDenied p) else (refusal? temp).map (.ofOs p)

theorem writeRefusal?_eq_none {p temp : Path} : writeRefusal? p temp n = none
    ↔ refusal? p = none ∧ n.isReadOnly = false ∧ refusal? temp = none := by
  rw [writeRefusal?]
  cases refusal? p with
  | some e => simp
  | none => cases n.isReadOnly <;> simp

section Replace

variable (hlead : d.LeadsTo p loc) (hx : IsName x)
  (hdir : d.root.get? loc = some (.dir mode es)) (hfile : Entries.get? x es = some (.file c k))

include hlead hx hdir hfile

/-- The second file, made and filled, takes the place of the first. A file that had its name before is
gone. -/
theorem fillAndSwap_eq (htemp : ∀ n, Entries.get? (tempName x) es = some n → n.isFile = true)
    (hr : refusal? (p.join ⟨x⟩) = none)
    (hr' : refusal? (p.tidy.join ⟨tempName x⟩) = none) :
    d.fillAndSwap (p.join ⟨x⟩) (p.tidy.join ⟨tempName x⟩) k b =
      (.ok (), (d.without (loc ++ [tempName x])).withNode (loc ++ [x]) (.file b k)) := by
  have hleaf : ∀ n, Entries.get? (tempName x) es = some n → n.isLeaf = true := by
    intro n hn
    have := htemp n hn
    cases n <;> simp_all [isFile, isLeaf]
  -- While it is being filled, the second file is all that is different.
  have hways (n : Node) (hn : n.isLeaf = true) :
      (d.withNode (loc ++ [tempName x]) n).LeadsTo p loc :=
    hlead.of_sameWays (withNode_sameWays hdir hleaf hn) rfl
  have hget (n : Node) := withNode_get? (x := tempName x) hdir n
  have htarget (n : Node) (hn : n.isLeaf = true) :
      (d.withNode (loc ++ [tempName x]) n).root.get? (loc ++ [x]) = some (.file c k) := by
    rw [← at?_eq_file, at?_withNode hdir (fun n hn => isDir_of_isLeaf (hleaf n hn)) (isDir_of_isLeaf hn),
      if_neg (by simpa using (tempName_ne x).symm), at?_eq_file, get?_concat hdir, hfile]
  obtain ⟨k', hopen⟩ := openFile_entry hlead.tidy hx.temp hdir htemp hr'
  have hfile (b : ByteArray) (k : Nat) : (Node.file b k).isLeaf = true := rfl
  rw [fillAndSwap, hopen]
  simp only [append_file (hget _), withNode_withNode, ByteArray.empty_append, sync_file (hget _),
    setMode_entry (hways _ (hfile _ _)).tidy hx.temp (hget _) rfl hr', withMode]
  rw [rename_entry (hways _ (hfile _ _)).tidy hx.temp (hways _ (hfile _ _)) hx (tempName_ne x) (hget _)
    (htarget _ (hfile _ _)) hr' hr, without_withNode]

omit hdir hfile in
theorem replaceFile_entry (hget : d.root.get? (loc ++ [x]) = some (.file c k)) :
    d.replaceFile (p.join ⟨x⟩) b = match refusal? (p.join ⟨x⟩) with
      | some e => (.error (.ofOs (p.join ⟨x⟩) e), d)
      | none =>
        if (Node.file c k).isReadOnly then (.error (.permissionDenied (p.join ⟨x⟩)), d)
        else match d.fillAndSwap (p.join ⟨x⟩) (p.tidy.join ⟨tempName x⟩) k b with
          | (.ok (), d) => (.ok (), d)
          | (.error e, d) => (.error (.ofOs (p.join ⟨x⟩) e),
              match d.remove (p.tidy.join ⟨tempName x⟩) with
              | .ok d => d
              | .error _ => d) := by
  rw [replaceFile, stat_entry hlead hx hget rfl, fileName?_join_name hlead.text_ne_empty hx]
  simp only [withFileName_join_name hlead.text_ne_empty hx]
  cases refusal? (p.join ⟨x⟩) <;> rfl

/-- What is refused by its text, or by its permissions, leaves the disk as it was. -/
theorem replaceFile_refused {e : Error}
    (htemp : ∀ t, Entries.get? (tempName x) es ≠ some (.link t))
    (hr : writeRefusal? (p.join ⟨x⟩) (p.tidy.join ⟨tempName x⟩) (.file c k) = some e) :
    d.replaceFile (p.join ⟨x⟩) b = (.error e, d) := by
  rw [replaceFile_entry hlead hx ((get?_concat hdir x).trans hfile)]
  rw [writeRefusal?] at hr
  cases hp : refusal? (p.join ⟨x⟩) with
  | some e' =>
    rw [hp] at hr
    simpa using hr
  | none =>
    cases hmode : (Node.file c k).isReadOnly with
    | true =>
      rw [hp, hmode] at hr
      simpa using hr
    | false =>
      rw [hp, hmode] at hr
      obtain ⟨e', htext, rfl⟩ := Option.map_eq_some_iff.1 hr
      have hopen := openFile_refused hlead.tidy hx.temp htext hdir htemp
      have hremove : d.remove (p.tidy.join ⟨tempName x⟩) = .error e' := by
        rw [remove, find_eq_error]
        · rfl
        · rw [resolve_join hlead.tidy hx.temp hdir htemp, htext]
      simp [fillAndSwap, hopen, hremove]

/-- **The file has its new content, and nothing else has changed**, but that a file with the name of
the second one is gone. -/
theorem replaceFile_eq (htemp : ∀ n, Entries.get? (tempName x) es = some n → n.isFile = true)
    (hr : writeRefusal? (p.join ⟨x⟩) (p.tidy.join ⟨tempName x⟩) (.file c k) = none) :
    d.replaceFile (p.join ⟨x⟩) b =
      (.ok (), (d.without (loc ++ [tempName x])).withNode (loc ++ [x]) (.file b k)) := by
  obtain ⟨hp, hmode, htext⟩ := writeRefusal?_eq_none.1 hr
  rw [replaceFile_entry hlead hx ((get?_concat hdir x).trans hfile), hp, hmode]
  simp only [fillAndSwap_eq hlead hx hdir hfile htemp hp htext]
  rfl

/-- What is in the way of the second file, if it is neither a file nor a link, keeps the first one from
being replaced; a device goes with it, and a directory stays. -/
theorem replaceFile_blocked
    (hr : writeRefusal? (p.join ⟨x⟩) (p.tidy.join ⟨tempName x⟩) (.file c k) = none)
    (hn : Entries.get? (tempName x) es = some n) (hlink : n.isLink = false)
    (hnot : n.isFile = false) : ∃ e, d.replaceFile (p.join ⟨x⟩) b =
      (.error e, if n.isDir then d else d.without (loc ++ [tempName x])) := by
  obtain ⟨hp, hmode, htext⟩ := writeRefusal?_eq_none.1 hr
  have hget : d.root.get? (loc ++ [tempName x]) = some n := (get?_concat hdir _).trans hn
  have hfind := find_join hlead.tidy hx.temp hget hlink
  rw [htext] at hfind
  have hopen : d.openFile true (p.tidy.join ⟨tempName x⟩) =
      if n.isDir then .error .isDirectory else .ok (loc ++ [tempName x], d) := by
    rw [openFile, find_eq_ok.1 (hfind true)]
    cases n <;> simp_all [isFile, isLink] <;> rfl
  have hswap : ∃ e, d.fillAndSwap (p.join ⟨x⟩) (p.tidy.join ⟨tempName x⟩) k b
      = (.error e, d) := by
    rw [fillAndSwap, hopen]
    cases n with
    | file | link => simp_all [isFile, isLink]
    | dir => exact ⟨.isDirectory, rfl⟩
    | full =>
      cases hb : b.isEmpty with
      | true => exact ⟨.invalidArgument, by simp [Node.isDir, append, sync, hget, hb]⟩
      | false => exact ⟨.noSpace, by simp [Node.isDir, append, hget, hb]⟩
  obtain ⟨e, hswap⟩ := hswap
  refine ⟨.ofOs (p.join ⟨x⟩) e, ?_⟩
  rw [replaceFile_entry hlead hx ((get?_concat hdir x).trans hfile), hp, hmode]
  simp only [hswap, remove, hfind]
  cases n <;> simp_all [isFile, isLink, Node.isDir, bind, Except.bind, without, pure, Except.pure]

/-- **What a replacement leaves**, whatever stands at the name of the second file, if it is no link: the disk as it was,
or one on which the name is free, and on which the file perhaps has its new content. -/
theorem replaceFile_leaves (hlink : ∀ t, Entries.get? (tempName x) es ≠ some (.link t)) :
    (d.replaceFile (p.join ⟨x⟩) b).2 = d
    ∨ (∀ n, Entries.get? (tempName x) es = some n → n.isLeaf = true)
      ∧ ((d.replaceFile (p.join ⟨x⟩) b).2 = d.without (loc ++ [tempName x])
        ∨ (d.replaceFile (p.join ⟨x⟩) b).2
          = (d.without (loc ++ [tempName x])).withNode (loc ++ [x]) (.file b k)) := by
  have hleaf : ∀ n, Entries.get? (tempName x) es = some n → n.isDir = false → n.isLeaf = true := by
    intro n hn hnot
    cases n with
    | link t => exact absurd hn (hlink t)
    | dir => simp [Node.isDir] at hnot
    | file | full => rfl
  cases hr : writeRefusal? (p.join ⟨x⟩) (p.tidy.join ⟨tempName x⟩) (.file c k) with
  | some e => exact .inl (by rw [replaceFile_refused hlead hx hdir hfile hlink hr])
  | none =>
    by_cases htemp : ∀ n, Entries.get? (tempName x) es = some n → n.isFile = true
    · refine .inr ⟨fun n hn => hleaf n hn ?_, .inr (by rw [replaceFile_eq hlead hx hdir hfile htemp hr])⟩
      have := htemp n hn
      cases n <;> simp_all [isFile, Node.isDir]
    · push Not at htemp
      obtain ⟨n, hn, hnot⟩ := htemp
      obtain ⟨e, h⟩ := replaceFile_blocked (b := b) hlead hx hdir hfile hr hn (by
        cases n with
        | link t => exact absurd hn (hlink t)
        | file | full | dir => rfl) (by simpa using hnot)
      rw [h]
      by_cases hd : n.isDir = true
      · exact .inl (if_pos hd)
      · refine .inr ⟨fun m hm => hleaf m hm ?_, .inl (if_neg hd)⟩
        simpa [Option.some.inj (hn.symm.trans hm)] using hd

/-- **Whatever stands at the name of the second file, if it is no link**, nothing changes but at the two
names, and all ways stay as they are. -/
theorem replaceFile_elsewhere (hlink : ∀ t, Entries.get? (tempName x) es ≠ some (.link t)) :
    d.AgreeBut (d.replaceFile (p.join ⟨x⟩) b).2 [loc ++ [tempName x], loc ++ [x]] := by
  rcases replaceFile_leaves (b := b) hlead hx hdir hfile hlink with h | ⟨hleaf, h | h⟩ <;> rw [h]
  · exact .refl d _
  · exact (agreeBut_without hdir hleaf).mono (by simp)
  · exact (agreeBut_without hdir hleaf).trans (agreeBut_withFile_without hdir hfile hleaf b k)

/-- But for the file, what is not as it was is gone. -/
theorem replaceFile_others (hlink : ∀ t, Entries.get? (tempName x) es ≠ some (.link t)) {l : Location}
    (hl : l ≠ loc ++ [x]) : (d.replaceFile (p.join ⟨x⟩) b).2.root.at? l = none
      ∨ (d.replaceFile (p.join ⟨x⟩) b).2.root.at? l = d.root.at? l := by
  have hgone (hleaf : ∀ n, Entries.get? (tempName x) es = some n → n.isLeaf = true) :
      (d.without (loc ++ [tempName x])).root.at? l = none
        ∨ (d.without (loc ++ [tempName x])).root.at? l = d.root.at? l := by
    rw [at?_without hdir fun n hn => isDir_of_isLeaf (hleaf n hn)]
    split
    · exact .inl rfl
    · exact .inr rfl
  rcases replaceFile_leaves (b := b) hlead hx hdir hfile hlink with h | ⟨hleaf, h | h⟩ <;> rw [h]
  · exact .inr rfl
  · exact hgone hleaf
  · rw [(agreeBut_withFile_without hdir hfile hleaf b k).at?_eq l (by simpa using hl)]
    exact hgone hleaf

end Replace

end Disk

end Codemod
