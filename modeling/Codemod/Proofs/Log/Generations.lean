/-
The files of a log: the path itself and its numbered names. They are entries of one directory (`Shelf`), and
while they are files, opening, writing, renaming and removing one of them leaves the others as they are.
-/
import Codemod.Log.Writer
import Codemod.Proofs.Disk.Names

namespace Codemod

open Disk Node

namespace Log

/-- The path of a log, and its numbered names. -/
def namePath (base : Path) : Option Nat → Path
  | none => base
  | some n => rotatedName base n

/-- The name of an entry, and its numbered names. -/
def entryName (x : String) : Option Nat → String
  | none => x
  | some n => x ++ ("." ++ toString n)

/-- What is read from a file of the log, if it is there. -/
def held (d : Disk) (base : Path) (o : Option Nat) : Option ByteArray := (d.read (namePath base o)).toOption

variable {d e : Disk} {base : Path} {loc : Location} {x : String} {o o' : Option Nat} {n : Node}

theorem toList_toString (n : Nat) : (toString n).toList = Nat.toDigits 10 n := Nat.toList_repr

theorem toString_injective {m n : Nat} (h : toString m = toString n) : m = n := by
  have h := congrArg (fun s : String => Nat.ofDigitChars 10 s.toList 0) h
  simpa only [toList_toString, Nat.ofDigitChars_toDigits (show 1 < 10 by decide) (show 10 ≤ 10 by decide)] using h

theorem entryName_injective (h : entryName x o = entryName x o') : o = o' := by
  cases o with
  | none =>
    cases o' with
    | none => rfl
    | some n => simpa [entryName] using congrArg String.length h
  | some m =>
    cases o' with
    | none => simpa [entryName] using congrArg String.length h
    | some n =>
      have h : "." ++ toString m = "." ++ toString n := String.append_right_inj x |>.1 h
      rw [toString_injective (String.append_right_inj "." |>.1 h)]

theorem isName_entryName (hx : IsName x) (o : Option Nat) : IsName (entryName x o) := by
  cases o with
  | none => exact hx
  | some n =>
    have hdigits : Nat.toDigits 10 n ≠ [] := Nat.toDigits_ne_nil
    have hlist : (entryName x (some n)).toList = x.toList ++ '.' :: Nat.toDigits 10 n := by
      simp [entryName]
    have hlong : 3 ≤ (entryName x (some n)).toList.length := by
      have hx := List.length_pos_iff.2 hx.toList_ne_nil
      have hn := List.length_pos_iff.2 hdigits
      rw [hlist, List.length_append, List.length_cons]
      omega
    refine ⟨?_, ?_, ?_, ?_⟩
    · intro h
      simp [h] at hlong
    · intro h
      simp [h] at hlong
    · intro h
      simp [h] at hlong
    · rw [hlist, List.mem_append, List.mem_cons, not_or, not_or]
      refine ⟨hx.no_separator, by decide, fun hmem => ?_⟩
      exact absurd (Nat.isDigit_of_mem_toDigits (by decide) (by decide) hmem) (by decide)

/-- The numbered names of a path are those of entries beside it. -/
theorem numbered (h : d.Names base loc x) (o : Option Nat) :
    d.Names (namePath base o) loc (entryName x o) := by
  cases o with
  | none => exact h
  | some n =>
    have hsep : '/' ∉ ("." ++ toString n).toList := by
      intro hmem
      rw [String.toList_append, List.mem_append, toList_toString] at hmem
      rcases hmem with hdot | hdigit
      · exact absurd hdot (by decide)
      · exact absurd (Nat.isDigit_of_mem_toDigits (by decide) (by decide) hdigit) (by decide)
    rw [namePath, rotatedName, String.append_assoc]
    exact h.beside hsep (isName_entryName h.name (some n))

/-- The files of a log are entries of one directory, and none of them is a directory or a link. -/
structure Shelf (d : Disk) (base : Path) (loc : Location) (x : String) : Prop where
  names : ∀ o, d.Names (namePath base o) loc (entryName x o)
  leaf : ∀ o, refusal? (namePath base o) = none →
    ∀ n, d.root.get? (loc ++ [entryName x o]) = some n → n.isLeaf = true

namespace Shelf

theorem held_eq (h : Shelf d base loc x) (o : Option Nat) : held d base o =
    match refusal? (namePath base o) with
    | some _ => none
    | none => (d.root.get? (loc ++ [entryName x o])).map Node.content := by
  rw [held, (h.names o).read (h.leaf o)]
  cases refusal? (namePath base o) with
  | some e => rfl
  | none => cases d.root.get? (loc ++ [entryName x o]) <;> rfl

variable {v : Option Node}

/-- What is at the place of another entry when one of the files is changed. -/
theorem get?_setEntry (h : Shelf d base loc x) (hr : refusal? (namePath base o) = none)
    (hv : ∀ n ∈ v, n.isLeaf = true) (hne : o' ≠ o) (hr' : refusal? (namePath base o') = none) :
    (d.setEntry (loc ++ [entryName x o]) v).root.get? (loc ++ [entryName x o'])
      = d.root.get? (loc ++ [entryName x o']) := by
  obtain ⟨mode, es, hdir⟩ := (h.names o).get?
  have hold (n : Node) (hn : Entries.get? (entryName x o) es = some n) : n.isLeaf = true :=
    h.leaf o hr n ((get?_concat hdir _).trans hn)
  have hat := at?_alter (f := fun _ => v) hdir (fun n hn => isDir_of_isLeaf (hold n hn))
    (fun n hn => isDir_of_isLeaf (hv n hn)) (loc ++ [entryName x o'])
  rw [if_neg (by simpa using fun heq => hne (entryName_injective heq))] at hat
  exact Node.get?_congr hat (h.leaf o' hr')

/-- Where one of the files is changed, the others stay as they are. -/
theorem setEntry (h : Shelf d base loc x) (hr : refusal? (namePath base o) = none)
    (hv : ∀ n ∈ v, n.isLeaf = true) : Shelf (d.setEntry (loc ++ [entryName x o]) v) base loc x := by
  obtain ⟨mode, es, hdir⟩ := (h.names o).get?
  have hways : d.root.SameWays (d.setEntry (loc ++ [entryName x o]) v).root :=
    sameWays_alter hdir (fun n hn => h.leaf o hr n ((get?_concat hdir _).trans hn)) (fun n hn => hv n hn)
  refine ⟨fun o' => (h.names o').of_sameWays hways rfl, fun o' hr' n hn => ?_⟩
  by_cases heq : o' = o
  · subst heq
    rw [Disk.setEntry, get?_alter_self hdir] at hn
    exact hv n hn
  · rw [h.get?_setEntry hr hv heq hr'] at hn
    exact h.leaf o' hr' n hn

theorem held_setEntry (h : Shelf d base loc x) (hr : refusal? (namePath base o) = none)
    (hv : ∀ n ∈ v, n.isLeaf = true) (o' : Option Nat) :
    held (d.setEntry (loc ++ [entryName x o]) v) base o'
      = if o' = o then v.map Node.content else held d base o' := by
  rw [(h.setEntry hr hv).held_eq, h.held_eq]
  by_cases heq : o' = o
  · subst heq
    obtain ⟨mode, es, hdir⟩ := (h.names o').get?
    rw [if_pos rfl, hr, Disk.setEntry, get?_alter_self hdir]
  · rw [if_neg heq]
    cases hr' : refusal? (namePath base o') with
    | some e => rfl
    | none => simp only [h.get?_setEntry hr hv heq hr']

theorem found_iff (h : Shelf d base loc x) (o : Option Nat) :
    (∃ f, d.find false (namePath base o) = .ok f) ↔ held d base o ≠ none := by
  rw [h.held_eq, (h.names o).find (h.leaf o)]
  cases refusal? (namePath base o) with
  | some e => simp
  | none => cases d.root.get? (loc ++ [entryName x o]) <;> simp

end Shelf

/-! ## Moving files -/

/-- An operation on a file succeeds if there is the file. -/
def Moves (d : Disk) (p : Path) (r : Except OsError Disk) : Prop := (∃ f, d.find false p = .ok f) → ∃ e, r = .ok e

/-- Every renaming succeeds while the older files are moved up. -/
def Shifts (base : Path) : Nat → Disk → Prop
  | 0, _ => True
  | n + 1, d =>
    let moved := d.rename (rotatedName base (n + 1)) (rotatedName base (n + 2))
    Moves d (rotatedName base (n + 1)) moved ∧ Shifts base n (orKeep d moved)

/-- Every removal and every renaming of a file succeeds while room is made for a new one. -/
def MakesRoom (base : Path) (count : Nat) (d : Disk) : Prop :=
  let oldest := d.remove (rotatedName base count)
  let moved := shift base (count - 1) (orKeep d oldest)
  Moves d (rotatedName base count) oldest ∧ Shifts base (count - 1) (orKeep d oldest)
    ∧ (0 < count → Moves moved base (moved.rename base (rotatedName base 1)))
    ∧ (count = 0 → Moves moved base (moved.remove base))

namespace Shelf

/-- What is removed is gone, and the other files stay. -/
theorem remove (h : Shelf d base loc x) (o : Option Nat) :
    Shelf (orKeep d (d.remove (namePath base o))) base loc x
      ∧ ∀ o', held (orKeep d (d.remove (namePath base o))) base o' = if o' = o then none else held d base o' := by
  rw [(h.names o).remove (h.leaf o)]
  have hkeep (hnone : held d base o = none) : Shelf d base loc x
      ∧ ∀ o', held d base o' = if o' = o then none else held d base o' := by
    refine ⟨h, fun o' => ?_⟩
    by_cases heq : o' = o
    · rw [if_pos heq, heq, hnone]
    · rw [if_neg heq]
  have hheld := h.held_eq o
  cases hr : refusal? (namePath base o) with
  | some err => exact hkeep (by rw [hheld, hr])
  | none =>
    cases hn : d.root.get? (loc ++ [entryName x o]) with
    | none => exact hkeep (by rw [hheld, hr, hn]; rfl)
    | some n => exact ⟨h.setEntry hr nofun, h.held_setEntry hr nofun⟩

/-- A file takes the name of another where that is free, and the others stay. -/
theorem rename (h : Shelf d base loc x) (o o' : Option Nat) (hne : o ≠ o') (hfree : held d base o' = none)
    (hm : Moves d (namePath base o) (d.rename (namePath base o) (namePath base o'))) :
    Shelf (orKeep d (d.rename (namePath base o) (namePath base o'))) base loc x
      ∧ ∀ o'', held (orKeep d (d.rename (namePath base o) (namePath base o'))) base o''
        = if o'' = o' then held d base o else if o'' = o then none else held d base o'' := by
  have hrename := (h.names o).rename (h.leaf o) (h.names o') (h.leaf o') fun heq => hne (entryName_injective heq)
  rw [Moves, h.found_iff, hrename] at hm
  rw [hrename]
  have hkeep (hnone : held d base o = none) : Shelf d base loc x ∧ ∀ o'', held d base o''
      = if o'' = o' then held d base o else if o'' = o then none else held d base o'' := by
    refine ⟨h, fun o'' => ?_⟩
    by_cases heq' : o'' = o'
    · rw [if_pos heq', heq', hfree, hnone]
    · by_cases heq : o'' = o
      · rw [if_neg heq', if_pos heq, heq, hnone]
      · rw [if_neg heq', if_neg heq]
  have hheld := h.held_eq o
  cases hr : refusal? (namePath base o) with
  | some err => exact hkeep (by rw [hheld, hr])
  | none =>
    cases hn : d.root.get? (loc ++ [entryName x o]) with
    | none => exact hkeep (by rw [hheld, hr, hn]; rfl)
    | some n =>
      rw [hr, hn] at hheld hm
      cases hr' : refusal? (namePath base o') with
      | some err =>
        rw [hr'] at hm
        obtain ⟨e, he⟩ := hm (by simp [hheld])
        cases he
      | none =>
        have hgone := h.setEntry hr (v := none) nofun
        have hleaf (m : Node) (hmem : m ∈ some n) : m.isLeaf = true := h.leaf o hr m (hn.trans hmem)
        refine ⟨hgone.setEntry hr' hleaf, fun o'' => (hgone.held_setEntry hr' hleaf o'').trans ?_⟩
        rw [h.held_setEntry hr (v := none) nofun, hheld]
        rfl

/-- The files from the first number on are moved up by one. -/
theorem shift {n : Nat} (h : Shelf d base loc x) (hm : Shifts base n d) (hfree : held d base (some (n + 1)) = none) :
    Shelf (shift base n d) base loc x ∧ held (Log.shift base n d) base none = held d base none
      ∧ held (Log.shift base n d) base (some 1) = none
      ∧ ∀ k, held (Log.shift base n d) base (some (k + 2))
        = if k < n then held d base (some (k + 1)) else held d base (some (k + 2)) := by
  induction n generalizing d with
  | zero => exact ⟨h, rfl, hfree, fun k => rfl⟩
  | succ n ih =>
    obtain ⟨hmove, hrest⟩ := hm
    obtain ⟨hshelf, hheld⟩ := h.rename (some (n + 1)) (some (n + 2)) (by simp) hfree hmove
    obtain ⟨hlast, hbase, hone, hmore⟩ := ih hshelf hrest ((hheld _).trans (by simp))
    refine ⟨hlast, hbase.trans ((hheld _).trans (by simp)), hone, fun k => (hmore k).trans ?_⟩
    rw [hheld, hheld]
    by_cases hlt : k < n
    · have hlt' : k < n + 1 := by omega
      have h1 : k ≠ n := by omega
      have h2 : k ≠ n + 1 := by omega
      simp [hlt, hlt', h1, h2]
    · by_cases heq : k = n
      · simp [heq]
      · have hlt' : ¬ k < n + 1 := by omega
        have h2 : k + 1 ≠ n := by omega
        simp [hlt, hlt', heq, h2]

/-- **Room is made for a new file**: its path is free, and the older files have moved up by one, the oldest of
them being dropped. -/
theorem makeRoom {count : Nat} (h : Shelf d base loc x) (hm : MakesRoom base count d) :
    Shelf (makeRoom base count d) base loc x ∧ held (Log.makeRoom base count d) base none = none
      ∧ ∀ k < count, held (Log.makeRoom base count d) base (some (k + 1))
        = held d base (if k = 0 then none else some k) := by
  obtain ⟨-, hshifts, hmove, -⟩ := hm
  obtain ⟨hshelf, hheld⟩ := h.remove (some count)
  cases count with
  | zero =>
    obtain ⟨hlast, hfree⟩ := hshelf.remove none
    exact ⟨hlast, (hfree none).trans (if_pos rfl), fun k hk => absurd hk (by omega)⟩
  | succ count =>
    obtain ⟨hshelf', hbase, hone, hmore⟩ := hshelf.shift hshifts ((hheld _).trans (if_pos rfl))
    obtain ⟨hlast, hlastHeld⟩ := hshelf'.rename none (some 1) (by simp) hone (hmove (by omega))
    refine ⟨hlast, (hlastHeld none).trans (by simp), fun k hk => (hlastHeld _).trans ?_⟩
    cases k with
    | zero => exact (if_pos rfl).trans (hbase.trans ((hheld none).trans (by simp)))
    | succ k =>
      have hne : k ≠ count := by omega
      rw [if_neg (by simp), if_neg (by simp)]
      exact (hmore k).trans ((if_pos (by omega)).trans ((hheld _).trans (by simp [hne])))

end Shelf

/-! ## Names that are not refused -/

theorem Shelf.moves (h : Shelf d base loc x) (o o' : Option Nat) (hne : o ≠ o') (hr : refusal? (namePath base o') = none) :
    Moves d (namePath base o) (d.rename (namePath base o) (namePath base o')) := by
  have hrename := (h.names o).rename (h.leaf o) (h.names o') (h.leaf o') fun heq => hne (entryName_injective heq)
  have hheld := h.held_eq o
  rw [Moves, h.found_iff, hrename, hheld, hr]
  intro hfound
  cases hr : refusal? (namePath base o) with
  | some err => exact absurd (by rw [hr]) hfound
  | none =>
    cases hn : d.root.get? (loc ++ [entryName x o]) with
    | none => exact absurd (by rw [hr, hn]; rfl) hfound
    | some n => exact ⟨_, rfl⟩

theorem Shelf.shifts {n : Nat} (h : Shelf d base loc x) (hfree : held d base (some (n + 1)) = none)
    (hr : ∀ k ≤ n + 1, refusal? (rotatedName base k) = none) : Shifts base n d := by
  induction n generalizing d with
  | zero => trivial
  | succ n ih =>
    have hmove := h.moves (some (n + 1)) (some (n + 2)) (by simp) (hr (n + 2) (by omega))
    obtain ⟨hshelf, hheld⟩ := h.rename _ _ (by simp) hfree hmove
    exact ⟨hmove, ih hshelf ((hheld _).trans (by simp)) fun k hk => hr k (by omega)⟩

theorem Shelf.removes (h : Shelf d base loc x) (o : Option Nat) :
    Moves d (namePath base o) (d.remove (namePath base o)) := by
  have hheld := h.held_eq o
  rw [Moves, h.found_iff, (h.names o).remove (h.leaf o), hheld]
  intro hfound
  cases hr : refusal? (namePath base o) with
  | some err => exact absurd (by rw [hr]) hfound
  | none =>
    cases hn : d.root.get? (loc ++ [entryName x o]) with
    | none => exact absurd (by rw [hr, hn]; rfl) hfound
    | some n => exact ⟨_, rfl⟩

theorem Shelf.makesRoom {count : Nat} (h : Shelf d base loc x)
    (hr : ∀ k ≤ count, refusal? (rotatedName base k) = none) : MakesRoom base count d := by
  obtain ⟨hshelf, hheld⟩ := h.remove (some count)
  refine ⟨h.removes (some count), ?_⟩
  cases count with
  | zero => exact ⟨True.intro, fun hpos => absurd hpos (Nat.lt_irrefl 0), fun _ => hshelf.removes none⟩
  | succ count =>
    have hshifts := hshelf.shifts ((hheld _).trans (if_pos rfl)) hr
    obtain ⟨hshelf', -⟩ := hshelf.shift hshifts ((hheld _).trans (if_pos rfl))
    exact ⟨hshifts, fun _ => hshelf'.moves none (some 1) (by simp) (hr 1 (by omega)), nofun⟩

/-! ## Opening the file -/

/-- Where its directory is there, a file is just opened. -/
theorem openAppend_eq (h : d.Names base loc x) (hr : textRefusal? base = none) {place : Location}
    (hopen : d.openFile false base = .ok (place, e)) : openAppend d base = (some (place, e.size place), e) := by
  rw [openAppend]
  cases hparent : base.parent? with
  | none => simp only [hopen]
  | some parent =>
    by_cases hempty : parent.text.isEmpty
    · simp only [hempty, if_true, hopen]
    · have hmade := makeDirs_of_leadsTo (h.leadsTo_parent hr hparent (by simpa using hempty))
      simp only [Bool.eq_false_iff.2 hempty, Bool.false_eq_true, if_false, hmade, hopen]

/-- A file that can be opened is opened on some disk with the directories that were made. -/
theorem exists_openFile {place : Location} {size : Nat} (h : openAppend d base = (some (place, size), e)) :
    ∃ d' : Disk, d'.openFile false base = .ok (place, e) ∧ size = e.size place := by
  rw [openAppend] at h
  split at h
  split at h
  · cases h
  · split at h
    · cases h
    · next hopen =>
      cases h
      exact ⟨_, hopen, rfl⟩

theorem Shelf.size_eq (h : Shelf d base loc x) {c : ByteArray} (hc : held d base none = some c) :
    d.size (loc ++ [x]) = c.size := by
  rw [h.held_eq] at hc
  split at hc
  · cases hc
  · next hr =>
    obtain ⟨n, hn, rfl⟩ := Option.map_eq_some_iff.1 hc
    have hleaf := h.leaf none hr n hn
    rw [Disk.size, show d.root.get? (loc ++ [x]) = some n from hn]
    cases n with
    | file | full => rfl
    | link | dir => simp [isLeaf] at hleaf

/-- There is a file at a place, and no device. -/
def HasFile (d : Disk) (loc : Location) : Prop := ∃ c k, d.root.get? loc = some (.file c k)

/-- A file of the log that is opened again is made if it is not there. -/
theorem Shelf.openAppend (h : Shelf d base loc x) (hr : refusal? base = none) :
    ∃ e, Log.openAppend d base = (some (loc ++ [x], e.size (loc ++ [x])), e) ∧ Shelf e base loc x
      ∧ (∀ o, held e base o = if o = none then some ((held d base none).getD .empty) else held d base o)
      ∧ (held d base none = none → HasFile e (loc ++ [x])) := by
  have htext : textRefusal? base = none := by
    rw [refusal?] at hr
    split at hr
    · cases hr
    · assumption
  have hopen := (h.names none).openFile (h.leaf none)
  have hheld := h.held_eq none
  rw [show namePath base none = base from rfl, hr] at hopen hheld
  cases hn : d.root.get? (loc ++ [entryName x none]) with
  | none =>
    rw [hn] at hopen hheld
    have hleaf (n : Node) (hmem : n ∈ some (.file .empty fileMode)) : n.isLeaf = true := by
      cases hmem
      rfl
    refine ⟨_, openAppend_eq (h.names none) htext hopen, h.setEntry hr hleaf, fun o => ?_, fun _ => ?_⟩
    · rw [h.held_setEntry (o := none) hr hleaf, hheld]
      rfl
    · obtain ⟨mode, es, hdir⟩ := (h.names none).get?
      exact ⟨_, _, get?_alter_self hdir⟩
  | some n =>
    rw [hn] at hopen hheld
    refine ⟨_, openAppend_eq (h.names none) htext hopen, h, fun o => ?_, fun hfree => ?_⟩
    · by_cases ho : o = none
      · rw [if_pos ho, ho, hheld]
        rfl
      · rw [if_neg ho]
    · rw [hheld] at hfree
      cases hfree

/-- **A log that could be opened** is the first of the files of a log. -/
theorem exists_shelf_of_openAppend {place : Location} {size : Nat} (hopen : openAppend d base = (some (place, size), e))
    (hroot : e.root.isDir = true)
    (hplain : ∀ o n, e.lstat (namePath base o) = .ok n → n.isDir = false ∧ n.isLink = false) :
    refusal? base = none ∧ ∃ loc x, place = loc ++ [x] ∧ Shelf e base loc x
      ∧ ∃ c, held e base none = some c ∧ size = c.size := by
  obtain ⟨d', hfile, rfl⟩ := exists_openFile hopen
  obtain ⟨hr, ⟨hways, hwork⟩, loc, x, hname⟩ := exists_names_of_openFile hroot hfile
  have hshelf : Shelf e base loc x := by
    have hnames (o : Option Nat) := numbered (hname.of_sameWays hways hwork) o
    refine ⟨hnames, fun o hr n hn => ?_⟩
    obtain ⟨hdir, hlink⟩ := hplain o n ((hnames o).lstat_of_get? hr hn)
    cases n <;> simp_all [Node.isDir, Node.isLink, isLeaf]
  -- Neither a directory nor a link had the name before, or it would still be there.
  have hleaf : refusal? base = none → ∀ n, d'.root.get? (loc ++ [x]) = some n → n.isLeaf = true := by
    intro hr n hn
    cases n with
    | file | full => rfl
    | link t => exact hshelf.leaf none hr _ (hways.link hn)
    | dir mode es =>
      obtain ⟨mode', es', hn⟩ := hways.dir hn
      exact absurd (hshelf.leaf none hr (.dir mode' es') hn) (by simp [isLeaf])
  have hplace := hname.openFile hleaf
  rw [hr, hfile] at hplace
  obtain ⟨rfl, he⟩ := Prod.mk.inj (Except.ok.inj hplace)
  obtain ⟨n, hn⟩ : ∃ n, e.root.get? (loc ++ [x]) = some n := by
    obtain ⟨mode, es, hdir⟩ := hname.get?
    cases hn : d'.root.get? (loc ++ [x]) with
    | none =>
      rw [hn] at he
      exact ⟨_, by rw [he, setEntry, get?_alter_self hdir]⟩
    | some n =>
      rw [hn] at he
      exact ⟨n, by rw [he, hn]⟩
  have hheld : held e base none = some n.content := by
    rw [hshelf.held_eq, show refusal? (namePath base none) = none from hr, show entryName x none = x from rfl, hn]
    rfl
  exact ⟨hr, loc, x, rfl, hshelf, n.content, hheld, hshelf.size_eq hheld⟩

end Log

end Codemod
