/-
What the operations on a disk leave as it is. The path that a file was opened by leads to its place (`Opened`), also
where the file was made by that; what is added to it is at its end, and nothing else changes (`Opened.append`). A
removal takes away what a path names, and no more (`at?_erase`); a new directory comes to a free place
(`exists_of_makeDir`); where a name is given to something else, only what is at the old and the new name changes, and
what is below them (`at?_rename`). Directories that are made come one by one, each of them the path itself or above
it (`makeDirs_rec`).
-/
import Mathlib.Logic.Relation
import Codemod.Proofs.Disk.Read
import Codemod.Proofs.Run.Elsewhere

namespace Codemod.Disk

open Node

/-- What there is in the file at a place; where there is none, and in a device, there is nothing. -/
def contentAt (d : Disk) (loc : Location) : ByteArray := ((d.root.get? loc).map Node.content).getD .empty

/-- The place that is there or free. -/
def Spot.place : Spot → Location
  | .node loc _ => loc
  | .free parent name => parent ++ [name]

/-- A path leads to a file or a device at a place. -/
def Opened (d : Disk) (p : Path) (place : Location) : Prop :=
  ∃ n, d.resolve true p = .ok (.node place n) ∧ n.isLeaf = true

/-- Two disks that are the same but for what is at one place. -/
structure SameBeside (d e : Disk) (place : Location) : Prop where
  workDir : e.workDir = d.workDir
  same : ∀ l, l ≠ place → e.root.at? l = d.root.at? l

variable {d e : Disk} {p q : Path} {place loc l parent : Location} {b : ByteArray} {n m root : Node} {x : String}
  {mode : Nat} {es : Entries}

/-! ## Open files -/

theorem SameBeside.refl (d : Disk) (place : Location) : d.SameBeside d place := ⟨rfl, fun _ _ => rfl⟩

theorem SameBeside.trans {k : Disk} (h : d.SameBeside e place) (h' : e.SameBeside k place) : d.SameBeside k place :=
  ⟨h'.workDir.trans h.workDir, fun l hl => (h'.same l hl).trans (h.same l hl)⟩

theorem size_eq (d : Disk) (loc : Location) : d.size loc = (d.contentAt loc).size := by
  rw [size, contentAt]
  cases d.root.get? loc with
  | none => rfl
  | some n => cases n <;> rfl

theorem contentAt_of_get? (h : d.root.get? loc = some n) : d.contentAt loc = n.content := by
  rw [contentAt, h]
  rfl

/-- Where a way leads to a free name, it leads to what has been put there. -/
theorem Walks.to_made {root s : Node} {links : Nat} {here : Location} {ps : List String}
    (h : Walks root true links here ps (.free parent x)) (hways : root.SameWays s)
    (hm : s.get? (parent ++ [x]) = some m) (hlink : m.isLink = false) :
    Walks s true links here ps (.node (parent ++ [x]) m) := by
  generalize hs : Spot.free parent x = spot at h
  induction h with
  | free hdir hx =>
    cases hs
    exact .down hx hm hlink (.stop hm)
  | stop | link => cases hs
  | stay hdir _ ih =>
    obtain ⟨_, _, hdir⟩ := hways.dir hdir
    exact .stay hdir (ih hs)
  | up hdir _ ih =>
    obtain ⟨_, _, hdir⟩ := hways.dir hdir
    exact .up hdir (ih hs)
  | follow hx hlink hrest _ ih => exact .follow hx (hways.link hlink) hrest (ih hs)
  | @down links here y rest spot a hx ha hnot _ ih =>
    obtain ⟨b, hb⟩ := (ih hs).exists_start
    refine .down hx hb ?_ (ih hs)
    cases b with
    | link t =>
      obtain rfl : a = .link t := Option.some.inj (ha.symm.trans (hways.symm.link hb))
      exact hnot
    | file | full | dir => rfl

/-- A file that is made is at the end of the way to its name, and nothing else has changed. -/
theorem Opened.of_made (h : d.resolve true p = .ok (.free parent x)) :
    Opened (d.setEntry (parent ++ [x]) (some (.file .empty fileMode))) p (parent ++ [x])
      ∧ (d.setEntry (parent ++ [x]) (some (.file .empty fileMode))).contentAt (parent ++ [x])
        = d.contentAt (parent ++ [x])
      ∧ SameBeside d (d.setEntry (parent ++ [x]) (some (.file .empty fileMode))) (parent ++ [x]) := by
  obtain ⟨hr, hway⟩ := resolve_eq_ok.1 h
  obtain ⟨mode, es, hdir, hnone⟩ := hway.entry_of_free
  have hget : (d.setEntry (parent ++ [x]) (some (.file .empty fileMode))).root.get? (parent ++ [x])
      = some (.file .empty fileMode) := get?_alter_self hdir
  have hways : d.root.SameWays (d.setEntry (parent ++ [x]) (some (.file .empty fileMode))).root :=
    sameWays_alter hdir (by simp [hnone]) (by rintro _ ⟨⟩; rfl)
  refine ⟨⟨_, resolve_eq_ok.2 ⟨hr, hway.to_made hways hget rfl⟩, rfl⟩, ?_, rfl, fun l hl => ?_⟩
  · rw [contentAt_of_get? hget, contentAt, get?_concat hdir, hnone]
    rfl
  · exact (at?_alter hdir (by simp [hnone]) (by rintro _ ⟨⟩; rfl) l).trans (if_neg hl)

/-- **A file that has been opened** holds what it held, and nothing else has changed. -/
theorem Opened.of_openFile (h : d.openFile false p = .ok (place, e)) :
    Opened e p place ∧ e.contentAt place = d.contentAt place ∧ SameBeside d e place
      ∧ ∃ spot, d.resolve true p = .ok spot ∧ spot.place = place := by
  rcases openFile_cases h with ⟨parent, x, hres, rfl⟩ | ⟨n, hres, hn, rfl⟩
  · obtain rfl : parent ++ [x] = place := by
      rw [openFile, hres] at h
      exact congrArg Prod.fst (Except.ok.inj h)
    obtain ⟨hopened, hcontent, hsame⟩ := Opened.of_made hres
    exact ⟨hopened, hcontent, hsame, _, hres, rfl⟩
  · exact ⟨⟨n, hres, hn⟩, rfl, .refl _ _, _, hres, rfl⟩

/-- What is added to a leaf is at its end, and a leaf is still there. -/
theorem append_leaf (hn : d.root.get? place = some n) (hleaf : n.isLeaf = true) (h : d.append place b = .ok e) :
    ∃ m, e.root.get? place = some m ∧ m.isLeaf = true ∧ m.content = n.content ++ b ∧ SameBeside d e place := by
  rw [append, hn] at h
  cases n with
  | file c k =>
    cases h
    refine ⟨.file (c ++ b) k, get?_put_self hn _, rfl, rfl, rfl, fun l hl => ?_⟩
    exact (at?_put_over (v := .file (c ++ b) k) hn (fun _ _ => rfl) l).trans (if_neg hl)
  | full =>
    by_cases hb : b.isEmpty
    · obtain rfl : d = e := Except.ok.inj ((if_pos hb).symm.trans h)
      obtain rfl : b = .empty := by simpa [ByteArray.isEmpty] using hb
      exact ⟨.full, hn, rfl, rfl, .refl d place⟩
    · simp [hb] at h
  | link | dir => simp [isLeaf] at hleaf

/-- **What is added to an open file** is at its end, and nothing else changes. -/
theorem Opened.append (ho : d.Opened p place) (h : d.append place b = .ok e) :
    Opened e p place ∧ e.contentAt place = d.contentAt place ++ b ∧ SameBeside d e place := by
  obtain ⟨n, hres, hleaf⟩ := ho
  have hn := get?_of_resolve hres
  obtain ⟨m, hm, hmleaf, hcontent, hsame⟩ := append_leaf hn hleaf h
  have hgrows := Grows.of_append h
  refine ⟨⟨m, resolve_of_sameWays hres hgrows.ways hgrows.workDir hm, hmleaf⟩, ?_, hsame⟩
  rw [contentAt_of_get? hm, contentAt_of_get? hn, hcontent]

/-! ## Operations -/

/-- Something that is no directory leaves a free place behind. -/
theorem at?_erase (h : root.get? loc = some n) (hn : n.isDir = false) (hl : (root.erase loc).at? l ≠ root.at? l) :
    l = loc ∧ (root.erase loc).at? l = none := by
  rcases List.eq_nil_or_concat loc with rfl | ⟨above, x, rfl⟩
  · exact absurd (by simp [erase, alter]) hl
  · rw [List.concat_eq_append] at h hl ⊢
    obtain ⟨mode, es, hdir⟩ := exists_dir_above h
    have hold (m : Node) (hm : Entries.get? x es = some m) : m.isDir = false := by
      obtain rfl := Option.some.inj (h.symm.trans ((get?_concat hdir x).trans hm))
      exact hn
    have hat : (root.erase (above ++ [x])).at? l = if l = above ++ [x] then none else root.at? l :=
      at?_alter hdir hold (by simp) l
    rw [hat] at hl ⊢
    by_cases hplace : l = above ++ [x]
    · exact ⟨hplace, if_pos hplace⟩
    · exact absurd (if_neg hplace) hl

/-- A new directory is empty, so nothing changes but its place. -/
theorem at?_put_empty (hdir : root.get? parent = some (.dir mode es)) (hnone : Entries.get? x es = none) (k : Nat)
    (l : Location) :
    (root.put (parent ++ [x]) (.dir k [])).at? l = if l = parent ++ [x] then some (.dir k) else root.at? l := by
  by_cases hp : parent ++ [x] <+: l
  · obtain ⟨rest, rfl⟩ := hp
    have hself : (root.put (parent ++ [x]) (.dir k [])).get? (parent ++ [x]) = some (.dir k []) := get?_alter_self hdir
    have hfree : root.get? (parent ++ [x]) = none := (get?_concat hdir x).trans hnone
    cases rest with
    | nil => simp [at?, hself, label]
    | cons y rest =>
      rw [if_neg (by simp), at?, at?, get?_append, hself, get?_append, hfree]
      rfl
  · rw [put, at?_alter_elsewhere hp, if_neg]
    rintro rfl
    exact hp (List.prefix_refl _)

theorem exists_of_remove (h : d.remove p = .ok e) : ∃ loc n, d.resolve false p = .ok (.node loc n) ∧ n.isDir = false
    ∧ e = { d with root := d.root.erase loc } := by
  obtain ⟨⟨loc, n⟩, hfind, h⟩ := exists_of_bind h
  cases hn : n.isDir with
  | true => simp [hn] at h
  | false =>
    simp only [hn] at h
    cases h
    exact ⟨loc, n, find_eq_ok.1 hfind, hn, rfl⟩

theorem exists_of_rename (h : d.rename p q = .ok e) : ∃ source n spot, d.resolve false p = .ok (.node source n)
    ∧ d.resolve false q = .ok spot ∧ (e = d ∨ e = { d with root := (d.root.erase source).put spot.place n }) := by
  rw [rename] at h
  obtain ⟨⟨source, n⟩, hfind, h⟩ := exists_of_bind h
  refine ⟨source, n, ?_⟩
  simp only [bind, Except.bind] at h
  split at h
  · cases hres : d.resolve false q <;> simp [hres] at h
  · split at h
    · cases h
    · cases hres : d.resolve false q with
      | error err => simp [hres] at h
      | ok spot =>
        refine ⟨spot, find_eq_ok.1 hfind, rfl, ?_⟩
        rw [hres] at h
        cases spot with
        | free parent name =>
          simp only at h
          split at h
          · cases h
          · cases h
            exact .inr rfl
        | node target m =>
          simp only at h
          split at h
          · cases h
            exact .inl rfl
          · split at h
            · cases h
            · split at h
              · cases h
              · split at h
                · cases h
                · cases h
                  exact .inr rfl

/-- A name that is given to something else changes nothing but what is at the two names or below them. -/
theorem at?_rename (h : d.rename p q = .ok e) : e.workDir = d.workDir ∧ ∀ l, e.root.at? l ≠ d.root.at? l →
    ∃ r spot, (r = p ∨ r = q) ∧ d.resolve false r = .ok spot ∧ spot.place <+: l := by
  obtain ⟨source, n, spot, hp, hq, rfl | rfl⟩ := exists_of_rename h
  · exact ⟨rfl, fun l hl => absurd rfl hl⟩
  · refine ⟨rfl, fun l hl => ?_⟩
    by_contra hnot
    have hsource : ¬ source <+: l := fun hs => hnot ⟨p, _, .inl rfl, hp, hs⟩
    have htarget : ¬ spot.place <+: l := fun hs => hnot ⟨q, spot, .inr rfl, hq, hs⟩
    exact hl ((at?_alter_elsewhere htarget).trans (at?_alter_elsewhere hsource))

theorem exists_of_makeDir (h : d.makeDir p = .ok e) : ∃ parent x mode es,
    d.resolve false (bare p) = .ok (.free parent x) ∧ d.root.get? parent = some (.dir mode es)
    ∧ Entries.get? x es = none ∧ e = { d with root := d.root.put (parent ++ [x]) (.dir dirMode []) } := by
  obtain ⟨spot, hres, h⟩ := exists_of_bind h
  cases spot with
  | node loc n => cases h
  | free parent x =>
    cases h
    obtain ⟨mode, es, hdir, hnone⟩ := (resolve_eq_ok.1 hres).2.entry_of_free
    exact ⟨parent, x, mode, es, hres, hdir, hnone, rfl⟩

/-- A directory that is made comes to the place that its path leads to, which was free. -/
theorem at?_makeDir (h : d.makeDir p = .ok e) : e.workDir = d.workDir ∧ ∀ l, e.root.at? l ≠ d.root.at? l →
    (∃ spot, d.resolve false (bare p) = .ok spot ∧ spot.place = l) ∧ d.root.at? l = none
      ∧ e.root.at? l = some (.dir dirMode) := by
  obtain ⟨parent, x, mode, es, hres, hdir, hnone, rfl⟩ := exists_of_makeDir h
  refine ⟨rfl, fun l hl => ?_⟩
  have hat := at?_put_empty hdir hnone dirMode l
  by_cases hplace : l = parent ++ [x]
  · refine ⟨⟨_, hres, hplace.symm⟩, ?_, hat.trans (if_pos hplace)⟩
    rw [hplace, at?, get?_concat hdir, hnone]
    rfl
  · exact absurd (hat.trans (if_neg hplace)) hl

/-! ## The directories above a path -/

/-- A directory that the text of a path goes through. -/
def Above (q p : Path) : Prop := Relation.TransGen (fun p q => p.parent? = some q) p q

theorem Above.bare_eq (h : Above q p) : bare q = q := by
  obtain ⟨_, -, hparent⟩ := Relation.TransGen.tail'_iff.1 h
  exact bare_parent hparent

theorem mem_chain {k : Nat} (h : q ∈ chain k p) : Relation.ReflTransGen (fun p q => p.parent? = some q) p q := by
  induction k generalizing p with
  | zero =>
    obtain rfl := List.mem_singleton.1 h
    exact .refl
  | succ k ih =>
    rw [chain] at h
    cases hparent : p.parent? with
    | none =>
      simp only [hparent] at h
      obtain rfl := List.mem_singleton.1 h
      exact .refl
    | some r =>
      simp only [hparent] at h
      rcases List.mem_cons.1 h with rfl | h
      · exact .refl
      · exact .head hparent (ih h)

/-- What making a directory keeps is kept by making a chain of them, whether all could be made or not. -/
theorem makeChain_rec {motive : Disk → Prop} {ps : List Path}
    (hmake : ∀ p ∈ ps, ∀ d e, motive d → d.makeDir p = .ok e → motive e) (h : motive d) :
    motive (d.makeChain ps).2 := by
  induction ps generalizing d with
  | nil => exact h
  | cons p above ih =>
    have hself {d e : Disk} (h : motive d) (hmade : d.makeDir p = .ok e) : motive e :=
      hmake p (List.mem_cons_self ..) d e h hmade
    have hrest : motive (d.makeChain above).2 := ih (fun q hq => hmake q (List.mem_cons_of_mem p hq)) h
    rw [makeChain]
    split
    · exact h
    · split
      · next e hmade => exact hself h hmade
      · split
        · generalize d.makeChain above = r at hrest ⊢
          obtain ⟨made, k⟩ := r
          cases made with
          | error err => exact hrest
          | ok _ =>
            dsimp only
            split
            · next e hmade => exact hself hrest hmade
            · exact hrest
        · exact h

theorem makeDirs_rec {motive : Disk → Prop}
    (hmake : ∀ q, Relation.ReflTransGen (fun p q => p.parent? = some q) p q →
      ∀ d e, motive d → d.makeDir q = .ok e → motive e) (h : motive d) : motive (d.makeDirs p).2 :=
  makeChain_rec (fun q hq => hmake q (mem_chain hq)) h

end Codemod.Disk
