/-
Looking up the entries of a directory by their paths. Whether a path may be followed at all is a
matter of its text (`refusal?`); where it may, and leads by way of a directory that is there, what is
found is what the directory lists (`resolve_join`). So two disks that list the same there answer
alike.
-/
import Codemod.Proofs.Disk.Parents
import Codemod.Proofs.Disk.Resolve

namespace Codemod.Disk

open Node Codemod.Path

/-- The names of all that is on a disk can be spelled in a path. -/
def WellNamed (d : Disk) : Prop := ∀ loc n, d.root.get? loc = some n → ∀ s ∈ loc, IsName s

/-- Links followed, a path leads to the directory at a location. -/
def LeadsTo (d : Disk) (p : Path) (loc : Location) : Prop :=
  ∃ mode es, d.resolve true p = .ok (.node loc (.dir mode es))

/-- Why the text of a path is refused, whatever is on the disk. -/
def textRefusal? (p : Path) : Option OsError :=
  if p.text.toList.contains '\x00' then some .nulInPath
  else if p.text.isEmpty then some .notFound
  else if p.text.utf8ByteSize ≥ pathLimit then some .nameTooLong
  else none

/-- Why an entry cannot be looked up by its path, although there is a directory above it. -/
def refusal? (p : Path) : Option OsError :=
  match textRefusal? p with
  | some e => some e
  | none => if (p.fileName?.getD "").utf8ByteSize > maxName then some .nameTooLong else none

variable {d e : Disk} {follow : Bool} {p : Path} {l loc : Location} {x : String} {n : Node}
  {mode : Nat} {es : Entries} {spot : Spot}

theorem textRefusal?_eq_none : textRefusal? p = none
    ↔ '\x00' ∉ p.text.toList ∧ p.text ≠ "" ∧ p.text.utf8ByteSize < pathLimit := by
  rw [textRefusal?]
  split
  · simp_all
  · split
    · simp_all
    · split <;> simp_all

theorem resolve_eq (d : Disk) (follow : Bool) (p : Path) :
    d.resolve follow p = match textRefusal? p with
      | some e => .error e
      | none => walk d.root follow maxLinks (if startsAtRoot p.text then [] else d.workDir)
          (pathPieces p.text) := by
  rw [resolve, textRefusal?]
  split
  · rfl
  · split
    · rfl
    · split <;> rfl

theorem resolve_eq_ok : d.resolve follow p = .ok spot ↔ textRefusal? p = none
    ∧ Walks d.root follow maxLinks (if startsAtRoot p.text then [] else d.workDir)
      (pathPieces p.text) spot := by
  rw [resolve_eq, ← walk_eq_ok]
  cases textRefusal? p <;> simp

theorem get?_of_resolve (h : d.resolve follow p = .ok (.node loc n)) :
    d.root.get? loc = some n :=
  (resolve_eq_ok.1 h).2.get?

/-- What a path leads to does not depend on files elsewhere. -/
theorem resolve_of_sameWays (h : d.resolve follow p = .ok (.node loc n))
    (hways : d.root.SameWays e.root) (hdir : e.workDir = d.workDir)
    {m : Node} (hm : e.root.get? loc = some m) : e.resolve follow p = .ok (.node loc m) := by
  rw [resolve_eq_ok] at h ⊢
  exact ⟨h.1, hdir ▸ h.2.of_sameWays hways hm⟩

theorem find_eq_ok : d.find follow p = .ok (loc, n) ↔ d.resolve follow p = .ok (.node loc n) := by
  rw [find]
  cases d.resolve follow p with
  | error e => simp [bind, Except.bind]
  | ok spot => cases spot <;> simp [bind, Except.bind, pure, Except.pure]

theorem find_eq_error {e : OsError} (h : d.resolve follow p = .error e) :
    d.find follow p = .error e := by
  rw [find, h]
  rfl

namespace LeadsTo

theorem get? (h : d.LeadsTo p loc) : ∃ mode es, d.root.get? loc = some (.dir mode es) := by
  obtain ⟨mode, es, h⟩ := h
  exact ⟨mode, es, get?_of_resolve h⟩

theorem of_sameWays (h : d.LeadsTo p loc) (hways : d.root.SameWays e.root)
    (hdir : e.workDir = d.workDir) : e.LeadsTo p loc := by
  obtain ⟨mode, es, h⟩ := h
  obtain ⟨mode', es', hget⟩ := hways.dir (get?_of_resolve h)
  exact ⟨mode', es', resolve_of_sameWays h hways hdir hget⟩

theorem unique {loc' : Location} (h : d.LeadsTo p loc) (h' : d.LeadsTo p loc') : loc = loc' := by
  obtain ⟨_, _, h⟩ := h
  obtain ⟨_, _, h'⟩ := h'
  rw [h] at h'
  simp only [Except.ok.injEq, Spot.node.injEq] at h'
  exact h'.1

theorem of_isDir (h : d.isDir p = true) : ∃ loc, d.LeadsTo p loc := by
  rw [Disk.isDir, stat] at h
  cases hfind : d.find true p with
  | error err => simp [hfind, Except.map] at h
  | ok found =>
    obtain ⟨loc, n⟩ := found
    rw [hfind] at h
    cases n with
    | dir mode es => exact ⟨loc, mode, es, find_eq_ok.1 hfind⟩
    | file | link | full => simp [Except.map, Node.isDir] at h

theorem isDir (h : d.LeadsTo p loc) : d.isDir p = true := by
  obtain ⟨mode, es, h⟩ := h
  rw [Disk.isDir, stat, find_eq_ok.2 h]
  rfl

theorem text_ne_empty (h : d.LeadsTo p loc) : p.text ≠ "" := by
  obtain ⟨mode, es, h⟩ := h
  exact (textRefusal?_eq_none.1 (resolve_eq_ok.1 h).1).2.1

/-- A separator at the end of a path to a directory makes no difference. -/
theorem walks_solid (h : d.LeadsTo p loc) : ∃ mode es,
    Walks d.root true maxLinks (if startsAtRoot p.text then [] else d.workDir)
      ((solid p.text.toList).map String.ofList) (.node loc (.dir mode es)) := by
  obtain ⟨mode, es, h⟩ := h
  have hway := (resolve_eq_ok.1 h).2
  rcases pathPieces_eq_or p.text with hpieces | hpieces
  · exact ⟨mode, es, hpieces ▸ hway⟩
  · exact ⟨mode, es, (hpieces ▸ hway).of_concat_here⟩

/-- From a directory, a path goes on as from any other way to it. -/
theorem walk_append (h : d.LeadsTo p loc) : ∃ links, ∀ follow qs, qs ≠ [] →
    walk d.root follow maxLinks (if startsAtRoot p.text then [] else d.workDir)
      ((solid p.text.toList).map String.ofList ++ qs) = walk d.root follow links loc qs := by
  obtain ⟨mode, es, h⟩ := h.walks_solid
  exact h.append

theorem walk_append_pathOf (h : d.LeadsTo (pathOf l) loc) (hl : ∀ s ∈ l, IsName s) :
    ∃ links, ∀ follow qs, qs ≠ [] →
      walk d.root follow maxLinks [] (l ++ qs) = walk d.root follow links loc qs := by
  simpa only [startsAtRoot_pathOf, if_true, solid_pathOf hl, map_ofList_toList] using h.walk_append

/-- The path that is the parent of an entry leads to the same directory. -/
theorem tidy (h : d.LeadsTo p loc) : d.LeadsTo p.tidy loc := by
  obtain ⟨mode, es, hway⟩ := h.walks_solid
  obtain ⟨n, hn⟩ := solid_trimmed p.text.toList
  have htidy : pathPieces p.tidy.text = (solid (trimmed p.text.toList)).map String.ofList :=
    pathPieces_trimmed _
  have hstart : startsAtRoot p.tidy.text = startsAtRoot p.text := by
    rw [startsAtRoot, startsAtRoot, Bool.eq_iff_iff, beq_iff_eq, beq_iff_eq, Path.tidy,
      String.toList_ofList, head?_trimmed_iff]
  rw [hn, List.map_append, ← htidy, List.map_replicate] at hway
  refine ⟨mode, es, resolve_eq_ok.2 ⟨?_, ?_⟩⟩
  · obtain ⟨mode, es, h⟩ := h
    obtain ⟨hnul, hne, hlong⟩ := textRefusal?_eq_none.1 (resolve_eq_ok.1 h).1
    obtain ⟨more, hmore⟩ := trimmed_prefix p.text.toList
    refine textRefusal?_eq_none.2 ⟨fun hmem => hnul ?_, tidy_ne_empty hne, ?_⟩
    · rw [← hmore]
      exact List.mem_append_left _ (by simpa [Path.tidy] using hmem)
    · rw [Text.utf8ByteSize_eq, ← hmore, Text.byteCount_append] at hlong
      rw [Text.utf8ByteSize_eq, Path.tidy, String.toList_ofList]
      omega
  · rw [hstart]
    clear hn
    induction n with
    | zero => simpa using hway
    | succ n ih =>
      rw [List.replicate_succ', ← List.append_assoc] at hway
      exact ih hway.of_concat_here

end LeadsTo

/-- **An entry is found by its path as its directory lists it**, unless it is a link. -/
theorem resolve_join (hlead : d.LeadsTo p loc) (hx : IsName x)
    (hdir : d.root.get? loc = some (.dir mode es)) (hlink : ∀ t, Entries.get? x es ≠ some (.link t))
    (follow : Bool) :
    d.resolve follow (p.join ⟨x⟩) = match refusal? (p.join ⟨x⟩) with
      | some e => .error e
      | none => .ok (match Entries.get? x es with
        | none => .free loc x
        | some n => .node (loc ++ [x]) n) := by
  have hp := hlead.text_ne_empty
  obtain ⟨links, hgo⟩ := hlead.walk_append
  rw [resolve_eq, refusal?, startsAtRoot_join hp (isAbsolute_name hx), pathPieces_join_name hp hx,
    fileName?_join_name hp hx, hgo follow [x] (by simp), walk_name hdir hx.ne_here hx.ne_up]
  cases textRefusal? (p.join ⟨x⟩) with
  | some e => rfl
  | none =>
    simp only [Option.getD_some]
    split
    · rfl
    · cases hn : Entries.get? x es with
      | none => rfl
      | some n =>
        have hget : d.root.get? (loc ++ [x]) = some n := (get?_concat hdir x).trans hn
        cases n with
        | link t => exact absurd hn (hlink t)
        | file | full | dir => exact walk_stop hget

theorem find_join (hlead : d.LeadsTo p loc) (hx : IsName x)
    (hn : d.root.get? (loc ++ [x]) = some n) (hlink : n.isLink = false) (follow : Bool) :
    d.find follow (p.join ⟨x⟩) = match refusal? (p.join ⟨x⟩) with
      | some e => .error e
      | none => .ok (loc ++ [x], n) := by
  obtain ⟨mode, es, hdir⟩ := hlead.get?
  have hentry : Entries.get? x es = some n := (get?_concat hdir x).symm.trans hn
  have hnot (t : String) : Entries.get? x es ≠ some (.link t) := by
    rintro h
    obtain rfl := Option.some.inj (hentry.symm.trans h)
    simp [isLink] at hlink
  have h := resolve_join hlead hx hdir hnot follow
  rw [hentry] at h
  rw [find, h]
  cases refusal? (p.join ⟨x⟩) <;> rfl

/-- Where a name is free, there is nothing to be found. -/
theorem find_join_free (hlead : d.LeadsTo p loc) (hx : IsName x)
    (hdir : d.root.get? loc = some (.dir mode es)) (hnone : Entries.get? x es = none) (follow : Bool) :
    ∃ err, d.find follow (p.join ⟨x⟩) = .error err := by
  have h := resolve_join hlead hx hdir (by simp [hnone]) follow
  rw [hnone] at h
  rw [find, h]
  cases refusal? (p.join ⟨x⟩) with
  | some err => exact ⟨err, rfl⟩
  | none => exact ⟨.notFound, rfl⟩

/-! ## Joined paths and parents -/

/-- Where a joined path leads to something, the path in front leads to a directory. -/
theorem exists_leadsTo_of_join {root : Path} (hroot : root.text ≠ "") (hp : p.isAbsolute = false)
    (hne : p.text ≠ "") (hfind : d.find follow (root.join p) = .ok (loc, n)) :
    ∃ dirs, d.LeadsTo root dirs := by
  obtain ⟨hrefusal, h⟩ := resolve_eq_ok.1 (find_eq_ok.1 hfind)
  obtain ⟨x, qs, hqs⟩ := List.exists_cons_of_ne_nil (pathPieces_ne_nil hp hne)
  obtain ⟨more, hmore⟩ := prefix_join hroot hp
  -- The text in front is no longer, and what refuses it refuses the whole.
  have hrefusal' : textRefusal? root = none := by
    obtain ⟨hnul, -, hlong⟩ := textRefusal?_eq_none.1 hrefusal
    rw [← hmore] at hnul
    rw [Text.utf8ByteSize_eq, ← hmore, Text.byteCount_append, ← Text.utf8ByteSize_eq] at hlong
    exact textRefusal?_eq_none.2 ⟨fun h => hnul (List.mem_append_left _ h), hroot, by omega⟩
  rw [pathPieces_join_eq hroot hp hne, hqs, startsAtRoot_join hroot hp] at h
  obtain ⟨dirs, mode, es, hfront⟩ := h.front
  refine ⟨dirs, mode, es, ?_⟩
  refine resolve_eq_ok.2 ⟨hrefusal', ?_⟩
  rcases pathPieces_eq_or root.text with hpieces | hpieces
  · rw [hpieces]
    exact hfront
  · rw [hpieces]
    exact hfront.concat_here

/-- What a path leads to is found from where its parent leads, and there is a directory. -/
theorem walks_of_parent {parent : Path} {dirs : Location} {m : Node}
    (hparent : p.parent? = some parent) (hfind : d.find follow p = .ok (loc, n))
    (hfind' : d.find true parent = .ok (dirs, m)) : m.isDir = true ∧ ∃ links k piece j,
      Walks d.root follow links dirs (List.replicate k "." ++ piece :: List.replicate j ".")
        (.node loc n) := by
  obtain ⟨hrefusal, h'⟩ := resolve_eq_ok.1 (find_eq_ok.1 hfind')
  have h := (resolve_eq_ok.1 (find_eq_ok.1 hfind)).2
  obtain ⟨hstart, k, piece, j, hpieces⟩ :=
    pathPieces_parent hparent (textRefusal?_eq_none.1 hrefusal).2.1
  rw [show startsAtRoot parent.text = startsAtRoot p.text from hstart] at h'
  rw [hpieces] at h
  cases m with
  | dir mode es =>
    obtain ⟨links, hgo⟩ := h'.append
    rw [← walk_eq_ok, hgo follow _ (by simp), walk_eq_ok] at h
    exact ⟨rfl, links, k, piece, j, h⟩
  | file | link | full =>
    obtain ⟨x, qs, hqs⟩ := List.exists_cons_of_ne_nil
      (l := List.replicate k "." ++ piece :: List.replicate j ".") (by simp)
    obtain ⟨e, herror⟩ := h'.stuck rfl x qs follow
    rw [hqs, ← walk_eq_ok, herror] at h
    cases h

/-- **A file is an entry of the directory that its path's parent leads to.** -/
theorem file_in_parent {parent : Path} {dirs : Location} {m : Node} {c : ByteArray} {k : Nat}
    (hparent : p.parent? = some parent) (hfind : d.find false p = .ok (loc, .file c k))
    (hfind' : d.find true parent = .ok (dirs, m)) : ∃ x, loc = dirs ++ [x] := by
  obtain ⟨-, links, i, piece, j, hway⟩ := walks_of_parent hparent hfind hfind'
  exact ⟨piece, hway.eq_of_entry rfl⟩

/-! ## Absolute paths -/

theorem canonical_eq_ok {r : Path} : d.canonical p = .ok r ↔ ∃ loc n, d.find true p = .ok (loc, n)
    ∧ (pathOf loc).text.utf8ByteSize < pathLimit ∧ r = pathOf loc := by
  rw [canonical]
  cases d.find true p with
  | error err => simp
  | ok found =>
    obtain ⟨loc, n⟩ := found
    by_cases hlong : (pathOf loc).text.utf8ByteSize ≥ pathLimit
    · simp only [if_pos hlong]
      constructor
      · intro h
        cases h
      · rintro ⟨loc', n', h, hshort, -⟩
        simp only [Except.ok.injEq, Prod.mk.injEq] at h
        rw [← h.1] at hshort
        omega
    · simp only [if_neg hlong, Except.ok.injEq, Prod.mk.injEq]
      constructor
      · rintro rfl
        exact ⟨loc, n, ⟨rfl, rfl⟩, by omega, rfl⟩
      · rintro ⟨_, _, ⟨rfl, rfl⟩, -, rfl⟩
        rfl

theorem canonical_of_leadsTo (h : d.LeadsTo p loc)
    (hshort : (pathOf loc).text.utf8ByteSize < pathLimit) : d.canonical p = .ok (pathOf loc) := by
  obtain ⟨mode, es, h⟩ := h
  rw [canonical, find_eq_ok.2 h]
  exact if_neg (Nat.not_le.2 hshort)

/-- The root leads to itself, and is written with a separator alone. -/
theorem leadsTo_separator (hdir : d.root.get? [] = some (.dir mode es)) : d.LeadsTo ⟨"/"⟩ [] := by
  have hpieces : pathPieces "/" = [] := by decide
  refine ⟨mode, es, resolve_eq_ok.2 ⟨by decide, ?_⟩⟩
  rw [hpieces, if_pos (by decide)]
  exact .stop hdir

theorem canonical_separator (hdir : d.root.get? [] = some (.dir mode es)) :
    d.canonical ⟨"/"⟩ = .ok ⟨"/"⟩ := by
  rw [canonical_of_leadsTo (leadsTo_separator hdir) (by decide), pathOf_nil]

theorem absolute_separator (hdir : d.root.get? [] = some (.dir mode es)) : d.absolute ⟨"/"⟩ = ⟨"/"⟩ := by
  have hjoin : d.here.join ⟨"/"⟩ = ⟨"/"⟩ := if_pos (by decide)
  rw [absolute, hjoin, canonical_separator hdir]

/-- **A resolved path spells a location.** -/
theorem absolute_eq_pathOf (hd : d.WellNamed) (p : Path) :
    ∃ l, (∀ s ∈ l, IsName s) ∧ d.absolute p = pathOf l := by
  rw [absolute]
  cases hc : d.canonical (d.here.join p) with
  | error e => exact normalize_eq_pathOf (isAbsolute_join _ _)
  | ok c =>
    rw [canonical] at hc
    split at hc
    · cases hc
    · rename_i loc n hfind
      split at hc
      · cases hc
      · cases hc
        exact ⟨loc, hd loc n (get?_of_resolve (find_eq_ok.1 hfind)), rfl⟩

/-- Where a path goes through a name that is free, it leads nowhere, and its text alone decides. -/
theorem absolute_up (hlead : d.LeadsTo (pathOf l) loc) (hl : ∀ s ∈ l, IsName s) (hx : IsName x)
    (hdir : d.root.get? loc = some (.dir mode es)) (hnone : Entries.get? x es = none) :
    d.absolute ((pathOf (l ++ [x])).join ⟨".."⟩) = pathOf l := by
  have habs := isAbsolute_join (l ++ [x]) ⟨".."⟩
  have hall : ∀ s ∈ l ++ [x], IsName s := hx.concat hl
  have hpieces : pathPieces ((pathOf (l ++ [x])).join ⟨".."⟩).text = l ++ [x, ".."] := by
    rw [pathPieces_join rfl (by decide) hall, List.append_assoc]
    rfl
  have hup := normalize_up hl hx
  generalize (pathOf (l ++ [x])).join ⟨".."⟩ = p at habs hpieces hup
  have hmissing : ∃ err, d.find true p = .error err := by
    cases h : textRefusal? p with
    | some err => exact ⟨err, find_eq_error (by rw [resolve_eq, h])⟩
    | none =>
      have hstart : startsAtRoot p.text = true := habs
      obtain ⟨links, hgo⟩ := hlead.walk_append_pathOf hl
      refine ⟨if x.utf8ByteSize > maxName then .nameTooLong else .notFound, find_eq_error ?_⟩
      rw [resolve_eq, h, hstart, if_pos rfl, hpieces, hgo true _ (by simp),
        walk_name hdir hx.ne_here hx.ne_up, hnone]
      by_cases hlong : x.utf8ByteSize > maxName
      · simp [hlong]
      · simp [hlong]
  obtain ⟨err, hmissing⟩ := hmissing
  rw [absolute, join, if_pos habs, canonical, hmissing]
  exact hup

end Codemod.Disk
