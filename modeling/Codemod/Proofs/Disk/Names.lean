/-
Paths that end in a name. What stands before the name leads to a directory, and the path is refused or leads
to the entry of that name (`Names.resolve`); so paths that differ in the name only are about entries of one
directory (`Names.beside`), which is there when a file is opened (`makeDirs_parent`).
-/
import Codemod.Proofs.Disk.Entry

namespace Codemod

namespace Path

/-- A text is a last piece behind a separator, or has no separator. -/
theorem exists_last_piece (cs : List Char) : '/' ∉ cs ∨ ∃ front piece, cs = front ++ '/' :: piece ∧ '/' ∉ piece := by
  by_cases hmem : '/' ∈ cs
  · obtain ⟨piece, front, hcs, hsep⟩ := List.eq_append_cons_of_mem (List.mem_reverse.2 hmem)
    refine .inr ⟨front.reverse, piece.reverse, ?_, by simpa using hsep⟩
    simpa using congrArg List.reverse hcs
  · exact .inl hmem

/-- The last piece of a text that does not end in a separator, with what stands before it. -/
theorem exists_solid_concat {cs : List Char} (hne : cs ≠ []) (hlast : cs.getLast? ≠ some '/') :
    ∃ ps piece, piece ≠ [] ∧ ∀ more : List Char, '/' ∉ more → solid (cs ++ more) = ps ++ [piece ++ more] := by
  rcases exists_last_piece cs with hsep | ⟨front, piece, rfl, hsep⟩
  · refine ⟨[], cs, hne, fun more hmore => ?_⟩
    rw [solid_piece (by simp [hsep, hmore]) (by simp [hne]), List.nil_append]
  · have hpiece : piece ≠ [] := by
      intro h
      simp [h] at hlast
    refine ⟨solid front, piece, hpiece, fun more hmore => ?_⟩
    have hlonger : solid (piece ++ more) = [piece ++ more] :=
      solid_piece (by simp [hsep, hmore]) (by simp [hpiece])
    rw [List.append_assoc, List.cons_append, solid_separator, hlonger]

end Path

namespace Disk

open Node Codemod.Path

variable {d e : Disk} {p : Path} {loc : Location} {x : String} {n : Node} {mode : Nat} {es : Entries}

/-- A path ends in a name, and what stands before it leads to the directory at a location. -/
structure Names (d : Disk) (p : Path) (loc : Location) (x : String) : Prop where
  name : IsName x
  way : ∃ ps, pathPieces p.text = ps ++ [x] ∧ ∃ mode es,
    Walks d.root true maxLinks (if startsAtRoot p.text then [] else d.workDir) ps (.node loc (.dir mode es))

namespace Names

theorem get? (h : d.Names p loc x) : ∃ mode es, d.root.get? loc = some (.dir mode es) := by
  obtain ⟨-, ps, -, mode, es, hway⟩ := h
  exact ⟨mode, es, hway.get?⟩

theorem of_sameWays (h : d.Names p loc x) (hways : d.root.SameWays e.root) (hdir : e.workDir = d.workDir) :
    e.Names p loc x := by
  obtain ⟨hx, ps, hpieces, mode, es, hway⟩ := h
  obtain ⟨mode', es', hget⟩ := hways.dir hway.get?
  exact ⟨hx, ps, hpieces, mode', es', hdir ▸ hway.of_sameWays hways hget⟩

theorem text_ne_nil (h : d.Names p loc x) : p.text.toList ≠ [] := by
  obtain ⟨-, ps, hpieces, -⟩ := h
  intro hnil
  simp [pathPieces_eq, hnil, solid, pieces] at hpieces

theorem getLast_ne (h : d.Names p loc x) : p.text.toList.getLast? ≠ some '/' := by
  obtain ⟨hx, ps, hpieces, -⟩ := h
  intro hlast
  rw [pathPieces_eq] at hpieces
  by_cases hsolid : solid p.text.toList = []
  · simp [hsolid] at hpieces
  · rw [if_pos (by simp [hlast, hsolid]), List.map_append] at hpieces
    have hdot := List.append_inj_right' hpieces rfl
    exact hx.ne_here (List.singleton_inj.1 hdot).symm

/-- The pieces that a path and longer ones pass. -/
theorem pathPieces_append (h : d.Names p loc x) : ∃ ps, (∃ mode es,
      Walks d.root true maxLinks (if startsAtRoot p.text then [] else d.workDir) ps (.node loc (.dir mode es)))
    ∧ ∀ more : String, '/' ∉ more.toList → pathPieces (p.text ++ more) = ps ++ [x ++ more] := by
  obtain ⟨ps, piece, hpiece, hsolid⟩ := exists_solid_concat h.text_ne_nil h.getLast_ne
  have hpieces (more : String) (hmore : '/' ∉ more.toList) :
      pathPieces (p.text ++ more) = ps.map String.ofList ++ [String.ofList piece ++ more] := by
    have hlast : (p.text ++ more).toList.getLast? ≠ some '/' := by
      rw [String.toList_append]
      cases hnil : more.toList with
      | nil => simpa using h.getLast_ne
      | cons c cs =>
        rw [List.getLast?_append_of_ne_nil _ (by simp)]
        exact fun hmem => hmore (hnil ▸ List.mem_of_getLast? hmem)
    rw [pathPieces_eq, beq_eq_false_iff_ne.2 hlast, String.toList_append, hsolid _ hmore]
    simp
  obtain ⟨-, qs, hqs, hway⟩ := h
  have hfirst := hpieces "" (by simp)
  rw [String.append_empty, String.append_empty, hqs] at hfirst
  obtain ⟨rfl, hx⟩ := List.append_inj' hfirst rfl
  exact ⟨_, hway, fun more hmore => by rw [hpieces more hmore, List.singleton_inj.1 hx]⟩

/-- A path that goes on behind the name is about another entry of the directory. -/
theorem beside (h : d.Names p loc x) {more : String} (hmore : '/' ∉ more.toList) (hname : IsName (x ++ more)) :
    d.Names ⟨p.text ++ more⟩ loc (x ++ more) := by
  obtain ⟨ps, hway, hpieces⟩ := h.pathPieces_append
  have hstart : startsAtRoot (p.text ++ more) = startsAtRoot p.text := by
    rw [startsAtRoot, startsAtRoot, String.toList_append, List.head?_append_of_ne_nil _ h.text_ne_nil]
  exact ⟨hname, ps, hpieces more hmore, hstart ▸ hway⟩

theorem exists_solid (h : d.Names p loc x) : ∃ ps, solid p.text.toList = ps ++ [x.toList] := by
  obtain ⟨ps, -, hpieces⟩ := h.pathPieces_append
  have hlast := beq_eq_false_iff_ne.2 h.getLast_ne
  have hfirst := hpieces "" (by simp)
  rw [String.append_empty, String.append_empty, pathPieces_eq, hlast] at hfirst
  refine ⟨ps.map String.toList, ?_⟩
  have h := congrArg (List.map String.toList) hfirst
  simpa [List.map_map] using h

theorem isNameless (h : d.Names p loc x) : isNameless p = false := by
  obtain ⟨ps, hsolid⟩ := h.exists_solid
  exact isNameless_of_solid h.name hsolid

theorem endsWithSeparator (h : d.Names p loc x) : endsWithSeparator p = false := by
  simpa [Disk.endsWithSeparator] using h.getLast_ne

theorem fileName? (h : d.Names p loc x) : p.fileName? = some x := by
  obtain ⟨ps, hsolid⟩ := h.exists_solid
  rw [Path.fileName?, components, ← filterMap_solid, hsolid, List.filterMap_append,
    List.filterMap_cons_some (component?_name h.name), List.filterMap_nil, ← List.append_assoc, List.getLast?_concat]

/-- **What a path that ends in a name leads to** is what its directory lists, unless a link is followed. -/
theorem resolve (h : d.Names p loc x) (follow : Bool)
    (hlink : follow = true → refusal? p = none → ∀ t, d.root.get? (loc ++ [x]) ≠ some (.link t)) :
    d.resolve follow p = match refusal? p with
      | some e => .error e
      | none => .ok (match d.root.get? (loc ++ [x]) with
        | none => .free loc x
        | some n => .node (loc ++ [x]) n) := by
  have hname := h.fileName?
  obtain ⟨mode, es, hdir⟩ := h.get?
  obtain ⟨hx, ps, hpieces, _, _, hway⟩ := h
  obtain ⟨links, hgo⟩ := hway.append
  rw [refusal?, hname, Option.getD_some] at hlink ⊢
  rw [resolve_eq, hpieces, hgo follow [x] (by simp), walk_name hdir hx.ne_here hx.ne_up]
  cases htext : textRefusal? p with
  | some e => rfl
  | none =>
    by_cases hlong : x.utf8ByteSize > maxName
    · simp only [if_pos hlong]
    · simp only [htext, if_neg hlong] at hlink ⊢
      rw [get?_concat hdir] at hlink ⊢
      cases hn : Entries.get? x es with
      | none => rfl
      | some n =>
        have hget : d.root.get? (loc ++ [x]) = some n := (get?_concat hdir x).trans hn
        cases n with
        | link t =>
          have hnot : follow = false := Bool.eq_false_iff.2 fun hf => hlink hf trivial t hn
          simp [hnot]
        | file | full | dir => exact walk_stop hget

end Names

/-! ## Files in one directory -/

/-- The disk with something else, or nothing, at a place. -/
def setEntry (d : Disk) (loc : Location) (v : Option Node) : Disk := { d with root := d.root.alter (fun _ => v) loc }

/-- What is read from a file; a device gives nothing. -/
def Node.content : Node → ByteArray
  | .file c _ => c
  | _ => .empty

/-- Files and devices are told apart by their labels. -/
theorem Node.get?_congr {r s : Node} {l : Location} (h : s.at? l = r.at? l)
    (hleaf : ∀ n, r.get? l = some n → n.isLeaf = true) : s.get? l = r.get? l := by
  rw [at?, at?] at h
  cases hr : r.get? l with
  | none => simpa [hr] using h
  | some n =>
    have hn := hleaf n hr
    rw [hr] at h
    obtain ⟨m, hm, hlabel⟩ := Option.map_eq_some_iff.1 h
    rw [hm]
    cases m <;> cases n <;> simp_all [label, isLeaf]

theorem Names.lstat_of_get? (h : d.Names p loc x) (hr : refusal? p = none)
    (hn : d.root.get? (loc ++ [x]) = some n) : d.lstat p = .ok n := by
  rw [lstat, Disk.find, h.resolve false (absurd · Bool.false_ne_true), hr, hn]
  rfl

section Leaf

variable {q : Path} {y : String} (h : d.Names p loc x) (hleaf : refusal? p = none →
  ∀ n, d.root.get? (loc ++ [x]) = some n → n.isLeaf = true)

include h hleaf

theorem Names.find (follow : Bool) : d.find follow p = match refusal? p with
    | some e => .error e
    | none => match d.root.get? (loc ++ [x]) with
      | none => .error .notFound
      | some n => .ok (loc ++ [x], n) := by
  have hlink (hr : refusal? p = none) (t : String) : d.root.get? (loc ++ [x]) ≠ some (.link t) := by
    intro hget
    simpa [isLeaf] using hleaf hr _ hget
  rw [Disk.find, h.resolve follow fun _ => hlink]
  cases refusal? p with
  | some e => rfl
  | none => cases d.root.get? (loc ++ [x]) <;> rfl

theorem Names.read : d.read p = match refusal? p with
    | some e => .error e
    | none => match d.root.get? (loc ++ [x]) with
      | none => .error .notFound
      | some n => .ok n.content := by
  rw [Disk.read, stat, h.find hleaf]
  cases hr : refusal? p with
  | some e => rfl
  | none =>
    cases hn : d.root.get? (loc ++ [x]) with
    | none => rfl
    | some n =>
      have := hleaf hr n hn
      cases n with
      | file | full => rfl
      | link | dir => simp [isLeaf] at this

theorem Names.remove : d.remove p = match refusal? p with
    | some e => .error e
    | none => match d.root.get? (loc ++ [x]) with
      | none => .error .notFound
      | some _ => .ok (d.setEntry (loc ++ [x]) none) := by
  rw [Disk.remove, h.find hleaf]
  cases hr : refusal? p with
  | some e => rfl
  | none =>
    cases hn : d.root.get? (loc ++ [x]) with
    | none => rfl
    | some n =>
      simp only [bind, Except.bind, isDir_of_isLeaf (hleaf hr n hn), Bool.false_eq_true, if_false]
      rfl

theorem Names.openFile : d.openFile false p = match refusal? p with
    | some e => .error e
    | none => .ok (loc ++ [x], match d.root.get? (loc ++ [x]) with
      | none => d.setEntry (loc ++ [x]) (some (.file .empty fileMode))
      | some _ => d) := by
  have hlink (hr : refusal? p = none) (t : String) : d.root.get? (loc ++ [x]) ≠ some (.link t) := by
    intro hget
    simpa [isLeaf] using hleaf hr _ hget
  rw [Disk.openFile, h.resolve true fun _ => hlink]
  cases hr : refusal? p with
  | some e => rfl
  | none =>
    cases hn : d.root.get? (loc ++ [x]) with
    | none => rfl
    | some n =>
      have := hleaf hr n hn
      cases n with
      | file | full => rfl
      | link | dir => simp [isLeaf] at this

/-- A file takes another name of its directory, in place of what had it. -/
theorem Names.rename (hq : d.Names q loc y) (hleaf' : refusal? q = none →
      ∀ n, d.root.get? (loc ++ [y]) = some n → n.isLeaf = true) (hne : x ≠ y) :
    d.rename p q = match refusal? p with
      | some e => .error e
      | none => match d.root.get? (loc ++ [x]) with
        | none => .error .notFound
        | some n => match refusal? q with
          | some e => .error e
          | none => .ok ((d.setEntry (loc ++ [x]) none).setEntry (loc ++ [y]) (some n)) := by
  have hx' : (loc ++ [x]).isPrefixOf (loc ++ [y]) = false := by
    rw [Bool.eq_false_iff, ne_eq, List.isPrefixOf_iff_prefix]
    exact fun h => hne (by simpa using h.eq_of_length (by simp))
  have hy' : (loc ++ [y]).isPrefixOf (loc ++ [x]) = false := by
    rw [Bool.eq_false_iff, ne_eq, List.isPrefixOf_iff_prefix]
    exact fun h => hne (by simpa using (h.eq_of_length (by simp)).symm)
  have hother : (loc ++ [y] == loc ++ [x]) = false := by simpa using Ne.symm hne
  have hup : (loc ++ [x]).isPrefixOf loc = false := by
    rw [Bool.eq_false_iff, ne_eq, List.isPrefixOf_iff_prefix]
    exact fun h => absurd h.length_le (by simp)
  rw [Disk.rename, h.find hleaf, hq.resolve false (absurd · Bool.false_ne_true)]
  cases hr : refusal? p with
  | some e => rfl
  | none =>
    cases hn : d.root.get? (loc ++ [x]) with
    | none => rfl
    | some n =>
      simp only [bind, Except.bind, h.isNameless, hq.isNameless, h.endsWithSeparator, hq.endsWithSeparator,
        Bool.or_self, Bool.and_false, Bool.false_eq_true, if_false, pure, Except.pure]
      cases hr' : refusal? q with
      | some e => rfl
      | none =>
        cases hm : d.root.get? (loc ++ [y]) with
        | none =>
          simp only [hup, Bool.false_eq_true, if_false]
          rfl
        | some m =>
          have hn' := hleaf hr n hn
          have hm' := hleaf' hr' m hm
          have hmay : mayReplace (loc ++ [x], n) (loc ++ [y], m) = .ok () := by
            cases n <;> cases m <;> simp_all [mayReplace, isLeaf]
          simp only [hother, hx', hy', hmay, Bool.false_eq_true, if_false]
          rfl

end Leaf

/-! ## Opening -/

theorem Walks.unfollowed {root : Node} {links : Nat} {here : Location} {ps : List String} {spot : Spot}
    (h : Walks root true links here ps spot) (hs : ∃ loc n, spot = .node loc n) :
    ∃ loc n, Walks root false links here ps (.node loc n) := by
  induction h with
  | stop h => exact ⟨_, _, .stop h⟩
  | stay h _ ih =>
    obtain ⟨loc, n, ih⟩ := ih hs
    exact ⟨loc, n, .stay h ih⟩
  | up h _ ih =>
    obtain ⟨loc, n, ih⟩ := ih hs
    exact ⟨loc, n, .up h ih⟩
  | free => simp at hs
  | link _ _ hf => cases hf
  | @follow links here x t rest spot hx h _ _ ih =>
    by_cases hrest : rest = []
    · subst hrest
      exact ⟨_, _, .link hx h rfl⟩
    · obtain ⟨loc, n, ih⟩ := ih hs
      exact ⟨loc, n, .follow hx h (.inl hrest) ih⟩
  | down hx h hn _ ih =>
    obtain ⟨loc, n, ih⟩ := ih hs
    exact ⟨loc, n, .down hx h hn ih⟩

/-- The start of a text that is not refused is not refused. -/
theorem textRefusal?_of_start {q : Path} (h : textRefusal? p = none) (hq : q.text.toList <+: p.text.toList)
    (hne : q.text ≠ "") : textRefusal? q = none := by
  obtain ⟨hnul, -, hlong⟩ := textRefusal?_eq_none.1 h
  obtain ⟨more, hmore⟩ := hq
  rw [← hmore, List.mem_append, not_or] at hnul
  rw [Text.utf8ByteSize_eq, ← hmore, Text.byteCount_append, ← Text.utf8ByteSize_eq] at hlong
  exact textRefusal?_eq_none.2 ⟨hnul.1, hne, by omega⟩

/-- A path text without the separators at its end. -/
def stripped (cs : List Char) : List Char := (cs.reverse.dropWhile (· == '/')).reverse

theorem stripped_starts (cs : List Char) : stripped cs <+: cs := by
  have h := List.reverse_prefix.2 (List.dropWhile_suffix (· == '/') (l := cs.reverse))
  rwa [List.reverse_reverse] at h

theorem getLast?_stripped (cs : List Char) : (stripped cs).getLast? ≠ some '/' := by
  rw [stripped, List.getLast?_reverse]
  intro h
  have := List.head?_dropWhile_not (· == '/') cs.reverse
  rw [h] at this
  simp at this

theorem solid_stripped (cs : List Char) : solid (stripped cs) = solid cs := by
  have h (rs : List Char) : solid (rs.dropWhile (· == '/')).reverse = solid rs.reverse := by
    induction rs with
    | nil => rfl
    | cons c rs ih =>
      by_cases hc : c = '/'
      · subst hc
        rw [List.dropWhile_cons_of_pos rfl, ih, List.reverse_cons, solid_separator]
        simp [solid, pieces]
      · rw [List.dropWhile_cons_of_neg (by simpa using hc)]
  rw [stripped, h, List.reverse_reverse]

/-- The path that is followed where a directory is to be made: it has no separators at its end. -/
def bare (p : Path) : Path :=
  let q : Path := ⟨String.ofList (stripped p.text.toList)⟩
  if q.text.isEmpty then p else q

theorem stripped_trimmed (cs : List Char) : stripped (trimmed cs) = trimmed cs ∨ stripped (trimmed cs) = [] := by
  rw [trimmed]
  split
  · split
    · exact .inr rfl
    · exact .inl rfl
  · exact .inl rfl
  · have hhead := head?_trimBack cs.reverse
    rw [stripped, List.reverse_reverse]
    cases hback : trimBack cs.reverse with
    | nil => exact .inl rfl
    | cons c back =>
      rw [hback] at hhead
      refine .inl ?_
      rw [List.dropWhile_cons_of_neg (by simpa using hhead)]

/-- Above another path, a path has no separators at its end. -/
theorem bare_parent {parent : Path} (h : p.parent? = some parent) : bare parent = parent := by
  obtain ⟨cs, rfl⟩ : ∃ cs, parent = ⟨String.ofList (trimmed cs)⟩ := by
    rw [parent?] at h
    split at h
    · cases h
    · cases h
    · exact ⟨[], (Option.some.inj h).symm⟩
    · exact ⟨_, (Option.some.inj h).symm⟩
  simp only [bare, String.toList_ofList]
  rcases stripped_trimmed cs with hsame | hnone
  · rw [hsame, ite_self]
  · rw [hnone]
    rfl

theorem makeDir_of_leadsTo (h : d.LeadsTo p loc) : d.makeDir p = .error .alreadyExists := by
  have hway := h.walks_solid
  obtain ⟨mode, es, hp⟩ := h
  obtain ⟨hr, hp⟩ := resolve_eq_ok.1 hp
  let q : Path := ⟨String.ofList (stripped p.text.toList)⟩
  have hfound : ∃ found n, d.resolve false (bare p) = .ok (.node found n) := by
    rw [show bare p = if q.text.isEmpty then p else q from rfl]
    by_cases hempty : q.text.isEmpty
    · rw [if_pos hempty]
      obtain ⟨found, n, hp⟩ := hp.unfollowed ⟨_, _, rfl⟩
      exact ⟨found, n, resolve_eq_ok.2 ⟨hr, hp⟩⟩
    · have hpre : q.text.toList <+: p.text.toList := by simpa [q] using stripped_starts p.text.toList
      have hne : q.text ≠ "" := by simpa using hempty
      have hstart : startsAtRoot q.text = startsAtRoot p.text := by
        obtain ⟨more, hmore⟩ := hpre
        rw [startsAtRoot, startsAtRoot, ← hmore, List.head?_append_of_ne_nil _ (by simpa using hne)]
      have hpieces : pathPieces q.text = (solid p.text.toList).map String.ofList := by
        rw [pathPieces_eq, String.toList_ofList, beq_eq_false_iff_ne.2 (getLast?_stripped _), solid_stripped]
        simp
      obtain ⟨_, _, hway⟩ := hway
      rw [← hpieces, ← hstart] at hway
      obtain ⟨found, n, hway⟩ := hway.unfollowed ⟨_, _, rfl⟩
      rw [if_neg hempty]
      exact ⟨found, n, resolve_eq_ok.2 ⟨textRefusal?_of_start hr hpre hne, hway⟩⟩
  obtain ⟨found, n, hfound⟩ := hfound
  rw [makeDir]
  show (d.resolve false (bare p) >>= _) = _
  rw [hfound]
  rfl

/-- Directories that are there are not made. -/
theorem makeDirs_of_leadsTo (h : d.LeadsTo p loc) : d.makeDirs p = (.ok (), d) := by
  have hchain : ∃ above, chain p.components.length p = p :: above := by
    rw [chain.eq_def]
    split
    · exact ⟨_, rfl⟩
    · split <;> exact ⟨_, rfl⟩
  obtain ⟨above, hchain⟩ := hchain
  have hne : p.text.isEmpty = false := by simpa using h.text_ne_empty
  rw [makeDirs, hchain, makeChain, hne, makeDir_of_leadsTo h, h.isDir]
  rfl

theorem parent_starts {parent : Path} (hparent : p.parent? = some parent) (hne : parent.text ≠ "") :
    parent.text.toList <+: p.text.toList := by
  obtain ⟨-, rfl⟩ := parent?_eq hparent hne
  have h := List.reverse_prefix.2 (List.dropWhile_suffix (· != '/') (l := (trimmed p.text.toList).reverse))
  rw [List.reverse_reverse] at h
  rw [String.toList_ofList]
  exact List.IsPrefix.trans ( trimmed_prefix _) (h.trans ( trimmed_prefix _))

/-- The path of an entry's parent leads to its directory. -/
theorem Names.leadsTo_parent {parent : Path} (h : d.Names p loc x) (hr : textRefusal? p = none)
    (hparent : p.parent? = some parent) (hne : parent.text ≠ "") : d.LeadsTo parent loc := by
  obtain ⟨hx, ps, hpieces, mode, es, hway⟩ := h
  obtain ⟨hstart, m, piece, n, hparts⟩ := pathPieces_parent hparent hne
  have hstart : startsAtRoot parent.text = startsAtRoot p.text := hstart
  have hn : n = 0 := by
    rcases Nat.eq_zero_or_pos n with hn | hn
    · exact hn
    · obtain ⟨n, rfl⟩ := Nat.exists_eq_succ_of_ne_zero hn.ne'
      rw [hpieces, List.replicate_succ', ← List.cons_append, ← List.append_assoc, ← List.append_assoc] at hparts
      exact absurd (List.singleton_inj.1 (List.append_inj_right' hparts rfl)) hx.ne_here
  subst hn
  rw [hpieces, List.replicate_zero, ← List.append_assoc] at hparts
  obtain ⟨rfl, -⟩ := List.append_inj' hparts rfl
  refine ⟨mode, es, resolve_eq_ok.2 ⟨textRefusal?_of_start hr (parent_starts hparent hne) hne, ?_⟩⟩
  rw [hstart]
  clear hparts hpieces
  induction m with
  | zero => simpa using hway
  | succ m ih =>
    rw [List.replicate_succ', ← List.append_assoc] at hway
    exact ih hway.of_concat_here

theorem Walks.entry_of_free {root : Node} {follow : Bool} {links : Nat} {here parent : Location} {ps : List String}
    (h : Walks root follow links here ps (.free parent x)) :
    ∃ mode es, root.get? parent = some (.dir mode es) ∧ Entries.get? x es = none := by
  generalize hs : Spot.free parent x = spot at h
  induction h with
  | free hdir _ hnone =>
    cases hs
    exact ⟨_, _, hdir, hnone⟩
  | stop | link => cases hs
  | stay _ _ ih | up _ _ ih | follow _ _ _ _ ih | down _ _ _ _ ih => exact ih hs

/-- A piece that is not a name leads to a directory. -/
theorem Walks.dir_of_last {root : Node} {follow : Bool} {links : Nat} {here : Location} {ps : List String} {spot : Spot}
    (h : Walks root follow links here (ps ++ [x]) spot) (hx : x = "." ∨ x = "..") :
    ∃ found mode es, spot = .node found (.dir mode es) := by
  obtain ⟨found, mode, es, hfront⟩ := h.front
  obtain ⟨links', hgo⟩ := hfront.append
  have hwalk := walk_eq_ok.2 h
  rw [hgo follow [x] (by simp)] at hwalk
  rcases hx with rfl | rfl
  · rw [walk_stay hfront.get?, walk_stop hfront.get?] at hwalk
    exact ⟨_, _, _, (Except.ok.inj hwalk).symm⟩
  · obtain ⟨_, _, hup⟩ := exists_dir_dropLast hfront.get?
    rw [walk_up hfront.get?, walk_stop hup] at hwalk
    exact ⟨_, _, _, (Except.ok.inj hwalk).symm⟩

theorem isName_of_mem_pathPieces {text : String} (hmem : x ∈ pathPieces text) (h1 : x ≠ ".") (h2 : x ≠ "..") :
    IsName x := by
  have hsolid : x ∈ (solid text.toList).map String.ofList := by
    rcases pathPieces_eq_or text with h | h
    · exact h ▸ hmem
    · rw [h, List.mem_append, List.mem_singleton] at hmem
      exact hmem.resolve_right h1
  obtain ⟨piece, hpiece, rfl⟩ := List.mem_map.1 hsolid
  rw [solid, List.mem_filter] at hpiece
  refine ⟨?_, h1, h2, ?_⟩
  · simpa using hpiece.2
  · simpa using no_separator_of_mem_pieces (by simp) hpiece.1

/-- What can be opened is a file or a device, or a free name. -/
theorem openFile_cases {place : Location} (h : d.openFile false p = .ok (place, e)) :
    (∃ parent name, d.resolve true p = .ok (.free parent name)
        ∧ e = d.setEntry (parent ++ [name]) (some (.file .empty fileMode)))
      ∨ ∃ n, d.resolve true p = .ok (.node place n) ∧ n.isLeaf = true ∧ e = d := by
  rw [Disk.openFile] at h
  cases hres : d.resolve true p with
  | error err =>
    rw [hres] at h
    cases h
  | ok spot =>
    rw [hres] at h
    cases spot with
    | free parent name =>
      cases h
      exact .inl ⟨parent, name, rfl, rfl⟩
    | node found n =>
      cases n with
      | file | full =>
        cases h
        exact .inr ⟨_, rfl, rfl, rfl⟩
      | link | dir => cases h

/-- **The path of a file that has been opened ends in a name.** -/
theorem exists_names_of_openFile {place : Location} (hroot : e.root.isDir = true)
    (h : d.openFile false p = .ok (place, e)) : refusal? p = none ∧ (d.root.SameWays e.root ∧ e.workDir = d.workDir)
      ∧ ∃ loc x, d.Names p loc x := by
  obtain ⟨spot, hres, hnot, hsame⟩ : ∃ spot, d.resolve true p = .ok spot
      ∧ (∀ found n, spot = .node found n → n.isLeaf = true ∧ e = d)
      ∧ d.root.SameWays e.root ∧ e.workDir = d.workDir := by
    rcases openFile_cases h with ⟨parent, name, hres, rfl⟩ | ⟨n, hres, hn, rfl⟩
    · obtain ⟨mode, es, hdir, hnone⟩ := (resolve_eq_ok.1 hres).2.entry_of_free
      refine ⟨_, hres, fun _ _ heq => (by cases heq), sameWays_alter hdir (by simp [hnone]) ?_, rfl⟩
      intro n hn
      cases hn
      rfl
    · exact ⟨_, hres, fun _ _ heq => by cases heq; exact ⟨hn, rfl⟩, .refl _, rfl⟩
  obtain ⟨hr, hway⟩ := resolve_eq_ok.1 hres
  have hname : ∃ loc x, d.Names p loc x := by
    rcases List.eq_nil_or_concat (pathPieces p.text) with hnil | ⟨ps, x, hpieces⟩
    · have habs : p.isAbsolute = true := by
        by_contra hrel
        exact pathPieces_ne_nil (Bool.eq_false_iff.2 hrel) (textRefusal?_eq_none.1 hr).2.1 hnil
      rw [hnil, show startsAtRoot p.text = true from habs, if_pos rfl] at hway
      cases hway with
      | stop hn =>
        obtain ⟨hleaf, rfl⟩ := hnot _ _ rfl
        obtain rfl := Option.some.inj hn
        simp [isDir_of_isLeaf hleaf] at hroot
    · rw [List.concat_eq_append] at hpieces
      rw [hpieces] at hway
      have hx : ¬ (x = "." ∨ x = "..") := by
        intro hx
        obtain ⟨found, mode, es, rfl⟩ := hway.dir_of_last hx
        simpa [isLeaf] using (hnot _ _ rfl).1
      rw [not_or] at hx
      have hlast : x ∈ pathPieces p.text := by simp [hpieces]
      obtain ⟨loc, mode, es, hfront⟩ := hway.front
      exact ⟨loc, x, isName_of_mem_pathPieces hlast hx.1 hx.2, ps, hpieces, mode, es, hfront⟩
  obtain ⟨loc, x, hname⟩ := hname
  refine ⟨?_, hsame, loc, x, hname⟩
  cases hrefusal : refusal? p with
  | none => rfl
  | some err =>
    rw [hname.resolve true fun _ hnone => absurd (hrefusal.symm.trans hnone) (Option.some_ne_none err), hrefusal] at hres
    cases hres

end Disk

end Codemod
