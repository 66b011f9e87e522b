/-
The name that a path ends in, and the paths beside it. What `fileName?` gives stands at the end of the
trimmed text (`trimmed_of_fileName`), and `withFileName` puts another name in its place
(`pathPieces_withFileName`). Both paths are about entries of one directory, unless the first one asks for
a directory by what has been trimmed (`exists_names`).
-/
import Codemod.Proofs.Disk.Names

namespace Codemod

namespace Path

open Disk

variable {p : Path} {x t : String} {cs : List Char}

/-! ## Text -/

theorem trimBack_ne_here (cs rest : List Char) : trimBack cs ≠ '.' :: '/' :: rest := by
  fun_induction trimBack cs
  case case1 ih => exact ih
  case case2 ih => exact ih
  case case3 h => exact fun heq => h rest heq

theorem trimmed_ne_here (cs front : List Char) : trimmed cs ≠ front ++ '/' :: ['.'] := by
  rw [trimmed]
  split
  · split
    · cases front <;> simp
    · simp
  · cases front <;> simp
  · intro h
    refine trimBack_ne_here cs.reverse front.reverse ?_
    simpa using congrArg List.reverse h

theorem component?_eq_name {piece : List Char} (h : component? piece = some (.name x)) :
    piece = x.toList := by
  rw [component?] at h
  split at h
  · cases h
  · split at h
    · cases h
    · rw [← Component.name.inj (Option.some.inj h), String.toList_ofList]

/-- A piece behind the separator of what stands before it. -/
theorem solid_append {front piece : List Char} (hfront : front = [] ∨ ∃ dir, front = dir ++ ['/'])
    (hsep : '/' ∉ piece) (hpiece : piece ≠ []) : solid (front ++ piece) = solid front ++ [piece] := by
  rcases hfront with rfl | ⟨dir, rfl⟩
  · exact solid_piece hsep hpiece
  · rw [List.append_assoc, List.singleton_append, solid_separator, solid_piece hsep hpiece, solid_separator]
    simp [solid, pieces]

/-- The last component is a name if the last piece that counts is one. -/
theorem getLast?_of_fileName (h : p.fileName? = some x) :
    ((solid (trimmed p.text.toList)).filterMap component?).getLast? = some (.name x) := by
  obtain ⟨n, hn⟩ := solid_trimmed p.text.toList
  have hnone : (List.replicate n ['.']).filterMap component? = [] := by
    rw [List.filterMap_eq_nil_iff]
    intro piece hpiece
    rw [List.eq_of_mem_replicate hpiece]
    rfl
  have hlast : p.components.getLast? = some (.name x) := by
    rw [fileName?] at h
    split at h
    · rename_i hlast
      rwa [Option.some.inj h] at hlast
    · cases h
  rw [components, ← filterMap_solid, hn, List.filterMap_append, hnone, List.append_nil] at hlast
  cases hnil : (solid (trimmed p.text.toList)).filterMap component? with
  | nil =>
    rw [hnil, List.append_nil] at hlast
    split at hlast
    · simp at hlast
    · split at hlast <;> simp at hlast
  | cons c rest =>
    rwa [hnil, List.getLast?_append_of_ne_nil _ (List.cons_ne_nil c rest)] at hlast

/-- **Trimmed, a text ends in the name of the file.** -/
theorem trimmed_of_fileName (h : p.fileName? = some x) : IsName x ∧ ∃ front,
    trimmed p.text.toList = front ++ x.toList ∧ (front = [] ∨ ∃ dir, front = dir ++ ['/']) := by
  have hlast := getLast?_of_fileName h
  obtain ⟨front, piece, hcs, hfront, hsep, hpiece, hhere⟩ : ∃ front piece, trimmed p.text.toList = front ++ piece
      ∧ (front = [] ∨ ∃ dir, front = dir ++ ['/']) ∧ '/' ∉ piece ∧ piece ≠ [] ∧ piece ≠ ['.'] := by
    by_cases hmem : '/' ∈ trimmed p.text.toList
    · obtain ⟨n, hn⟩ := solid_trimmed p.text.toList
      have hname : .name x ∈ (pieces p.text.toList []).filterMap component? := by
        rw [← filterMap_solid, hn, List.filterMap_append]
        exact List.mem_append_left _ (List.mem_of_getLast? hlast)
      obtain ⟨dir, piece, hcs, hsep, hpiece⟩ := exists_trimmed hname hmem
      refine ⟨dir ++ ['/'], piece, by simp [hcs], .inr ⟨dir, rfl⟩, hsep, hpiece, ?_⟩
      intro hhere
      exact trimmed_ne_here _ dir (hhere ▸ hcs)
    · refine ⟨[], trimmed p.text.toList, rfl, .inl rfl, hmem, ?_, ?_⟩
      · intro hnil
        rw [hnil] at hlast
        cases hlast
      · intro hhere
        rw [hhere] at hlast
        cases hlast
  have hskip : ¬ (piece = [] ∨ piece = ['.']) := not_or.2 ⟨hpiece, hhere⟩
  obtain ⟨c, hc⟩ : ∃ c, component? piece = some c := by
    rw [component?_of_solid hskip]
    split <;> exact ⟨_, rfl⟩
  rw [hcs, solid_append hfront hsep hpiece, List.filterMap_append, List.filterMap_cons_some hc, List.filterMap_nil,
    List.getLast?_concat] at hlast
  rw [Option.some.inj hlast] at hc
  obtain rfl := component?_eq_name hc
  rcases component?_cases hsep hc with hup | ⟨s, hs, hname⟩
  · cases hup
  · cases hname
    exact ⟨hs, front, hcs, hfront⟩

/-- Another name takes the place of the last one, behind the same directory. -/
theorem pathPieces_withFileName (h : p.fileName? = some x) (ht : IsName t) : ∃ ps m n,
    pathPieces p.text = ps ++ List.replicate m "." ++ x :: List.replicate n "."
    ∧ pathPieces (p.withFileName t).text = ps ++ [t]
    ∧ startsAtRoot (p.withFileName t).text = startsAtRoot p.text := by
  obtain ⟨hx, front, hcs, hfront⟩ := trimmed_of_fileName h
  -- What stands before the name is the parent, trimmed once more.
  have hback : ((front ++ x.toList).reverse.dropWhile (· != '/')).reverse = front := by
    rcases hfront with rfl | ⟨dir, rfl⟩
    · have hall : ∀ c ∈ x.toList.reverse, (c != '/') = true := fun c hc =>
        bne_iff_ne.2 fun heq => hx.no_separator (heq ▸ List.mem_reverse.1 hc)
      rw [List.nil_append, List.dropWhile_eq_nil_iff.2 hall]
      rfl
    · rw [List.append_assoc, List.singleton_append, dropWhile_piece hx.no_separator]
  let parent : Path := ⟨String.ofList (trimmed front)⟩
  have hparent : p.parent? = some parent := by
    rw [fileName?] at h
    split at h
    · rename_i hlast
      rw [← List.head?_reverse] at hlast
      obtain ⟨rest, hrest⟩ := List.head?_eq_some_iff.1 hlast
      rw [parent?, hrest]
      simp only [hcs, hback]
      rfl
    · cases h
  have hjoin : p.withFileName t = parent.join ⟨t⟩ := by
    rw [withFileName, h, hparent]
    rfl
  obtain ⟨m, hm⟩ := solid_trimmed front
  obtain ⟨n, hn⟩ := solid_trimmed p.text.toList
  rw [hcs, solid_append hfront hx.no_separator hx.toList_ne_nil, hm] at hn
  have hbehind : pathPieces (parent.join ⟨t⟩).text = (solid (trimmed front)).map String.ofList ++ [t]
      ∧ startsAtRoot (parent.join ⟨t⟩).text = startsAtRoot p.text := by
    have hstart : startsAtRoot p.text = true ↔ (front ++ x.toList).head? = some '/' := by
      rw [startsAtRoot, beq_iff_eq, ← head?_trimmed_iff, hcs]
    by_cases hnil : front = []
    · -- There is no directory in front of the name.
      obtain ⟨c, cs, hc⟩ := List.exists_cons_of_ne_nil ht.toList_ne_nil
      obtain ⟨c', cs', hc'⟩ := List.exists_cons_of_ne_nil hx.toList_ne_nil
      have hjoin : parent.join ⟨t⟩ = ⟨t⟩ := by
        simp [join, isAbsolute_name ht, parent, hnil, trimmed, trimBack]
      have hfirst : startsAtRoot t = false := isAbsolute_name ht
      have hfirst' : startsAtRoot p.text = false := by
        rw [Bool.eq_false_iff, ne_eq, hstart, hnil, List.nil_append]
        exact fun h => hx.no_separator (List.mem_of_head? h)
      rw [hjoin, hnil, hfirst, hfirst']
      refine ⟨?_, rfl⟩
      rw [pathPieces_eq, solid_piece ht.no_separator ht.toList_ne_nil, if_neg (by simp [ht.getLast_ne])]
      simp [solid, pieces, trimmed, trimBack]
    · have hne : parent.text ≠ "" := by
        have htidy := tidy_ne_empty (p := ⟨String.ofList front⟩) (by simpa using hnil)
        simpa [tidy, parent] using htidy
      refine ⟨by simpa [parent] using pathPieces_join_name hne ht, ?_⟩
      rw [startsAtRoot_join hne (isAbsolute_name ht), Bool.eq_iff_iff, hstart, List.head?_append_of_ne_nil _ hnil,
        startsAtRoot, beq_iff_eq, String.toList_ofList, head?_trimmed_iff]
  refine ⟨(solid (trimmed front)).map String.ofList, m, ?_⟩
  rw [hjoin, pathPieces_eq, hn]
  refine ⟨if p.text.toList.getLast? = some '/' then n + 1 else n, ?_, hbehind⟩
  split <;> simp_all [List.replicate_succ']

/-- A path that asks for a directory by a `.` cannot be given to a file. -/
theorem nameless_of_pathPieces {qs : List String} (h : pathPieces p.text = qs ++ ["."]) :
    isNameless p = true ∨ endsWithSeparator p = true := by
  rw [or_iff_not_imp_right, Bool.not_eq_true]
  intro hsep
  rw [endsWithSeparator] at hsep
  rw [pathPieces_eq, hsep] at h
  simp only [Bool.false_and, Bool.false_eq_true, if_false, List.append_nil] at h
  have hsolid : solid p.text.toList = qs.map String.toList ++ [['.']] := by
    simpa [List.map_map] using congrArg (List.map String.toList) h
  have hlast : ((pieces p.text.toList []).filter (!·.isEmpty)).getLast? = some ['.'] := by
    rw [← solid, hsolid]
    simp
  rw [isNameless, hlast]
  rfl

end Path

namespace Disk

open Codemod.Path

variable {d : Disk} {follow : Bool} {p : Path} {l : Location} {x t : String} {n : Node}

/-- Any number of `.` at the end lead no further. -/
theorem Walks.of_append_here {root : Node} {links : Nat} {here : Location} {ps : List String} {spot : Spot} {m : Nat}
    (h : Walks root true links here (ps ++ List.replicate m ".") spot) : Walks root true links here ps spot := by
  induction m with
  | zero => simpa using h
  | succ m ih =>
    rw [List.replicate_succ', ← List.append_assoc] at h
    exact ih h.of_concat_here

/-- **A path that leads somewhere and the path with another name** are about entries of one directory; but
one that has more than the name at its end asks for a directory. -/
theorem exists_names (hname : p.fileName? = some x) (ht : IsName t) (hfind : d.find follow p = .ok (l, n)) :
    ∃ loc, d.Names (p.withFileName t) loc t
      ∧ (d.Names p loc x ∨ n.isDir = true ∧ (isNameless p = true ∨ endsWithSeparator p = true)) := by
  obtain ⟨hx, -⟩ := trimmed_of_fileName hname
  obtain ⟨ps, i, j, hpieces, hbeside, hstart⟩ := pathPieces_withFileName hname ht
  have hway := (resolve_eq_ok.1 (find_eq_ok.1 hfind)).2
  obtain ⟨loc, mode, es, hfront⟩ := (hpieces ▸ hway).front
  refine ⟨loc, ⟨ht, ps, hbeside, mode, es, hstart ▸ hfront.of_append_here⟩, ?_⟩
  cases j with
  | zero => exact .inl ⟨hx, _, hpieces, mode, es, hfront⟩
  | succ j =>
    rw [List.replicate_succ', ← List.cons_append, ← List.append_assoc] at hpieces
    exact .inr ⟨(hpieces ▸ hway).isDir_of_here, nameless_of_pathPieces hpieces⟩

end Disk

end Codemod
