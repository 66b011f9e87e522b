/-
Paths that spell a location. Where every part of a location is a name (`IsName`), the path that is
made of it (`pathOf`) is read back as that location, whether it is followed or taken apart as a text;
the functions on paths are then functions on lists of names.
-/
import Mathlib.Data.List.Basic
import Codemod.Disk.Basic
import Codemod.Proofs.Text.Bytes

namespace Codemod

/-- What an entry of a directory may be called. -/
structure IsName (s : String) : Prop where
  ne_empty : s ≠ ""
  ne_here : s ≠ "."
  ne_up : s ≠ ".."
  no_separator : '/' ∉ s.toList

namespace IsName

variable {s : String}

theorem toList_ne_nil (h : IsName s) : s.toList ≠ [] := by
  simpa using h.ne_empty

theorem toList_ne_here (h : IsName s) : s.toList ≠ ['.'] := fun hs =>
  h.ne_here (String.toList_inj.1 (by simpa using hs))

theorem toList_ne_up (h : IsName s) : s.toList ≠ ['.', '.'] := fun hs =>
  h.ne_up (String.toList_inj.1 (by simpa using hs))

theorem getLast_ne (h : IsName s) : s.toList.getLast? ≠ some '/' := fun hs =>
  h.no_separator (List.mem_of_getLast? hs)

theorem concat {l : Disk.Location} (h : IsName s) (hl : ∀ t ∈ l, IsName t) : ∀ t ∈ l ++ [s], IsName t :=
  List.forall_mem_append.2 ⟨hl, List.forall_mem_singleton.2 h⟩

end IsName

namespace Path

open Disk

variable {l m : Location} {s : String}

/-! ## Text -/

theorem pathOf_toList (hl : l ≠ []) :
    (pathOf l).text.toList = l.flatMap fun s => '/' :: s.toList := by
  simp only [pathOf, String.toList_append, String.toList_intercalate]
  induction l with
  | nil => exact absurd rfl hl
  | cons s l ih =>
    cases l with
    | nil => simp
    | cons t l => simpa using ih (by simp)

/-- Each name takes the bytes it has, and one for the separator before it. -/
theorem utf8ByteSize_pathOf (hl : l ≠ []) :
    (pathOf l).text.utf8ByteSize = (l.map fun s => s.utf8ByteSize + 1).sum := by
  rw [Text.utf8ByteSize_eq, pathOf_toList hl]
  clear hl
  induction l with
  | nil => rfl
  | cons s l ih =>
    rw [List.flatMap_cons, Text.byteCount_append, ih, List.map_cons, List.sum_cons, Text.byteCount_cons,
      Text.utf8ByteSize_eq, show '/'.utf8Size = 1 from rfl, Nat.add_comm 1]

@[simp] theorem pathOf_nil : pathOf [] = ⟨"/"⟩ := rfl

theorem head?_pathOf : (pathOf l).text.toList.head? = some '/' := by
  simp [pathOf]

theorem isAbsolute_pathOf : (pathOf l).isAbsolute = true := by
  simp [isAbsolute, head?_pathOf]

theorem pathOf_ne_empty : (pathOf l).text ≠ "" := by
  simp [pathOf]

/-- The last part of the text is the last name. -/
theorem pathOf_concat_toList (l : Location) (s : String) :
    ∃ front, (pathOf (l ++ [s])).text.toList = front ++ '/' :: s.toList := by
  refine ⟨l.flatMap fun s => '/' :: s.toList, ?_⟩
  rw [pathOf_toList (by simp)]
  simp

theorem getLast?_pathOf_concat (hs : IsName s) :
    (pathOf (l ++ [s])).text.toList.getLast? ≠ some '/' := by
  obtain ⟨front, hf⟩ := pathOf_concat_toList l s
  rw [hf, List.getLast?_append_of_ne_nil _ (by simp),
    List.getLast?_cons_of_ne_nil hs.toList_ne_nil]
  exact hs.getLast_ne

/-! ## Pieces -/

/-- Up to a separator, characters are gathered. -/
theorem pieces_append {cs rest piece : List Char} (hcs : '/' ∉ cs) :
    pieces (cs ++ rest) piece = pieces rest (cs.reverse ++ piece) := by
  induction cs generalizing piece with
  | nil => rfl
  | cons c cs ih =>
    simp only [List.mem_cons, not_or] at hcs
    have hc : (c == '/') = false := by simpa using Ne.symm hcs.1
    rw [List.cons_append, pieces, hc, if_neg Bool.false_ne_true, ih hcs.2]
    simp

theorem pieces_flatMap (hl : ∀ s ∈ l, IsName s) (piece : List Char) :
    pieces (l.flatMap fun s => '/' :: s.toList) piece = piece.reverse :: l.map String.toList := by
  induction l generalizing piece with
  | nil => simp [pieces]
  | cons s l ih =>
    simp only [List.forall_mem_cons] at hl
    rw [List.flatMap_cons, List.cons_append, pieces, if_pos (beq_self_eq_true '/'),
      pieces_append hl.1.no_separator, ih hl.2]
    simp

/-- A piece has no separator. -/
theorem no_separator_of_mem_pieces {cs piece p : List Char} (hpiece : '/' ∉ piece)
    (hp : p ∈ pieces cs piece) : '/' ∉ p := by
  induction cs generalizing piece with
  | nil =>
    obtain rfl : p = piece.reverse := by simpa [pieces] using hp
    simpa using hpiece
  | cons c cs ih =>
    rw [pieces] at hp
    split at hp
    · obtain rfl | hp := List.mem_cons.1 hp
      · simpa using hpiece
      · exact ih (by simp) hp
    · rename_i hc
      refine ih ?_ hp
      simp only [List.mem_cons, not_or]
      exact ⟨fun h => hc (by simp [← h]), hpiece⟩

theorem pieces_separator (cs ds piece : List Char) :
    pieces (cs ++ '/' :: ds) piece = pieces cs piece ++ pieces ds [] := by
  induction cs generalizing piece with
  | nil => simp [pieces]
  | cons c cs ih =>
    rw [List.cons_append, pieces, pieces, ih, ih]
    split <;> rfl

/-- The pieces of a text that are not empty. -/
def solid (cs : List Char) : List (List Char) := (pieces cs []).filter (!·.isEmpty)

theorem solid_separator (cs ds : List Char) : solid (cs ++ '/' :: ds) = solid cs ++ solid ds := by
  rw [solid, pieces_separator, List.filter_append]
  rfl

theorem solid_piece {cs : List Char} (hcs : '/' ∉ cs) (hne : cs ≠ []) : solid cs = [cs] := by
  have h : pieces (cs ++ []) [] = pieces [] (cs.reverse ++ []) := pieces_append hcs
  simp only [List.append_nil] at h
  rw [solid, h, pieces, List.reverse_reverse, List.filter_cons_of_pos (by simpa using hne)]
  rfl

theorem isNameless_of_solid {p : Path} {ps : List (List Char)} (hs : IsName s)
    (h : solid p.text.toList = ps ++ [s.toList]) : isNameless p = false := by
  have hlast : ((pieces p.text.toList []).filter (!·.isEmpty)).getLast? = some s.toList := by
    rw [← solid, h, List.getLast?_concat]
  rw [isNameless, hlast]
  simp [hs.toList_ne_here, hs.toList_ne_up]

theorem solid_pathOf (hl : ∀ s ∈ l, IsName s) :
    solid (pathOf l).text.toList = l.map String.toList := by
  rcases eq_or_ne l [] with rfl | hne
  · rfl
  · rw [pathOf_toList hne, solid, pieces_flatMap hl, List.reverse_nil,
      List.filter_cons_of_neg (by simp), List.filter_eq_self]
    simp only [List.mem_map, forall_exists_index, and_imp, forall_apply_eq_imp_iff₂]
    intro s hs
    simpa using (hl s hs).ne_empty

theorem pathPieces_eq (text : String) : pathPieces text = (solid text.toList ++
    if text.toList.getLast? == some '/' && !(solid text.toList).isEmpty then [['.']] else []).map
      String.ofList := by
  change List.map String.ofList
    (if text.toList.getLast? == some '/' && !(solid text.toList).isEmpty
      then solid text.toList ++ [['.']] else solid text.toList) = _
  split <;> simp

theorem pathPieces_eq_or (text : String) : pathPieces text = (solid text.toList).map String.ofList
    ∨ pathPieces text = (solid text.toList).map String.ofList ++ ["."] := by
  rw [pathPieces_eq]
  split
  · exact .inr (List.map_append ..)
  · exact .inl (by rw [List.append_nil])

theorem map_ofList_toList (l : Location) : (l.map String.toList).map String.ofList = l := by
  rw [List.map_map]
  exact (List.map_congr_left fun s _ => String.ofList_toList).trans (List.map_id _)

/-- Followed, the path of a location takes its names one by one. -/
theorem pathPieces_pathOf (hl : ∀ s ∈ l, IsName s) : pathPieces (pathOf l).text = l := by
  rw [pathPieces_eq, solid_pathOf hl]
  rcases List.eq_nil_or_concat l with rfl | ⟨front, s, rfl⟩
  · rfl
  · have hlast := getLast?_pathOf_concat (l := front) (hl s (by simp))
    rw [List.concat_eq_append, if_neg (by simp [hlast]), List.append_nil, map_ofList_toList]

theorem startsAtRoot_pathOf : startsAtRoot (pathOf l).text = true := by
  simp [startsAtRoot, head?_pathOf]

/-! ## Components -/

theorem component?_name (hs : IsName s) : component? s.toList = some (.name s) := by
  simp [component?, hs.toList_ne_here, hs.toList_ne_up, hs.ne_empty]

theorem components_pathOf (hl : ∀ s ∈ l, IsName s) :
    (pathOf l).components = .root :: l.map .name := by
  rw [components, isAbsolute_pathOf]
  rcases eq_or_ne l [] with rfl | hne
  · simp [pieces, component?]
  · have hnames : l.filterMap (component? ∘ String.toList) = l.map Component.name :=
      (List.filterMap_congr fun s hs => component?_name (hl s hs)).trans
        (congrFun List.filterMap_eq_map l)
    simp only [if_true, pathOf_toList hne, pieces_flatMap hl, List.reverse_nil,
      List.filterMap_cons_none (show component? [] = none from rfl), List.filterMap_map, hnames]
    rfl

theorem pathOf_injective (hl : ∀ s ∈ l, IsName s) (hm : ∀ s ∈ m, IsName s)
    (h : pathOf l = pathOf m) : l = m := by
  rw [← pathPieces_pathOf hl, h, pathPieces_pathOf hm]

theorem fileName?_pathOf (hl : ∀ s ∈ l, IsName s) (hs : IsName s) :
    (pathOf (l ++ [s])).fileName? = some s := by
  have hall : ∀ t ∈ l ++ [s], IsName t := hs.concat hl
  have hlast : (pathOf (l ++ [s])).components.getLast? = some (.name s) := by
    rw [components_pathOf hall, List.map_append, List.map_singleton, ← List.cons_append,
      List.getLast?_concat]
  rw [fileName?, hlast]

theorem isAbsolute_name (hs : IsName s) : (⟨s⟩ : Path).isAbsolute = false := by
  simp only [isAbsolute, beq_eq_false_iff_ne, ne_eq]
  exact fun h => hs.no_separator (List.mem_of_head? h)

/-- A path with the name of an entry behind it. -/
theorem join_name (hl : ∀ s ∈ l, IsName s) (hs : IsName s) :
    (pathOf l).join ⟨s⟩ = pathOf (l ++ [s]) := by
  have habs := isAbsolute_name hs
  rcases List.eq_nil_or_concat l with rfl | ⟨front, t, rfl⟩
  · simp [join, habs, pathOf]
  · have ht := getLast?_pathOf_concat (l := front) (hl t (by simp))
    have hempty : (pathOf (front ++ [t])).text.isEmpty = false := by
      simpa using pathOf_ne_empty (l := front ++ [t])
    simp only [join, habs, List.concat_eq_append, hempty, Bool.false_or, beq_iff_eq, ht,
      Bool.false_eq_true, if_false]
    simp only [pathOf, Path.mk.injEq]
    rw [String.intercalate_append_of_ne_nil (l := front ++ [t]) (m := [s]) (by simp) (by simp)]
    simp [String.append_assoc]

/-! ## Taking a path apart -/

theorem trimBack_name (hs : IsName s) (rest : List Char) :
    trimBack (s.toList.reverse ++ rest) = s.toList.reverse ++ rest := by
  have hne := hs.toList_ne_nil
  have hhere := hs.toList_ne_here
  have hsep : '/' ∉ s.toList.reverse := by simpa using hs.no_separator
  match hcs : s.toList.reverse with
  | [] => exact absurd (by simpa using hcs) hne
  | [c] =>
    have hc : s.toList = [c] := by simpa using hcs
    have h1 : c ≠ '/' := by
      rintro rfl
      exact hsep (by simp [hcs])
    have h2 : c ≠ '.' := fun h => hhere (by rw [hc, h])
    rw [List.cons_append, trimBack]
    · exact fun _ h => h1 (List.cons_eq_cons.1 h).1
    · exact fun _ h => h2 (List.cons_eq_cons.1 h).1
  | c :: d :: cs =>
    simp only [hcs, List.mem_cons, not_or] at hsep
    rw [List.cons_append, trimBack]
    · exact fun _ h => hsep.1 (List.cons_eq_cons.1 h).1.symm
    · exact fun _ h => hsep.2.1 (List.cons_eq_cons.1 (List.cons_eq_cons.1 h).2).1.symm

theorem trimBody_name (hs : IsName s) (rest : List Char) :
    trimBody (s.toList ++ rest) = s.toList ++ rest := by
  have hne := hs.toList_ne_nil
  have hhere := hs.toList_ne_here
  have hsep := hs.no_separator
  match hcs : s.toList with
  | [] => exact absurd hcs hne
  | [c] =>
    have h1 : c ≠ '/' := by
      rintro rfl
      exact hsep (by simp [hcs])
    have h2 : c ≠ '.' := fun h => hhere (by rw [hcs, h])
    rw [List.cons_append, trimBody]
    · exact fun _ h => h1 (List.cons_eq_cons.1 h).1
    · exact fun _ h => h2 (List.cons_eq_cons.1 h).1
    · exact fun h => h2 (List.cons_eq_cons.1 h).1
  | c :: d :: cs =>
    simp only [hcs, List.mem_cons, not_or] at hsep
    rw [List.cons_append, trimBody]
    · exact fun _ h => hsep.1 (List.cons_eq_cons.1 h).1.symm
    · exact fun _ h => hsep.2.1 (List.cons_eq_cons.1 (List.cons_eq_cons.1 h).2).1.symm
    · simp

/-- Nothing is trimmed behind a name. -/
theorem trimmed_of_trimBack {cs front : List Char} (hs : IsName s)
    (h : trimBack cs.reverse = s.toList.reverse ++ front.reverse) :
    trimmed cs = front ++ s.toList := by
  rw [trimmed, h]
  split
  · rename_i h
    exact absurd (by simpa using (List.append_eq_nil_iff.1 h).1) hs.ne_empty
  · rename_i h
    rcases List.append_eq_singleton_iff.1 h with ⟨h, -⟩ | ⟨h, -⟩
    · exact absurd (by simpa using h) hs.ne_empty
    · exact absurd (by simpa using h) hs.toList_ne_here
  · simp

theorem trimmed_name (hs : IsName s) (front : List Char) :
    trimmed (front ++ s.toList) = front ++ s.toList :=
  trimmed_of_trimBack hs (by rw [List.reverse_append, trimBack_name hs])

/-! ## Below a location -/

theorem pathOf_toList_cons (l : Location) :
    (pathOf l).text.toList = '/' :: ("/".intercalate l).toList := by
  simp [pathOf]

theorem intercalate_toList_cons (s : String) (l : Location) :
    ("/".intercalate (s :: l)).toList = s.toList ++ l.flatMap fun s => '/' :: s.toList := by
  have h := pathOf_toList_cons (s :: l)
  rw [pathOf_toList (by simp), List.flatMap_cons, List.cons_append] at h
  exact (List.cons_eq_cons.1 h).2.symm

theorem trimmedBody_intercalate (hl : ∀ s ∈ l, IsName s) :
    trimmedBody ("/".intercalate l).toList = ("/".intercalate l).toList := by
  cases l with
  | nil => rfl
  | cons s rest =>
    have hs := hl s (by simp)
    have htrim : trimmed ("/".intercalate (s :: rest)).toList
        = ("/".intercalate (s :: rest)).toList := by
      obtain ⟨front, t, hft⟩ := (List.eq_nil_or_concat (s :: rest)).resolve_left (by simp)
      obtain ⟨cs, hcs⟩ := pathOf_concat_toList front t
      have ht : IsName t := hl t (by simp [hft])
      rw [← List.concat_eq_append, ← hft, pathOf_toList_cons] at hcs
      cases cs with
      | nil =>
        rw [(List.cons_eq_cons.1 hcs).2]
        simpa using trimmed_name ht []
      | cons c cs =>
        rw [(List.cons_eq_cons.1 hcs).2]
        simpa [List.append_assoc] using trimmed_name ht (cs ++ ['/'])
    have hne : ("/".intercalate (s :: rest)).toList ≠ ['.'] := by
      rw [intercalate_toList_cons]
      intro h
      rcases List.append_eq_singleton_iff.1 h with ⟨h, -⟩ | ⟨h, -⟩
      · exact hs.toList_ne_nil h
      · exact hs.toList_ne_here h
    rw [trimmedBody, intercalate_toList_cons, trimBody_name hs, ← intercalate_toList_cons, htrim]
    exact if_neg (by simpa using hne)

/-- Dropping the components of a location's path leaves what stands behind it. -/
theorem dropComponents_names (hl : ∀ s ∈ l, IsName s) {rest : List Char}
    (hrest : rest = [] ∨ rest.head? = some '/') :
    dropComponents l.length false ((l.flatMap fun s => '/' :: s.toList) ++ rest) = rest := by
  induction l with
  | nil => rfl
  | cons s l ih =>
    simp only [List.forall_mem_cons] at hl
    have hdrop : (s.toList ++ (l.flatMap (fun s => '/' :: s.toList) ++ rest)).dropWhile (· != '/')
        = l.flatMap (fun s => '/' :: s.toList) ++ rest := by
      rw [List.dropWhile_append_of_pos]
      · cases l with
        | nil =>
          cases rest with
          | nil => rfl
          | cons c rest =>
            obtain rfl : c = '/' := by simpa using hrest
            rfl
        | cons t l => simp
      · intro c hc
        simp only [bne_iff_ne, ne_eq]
        rintro rfl
        exact hl.1.no_separator hc
    rw [List.flatMap_cons, List.cons_append, List.cons_append, List.append_assoc,
      List.length_cons, dropComponents, Bool.false_and, if_neg Bool.false_ne_true, trimBody,
      trimBody_name hl.1, hdrop, ih hl.2]

theorem below?_pathOf (hl : ∀ s ∈ l, IsName s) (hm : ∀ s ∈ m, IsName s) :
    (pathOf (l ++ m)).below? (pathOf l) = some ⟨"/".intercalate m⟩ := by
  have hall : ∀ s ∈ l ++ m, IsName s := by
    intro s hs
    exact (List.mem_append.1 hs).elim (hl s) (hm s)
  have hprefix : (Component.root :: l.map .name).isPrefixOf
      (Component.root :: (l ++ m).map .name) = true := by
    rw [List.isPrefixOf_iff_prefix, List.map_append]
    exact ⟨m.map .name, rfl⟩
  have hdrop : trimmedBody (dropComponents (l.length + 1) true (pathOf (l ++ m)).text.toList)
      = ("/".intercalate m).toList := by
    rw [dropComponents, head?_pathOf, beq_self_eq_true, Bool.true_or, Bool.true_and,
      if_pos rfl, pathOf_toList_cons, List.drop_succ_cons, List.drop_zero]
    cases l with
    | nil => exact trimmedBody_intercalate hm
    | cons s l =>
      have hskip (cs : List Char) : dropComponents (s :: l).length false cs
          = dropComponents (s :: l).length false ('/' :: cs) := by
        simp [dropComponents, trimBody]
      have hrest : (m.flatMap fun s => '/' :: s.toList) = []
          ∨ (m.flatMap fun s => '/' :: s.toList).head? = some '/' := by
        cases m <;> simp
      rw [hskip, ← pathOf_toList_cons, pathOf_toList (by simp), List.flatMap_append,
        dropComponents_names hl hrest]
      cases m with
      | nil => rfl
      | cons t m =>
        rw [List.flatMap_cons, List.cons_append, ← intercalate_toList_cons]
        exact trimmedBody_intercalate hm
  simp only [below?, components_pathOf hl, components_pathOf hall, hprefix, if_true,
    List.isEmpty_cons, Bool.false_eq_true, if_false, List.length_cons, List.length_map, hdrop,
    String.ofList_toList]

end Path

end Codemod
