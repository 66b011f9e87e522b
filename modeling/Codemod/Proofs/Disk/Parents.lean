/-
The parent of a path. It is found in the text, from the end, and trimmed of separators and `.`
(`trimmed`); to follow it is to follow the path but for the last piece (`pathPieces_parent`). Where a
name is joined to a path, that path is the parent, but for what is trimmed (`parent?_join_name`).
-/
import Mathlib.Data.List.TakeWhile
import Codemod.Proofs.Disk.Joined

namespace Codemod.Path

open Disk

/-- What is trimmed from the end of a text is `.` and separators. -/
theorem solid_trimBack (cs : List Char) :
    ∃ n, solid cs.reverse = solid (trimBack cs).reverse ++ List.replicate n ['.'] := by
  fun_induction trimBack cs
  case case1 rest ih =>
    obtain ⟨n, ih⟩ := ih
    refine ⟨n, ?_⟩
    rw [List.reverse_cons, solid_separator, ih]
    simp [solid, pieces]
  case case2 rest ih =>
    obtain ⟨n, ih⟩ := ih
    refine ⟨n + 1, ?_⟩
    rw [List.reverse_cons, List.reverse_cons, List.append_assoc, List.singleton_append,
      solid_separator, ih, List.append_assoc, List.replicate_succ']
    rfl
  case case3 => exact ⟨0, by simp⟩

theorem head?_trimBack (cs : List Char) : (trimBack cs).head? ≠ some '/' := by
  fun_induction trimBack cs
  case case1 ih => exact ih
  case case2 ih => exact ih
  case case3 cs h1 h2 =>
    cases cs with
    | nil => simp
    | cons c cs => exact fun h => h1 cs (by simpa using h)

/-- Trimming takes separators and `.` away. -/
theorem solid_trimmed (cs : List Char) :
    ∃ n, solid cs = solid (trimmed cs) ++ List.replicate n ['.'] := by
  obtain ⟨n, hn⟩ := solid_trimBack cs.reverse
  rw [List.reverse_reverse] at hn
  refine ⟨n, ?_⟩
  rw [hn, trimmed]
  split
  · rename_i h
    rw [h]
    split <;> rfl
  · rename_i h
    rw [h]
    rfl
  · rfl

theorem trimBack_suffix (cs : List Char) : trimBack cs <:+ cs := by
  fun_induction trimBack cs
  case case1 ih => exact ih.trans (List.suffix_cons _ _)
  case case2 ih => exact ih.trans ((List.suffix_cons _ _).trans (List.suffix_cons _ _))
  case case3 => exact List.suffix_refl _

theorem pathPieces_trimmed (cs : List Char) :
    pathPieces (String.ofList (trimmed cs)) = (solid (trimmed cs)).map String.ofList := by
  rw [pathPieces_eq, String.toList_ofList]
  have h : ((trimmed cs).getLast? == some '/' && !(solid (trimmed cs)).isEmpty) = false := by
    rw [trimmed]
    split
    · split <;> rfl
    · rfl
    · have hlast := head?_trimBack cs.reverse
      rw [List.getLast?_reverse]
      simp [hlast]
  rw [h]
  simp

theorem getLast?_trimBack {cs : List Char} (h : cs.getLast? = some '/') (hne : trimBack cs ≠ []) :
    (trimBack cs).getLast? = some '/' := by
  obtain ⟨front, hfront⟩ := trimBack_suffix cs
  exact (List.getLast?_append_of_ne_nil front hne).symm.trans ((congrArg _ hfront).trans h)

theorem head?_trimmed {cs : List Char} (h : cs.head? = some '/') :
    (trimmed cs).head? = some '/' := by
  have hlast : trimBack cs.reverse ≠ [] → (trimBack cs.reverse).getLast? = some '/' :=
    getLast?_trimBack (by simpa using h)
  rw [trimmed]
  split
  · rw [h, if_pos (beq_self_eq_true _)]
    rfl
  · rename_i hback
    rw [hback] at hlast
    simp at hlast
  · rename_i hne _
    simpa using hlast hne

/-- A text that starts at the root goes on to do so, and no other begins to. -/
theorem head?_trimmed_iff {cs : List Char} :
    (trimmed cs).head? = some '/' ↔ cs.head? = some '/' := by
  refine ⟨fun h => ?_, head?_trimmed⟩
  obtain ⟨front, hfront⟩ := trimBack_suffix cs.reverse
  rw [trimmed] at h
  split at h
  · split at h
    · rename_i hcs
      exact beq_iff_eq.1 hcs
    · cases h
  · cases h
  · rename_i hne _
    rw [List.head?_reverse] at h
    rw [← List.getLast?_reverse, ← hfront, List.getLast?_append_of_ne_nil front hne, h]

/-- A path with more components than the first has more than `.` in its text. -/
theorem solid_ne_of_component {cs : List Char} {c : Component}
    (h : c ∈ (pieces cs []).filterMap component?) (n : Nat) : solid cs ≠ List.replicate n ['.'] := by
  intro hs
  have hnone : (List.replicate n ['.']).filterMap component? = [] := by
    rw [List.filterMap_eq_nil_iff]
    intro piece hpiece
    rw [List.eq_of_mem_replicate hpiece]
    rfl
  rw [← filterMap_solid, hs, hnone] at h
  cases h

/-- Unless it has no text, a parent is what stands before the last separator, trimmed. -/
theorem parent?_eq {p parent : Path} (h : p.parent? = some parent) (hne : parent.text ≠ "") :
    (∃ c, c ∈ (pieces p.text.toList []).filterMap component?) ∧ parent = ⟨String.ofList (trimmed
      ((trimmed p.text.toList).reverse.dropWhile (· != '/')).reverse)⟩ := by
  rw [parent?] at h
  split at h
  · cases h
  · cases h
  · exact absurd (congrArg Path.text (Option.some.inj h)).symm hne
  · rename_i c rest hroot hhere hback
    refine ⟨⟨c, ?_⟩, (Option.some.inj h).symm⟩
    have hmem : c ∈ p.components := List.mem_reverse.1 (by rw [hback]; simp)
    rw [components, List.mem_append] at hmem
    refine hmem.resolve_left fun hfirst => ?_
    split at hfirst
    · exact hroot (List.mem_singleton.1 hfirst)
    · split at hfirst
      · exact hhere (List.mem_singleton.1 hfirst)
      · cases hfirst

/-- A trimmed text with more than a first component ends in a piece, behind a separator if there is one. -/
theorem exists_trimmed {cs : List Char} {c : Component} (h : c ∈ (pieces cs []).filterMap component?)
    (hmem : '/' ∈ trimmed cs) : ∃ front piece,
      trimmed cs = front ++ '/' :: piece ∧ '/' ∉ piece ∧ piece ≠ [] := by
  obtain ⟨n, hn⟩ := solid_trimBack cs.reverse
  rw [List.reverse_reverse] at hn
  have hfirst := head?_trimBack cs.reverse
  rw [trimmed] at hmem ⊢
  split
  · rename_i hback
    rw [hback] at hn
    exact absurd hn (solid_ne_of_component h n)
  · rename_i hback
    rw [hback] at hn
    exact absurd hn (solid_ne_of_component h (n + 1))
  · rename_i h1 h2
    split at hmem
    · exact absurd ‹_› h1
    · exact absurd ‹_› h2
    obtain ⟨piece, front, hback, hsep⟩ := List.eq_append_cons_of_mem (List.mem_reverse.1 hmem)
    refine ⟨front.reverse, piece.reverse, by rw [hback]; simp, by simpa using hsep, ?_⟩
    intro hnil
    rw [hback, List.reverse_eq_nil_iff.1 hnil] at hfirst
    exact hfirst rfl

/-- What stands before the last separator, and that separator. -/
theorem dropWhile_piece {front piece : List Char} (hsep : '/' ∉ piece) :
    ((front ++ '/' :: piece).reverse.dropWhile (· != '/')).reverse = front ++ ['/'] := by
  rw [List.reverse_append, List.reverse_cons, List.append_assoc, List.dropWhile_append_of_pos]
  · simp
  · intro c hc
    simp only [bne_iff_ne, ne_eq]
    rintro rfl
    exact hsep (by simpa using hc)

/-- **To follow a path is to follow its parent**, but for `.`, and one more piece. -/
theorem pathPieces_parent {p parent : Path} (h : p.parent? = some parent) (hne : parent.text ≠ "") :
    parent.isAbsolute = p.isAbsolute ∧ ∃ m piece n, pathPieces p.text = pathPieces parent.text
        ++ (List.replicate m "." ++ piece :: List.replicate n ".") := by
  obtain ⟨⟨c, hc⟩, rfl⟩ := parent?_eq h hne
  have hmem : '/' ∈ trimmed p.text.toList := by
    by_contra hmem
    have hall : ∀ c ∈ (trimmed p.text.toList).reverse, (c != '/') = true := fun c hc =>
      bne_iff_ne.2 fun heq => hmem (heq ▸ List.mem_reverse.1 hc)
    rw [List.dropWhile_eq_nil_iff.2 hall] at hne
    exact hne rfl
  obtain ⟨front, piece, hcs, hsep, hpiece⟩ := exists_trimmed hc hmem
  have hhead : (front ++ ['/']).head? = (front ++ '/' :: piece).head? := by cases front <;> rfl
  obtain ⟨n, hn⟩ := solid_trimmed p.text.toList
  obtain ⟨m, hm⟩ := solid_trimmed (front ++ ['/'])
  rw [solid_separator, show solid [] = [] from rfl, List.append_nil] at hm
  rw [hcs, solid_separator, solid_piece hsep hpiece, hm] at hn
  rw [hcs, dropWhile_piece hsep]
  refine ⟨?_, m, String.ofList piece, ?_⟩
  · rw [isAbsolute, isAbsolute, Bool.eq_iff_iff, beq_iff_eq, beq_iff_eq, String.toList_ofList,
      head?_trimmed_iff, hhead, ← hcs, head?_trimmed_iff]
  · rw [pathPieces_trimmed, pathPieces_eq, hn]
    split
    · refine ⟨n + 1, ?_⟩
      simp [List.replicate_succ']
    · exact ⟨n, by simp⟩

/-! ## Entries of a directory -/

variable {p : Path} {x : String} {l : Location}

/-- A path without the separators and `.` at its end: the parent of what is joined to it. -/
def tidy (p : Path) : Path := ⟨String.ofList (trimmed p.text.toList)⟩

theorem trimBack_ne_nil {cs : List Char} (h : cs ≠ []) (hlast : cs.getLast? ≠ some '/') :
    trimBack cs ≠ [] := by
  fun_induction trimBack cs
  case case1 rest ih =>
    cases rest with
    | nil => simp at hlast
    | cons c rest => exact ih (by simp) (by simpa using hlast)
  case case2 rest ih =>
    cases rest with
    | nil => simp at hlast
    | cons c rest => exact ih (by simp) (by simpa using hlast)
  case case3 => exact h

theorem trimmed_prefix (cs : List Char) : trimmed cs <+: cs := by
  have hback := trimBack_suffix cs.reverse
  rw [trimmed]
  split
  · split
    · rename_i hhead
      cases cs with
      | nil => simp at hhead
      | cons c cs =>
        obtain rfl : c = '/' := by simpa using hhead
        simp
    · exact List.nil_prefix
  · rename_i h
    rw [h] at hback
    simpa using List.reverse_prefix.2 hback
  · rename_i h _
    simpa using List.reverse_prefix.2 hback

theorem tidy_ne_empty (hp : p.text ≠ "") : p.tidy.text ≠ "" := by
  have hne : p.text.toList ≠ [] := by simpa using hp
  rw [tidy]
  simp only [ne_eq, String.ofList_eq_empty_iff]
  rw [trimmed]
  split
  · rename_i h
    by_cases hhead : p.text.toList.head? = some '/'
    · simp [hhead]
    · exact absurd h (trimBack_ne_nil (by simpa using hne) (by simpa using hhead))
  · simp
  · rename_i h _
    simpa using h

theorem trimmed_separator {cs : List Char} (hne : cs ≠ []) : trimmed (cs ++ ['/']) = trimmed cs := by
  have hback : trimBack (cs ++ ['/']).reverse = trimBack cs.reverse := by
    rw [List.reverse_append, List.reverse_singleton, List.singleton_append, trimBack]
  have hhead : (cs ++ ['/']).head? = cs.head? := List.head?_append_of_ne_nil _ hne
  rw [trimmed, hback, hhead]
  rfl

section Name

variable (hp : p.text ≠ "") (hx : IsName x)

include hp hx

theorem pathPieces_join_name :
    pathPieces (p.join ⟨x⟩).text = (solid p.text.toList).map String.ofList ++ [x] := by
  have hpiece : pathPieces x = [x] := by
    rw [pathPieces_eq, solid_piece hx.no_separator hx.toList_ne_nil, if_neg (by simp [hx.getLast_ne])]
    simp
  rw [pathPieces_join_eq hp (isAbsolute_name hx) hx.ne_empty, hpiece]

theorem components_join_name : ∃ front, (p.join ⟨x⟩).components = front ++ [.name x] := by
  obtain ⟨front, hfront⟩ := exists_components_join hp (isAbsolute_name hx)
  rw [← filterMap_solid, solid_piece hx.no_separator hx.toList_ne_nil,
    List.filterMap_cons_some (component?_name hx)] at hfront
  exact ⟨front, hfront⟩

theorem fileName?_join_name : (p.join ⟨x⟩).fileName? = some x := by
  obtain ⟨front, hfront⟩ := components_join_name hp hx
  rw [fileName?, hfront, List.getLast?_concat]

theorem endsWithSeparator_join_name : endsWithSeparator (p.join ⟨x⟩) = false := by
  obtain ⟨cs, hcs, -⟩ := join_toList hp (isAbsolute_name hx)
  rw [endsWithSeparator, hcs, List.getLast?_append_of_ne_nil _ (by simp),
    List.getLast?_cons_of_ne_nil hx.toList_ne_nil]
  simpa using hx.getLast_ne

theorem parent?_join_name : (p.join ⟨x⟩).parent? = some p.tidy := by
  obtain ⟨front, hfront⟩ := components_join_name hp hx
  obtain ⟨cs, hcs, -, hsame⟩ := join_toList hp (isAbsolute_name hx)
  have hne : p.text.toList ≠ [] := by simpa using hp
  have hparent : trimmed (cs ++ ['/']) = trimmed p.text.toList := by
    rcases hsame with h | h
    · rw [h]
    · rw [h, trimmed_separator hne]
  simp only [parent?, hfront, List.reverse_append, List.reverse_singleton, List.singleton_append]
  rw [hcs, List.append_cons, trimmed_name hx, ← List.append_cons, dropWhile_piece hx.no_separator,
    hparent]
  rfl

theorem withFileName_join_name (t : String) :
    (p.join ⟨x⟩).withFileName t = p.tidy.join ⟨t⟩ := by
  simp [withFileName, fileName?_join_name hp hx, parent?_join_name hp hx]

theorem solid_join_name : solid (p.join ⟨x⟩).text.toList = solid p.text.toList ++ [x.toList] := by
  obtain ⟨cs, hcs, hsolid, -⟩ := join_toList hp (isAbsolute_name hx)
  rw [hcs, solid_separator, hsolid, solid_piece hx.no_separator hx.toList_ne_nil]

theorem join_name_ne_empty : (p.join ⟨x⟩).text ≠ "" := by
  obtain ⟨cs, hcs, -⟩ := join_toList hp (isAbsolute_name hx)
  rw [ne_eq, ← String.toList_inj, hcs]
  simp

end Name

theorem tidy_pathOf (hl : ∀ s ∈ l, IsName s) : (pathOf l).tidy = pathOf l := by
  rcases List.eq_nil_or_concat l with rfl | ⟨front, s, rfl⟩
  · rfl
  · obtain ⟨cs, hcs⟩ := pathOf_concat_toList front s
    rw [List.concat_eq_append, tidy, hcs, List.append_cons, trimmed_name (hl s (by simp)),
      ← List.append_cons, ← hcs, String.ofList_toList]
/-! ## Far below a directory -/

/-- The path of what lies below a directory. -/
def down (p : Path) (names : Location) : Path := names.foldl (fun q x => q.join ⟨x⟩) p

theorem down_cons (p : Path) (x : String) (names : Location) :
    p.down (x :: names) = (p.join ⟨x⟩).down names := rfl

theorem down_concat (p : Path) (names : Location) (x : String) :
    p.down (names ++ [x]) = (p.down names).join ⟨x⟩ := by
  rw [down, List.foldl_append]
  rfl

theorem solid_down {names : Location} (hp : p.text ≠ "") (hnames : ∀ s ∈ names, IsName s) :
    solid (p.down names).text.toList = solid p.text.toList ++ names.map String.toList := by
  induction names generalizing p with
  | nil => simp [down]
  | cons x names ih =>
    rw [List.forall_mem_cons] at hnames
    rw [down_cons, ih (join_name_ne_empty hp hnames.1) hnames.2, solid_join_name hp hnames.1]
    simp

/-- Different names below a directory have different paths. -/
theorem down_injective {a b : Location} (hp : p.text ≠ "") (ha : ∀ s ∈ a, IsName s)
    (hb : ∀ s ∈ b, IsName s) (h : p.down a = p.down b) : a = b := by
  have hsolid := solid_down hp ha
  rw [h, solid_down hp hb, List.append_cancel_left_eq] at hsolid
  exact (List.map_injective_iff.2 (fun _ _ => String.toList_inj.1) hsolid).symm

theorem down_ne_empty {names : Location} (hp : p.text ≠ "") (hnames : ∀ s ∈ names, IsName s) :
    (p.down names).text ≠ "" := by
  induction names generalizing p with
  | nil => exact hp
  | cons x names ih =>
    rw [List.forall_mem_cons] at hnames
    exact ih (join_name_ne_empty hp hnames.1) hnames.2

end Codemod.Path
