/-
Paths that are joined to a location or freed of `.` and `..`. A relative path behind a location is followed
as its pieces behind the names (`pathPieces_join`), and its components come behind theirs
(`components_join`). What `normalize` makes of an absolute path spells the place that its components lead to
(`normalize_eq`).
-/
import Codemod.Proofs.Disk.Paths

namespace Codemod.Path

open Disk

variable {l m : Location} {s : String}

/-! ## Joined paths -/

/-- A relative path stands behind one separator, which the path in front may end in. -/
theorem join_toList {root p : Path} (hroot : root.text ≠ "") (hp : p.isAbsolute = false) :
    ∃ cs, (root.join p).text.toList = cs ++ '/' :: p.text.toList
      ∧ solid cs = solid root.text.toList
      ∧ (cs ++ ['/'] = root.text.toList ∨ cs = root.text.toList) := by
  have hempty : root.text.isEmpty = false := by simpa using hroot
  rw [join, hp, if_neg Bool.false_ne_true, hempty, Bool.false_or]
  split
  · rename_i hlast
    obtain ⟨cs, hcs⟩ := List.getLast?_eq_some_iff.1 (beq_iff_eq.1 hlast)
    refine ⟨cs, by simp [hcs], ?_, .inl hcs.symm⟩
    rw [hcs, solid_separator]
    simp [solid, pieces]
  · exact ⟨root.text.toList, by simp, rfl, .inr rfl⟩

/-- A joined text begins with that of the path in front. -/
theorem prefix_join {root p : Path} (hroot : root.text ≠ "") (hp : p.isAbsolute = false) :
    root.text.toList <+: (root.join p).text.toList := by
  obtain ⟨cs, hjoin, -, hcs | hcs⟩ := join_toList hroot hp
  · exact ⟨p.text.toList, by rw [hjoin, ← hcs, ← List.append_cons]⟩
  · exact ⟨'/' :: p.text.toList, by rw [hjoin, hcs]⟩

theorem startsAtRoot_join {root p : Path} (hroot : root.text ≠ "") (hp : p.isAbsolute = false) :
    startsAtRoot (root.join p).text = startsAtRoot root.text := by
  obtain ⟨more, hmore⟩ := prefix_join hroot hp
  rw [startsAtRoot, startsAtRoot, ← hmore, List.head?_append_of_ne_nil _ (by simpa using hroot)]

/-- A piece that has been begun is not empty. -/
theorem filter_pieces_ne_nil {cs piece : List Char} (hpiece : piece ≠ []) :
    (pieces cs piece).filter (!·.isEmpty) ≠ [] := by
  induction cs generalizing piece with
  | nil => simpa [pieces] using hpiece
  | cons c cs ih =>
    rw [pieces]
    split
    · simp [hpiece]
    · exact ih (by simp)

theorem solid_ne_nil {p : Path} (hp : p.isAbsolute = false) (hne : p.text ≠ "") :
    solid p.text.toList ≠ [] := by
  obtain ⟨c, rest, htext⟩ := List.exists_cons_of_ne_nil (l := p.text.toList) (by simpa using hne)
  have hc : c ≠ '/' := by simpa [isAbsolute, htext] using hp
  rw [htext, solid, pieces, if_neg (by simpa using hc)]
  exact filter_pieces_ne_nil (by simp)

theorem pathPieces_ne_nil {p : Path} (hp : p.isAbsolute = false) (hne : p.text ≠ "") :
    pathPieces p.text ≠ [] := by
  simp [pathPieces_eq, solid_ne_nil hp hne]

/-- Followed, a joined path takes the pieces of both texts. -/
theorem pathPieces_join_eq {root p : Path} (hroot : root.text ≠ "") (hp : p.isAbsolute = false)
    (hne : p.text ≠ "") : pathPieces (root.join p).text
      = (solid root.text.toList).map String.ofList ++ pathPieces p.text := by
  obtain ⟨cs, hjoin, hcs, -⟩ := join_toList hroot hp
  have hlast : (cs ++ '/' :: p.text.toList).getLast? = p.text.toList.getLast? := by
    have htext : p.text.toList ≠ [] := by simpa using hne
    rw [List.getLast?_append_of_ne_nil _ (by simp), List.getLast?_cons_of_ne_nil htext]
  have hsome := solid_ne_nil hp hne
  rw [pathPieces_eq, pathPieces_eq, hjoin, hlast, solid_separator, hcs, List.append_assoc,
    List.map_append]
  simp [hsome]

/-- Behind a location, these are its names and the pieces of the path. -/
theorem pathPieces_join {p : Path} (hp : p.isAbsolute = false) (hne : p.text ≠ "")
    (hl : ∀ s ∈ l, IsName s) :
    pathPieces ((pathOf l).join p).text = l ++ pathPieces p.text := by
  rw [pathPieces_join_eq pathOf_ne_empty hp hne, solid_pathOf hl, map_ofList_toList]

theorem isAbsolute_join (l : Location) (p : Path) : ((pathOf l).join p).isAbsolute = true := by
  rw [join]
  split
  · assumption
  · split <;> simp [isAbsolute, pathOf]

/-! ## Components and what is followed -/

theorem component?_eq_none {piece : List Char} :
    component? piece = none ↔ piece = [] ∨ piece = ['.'] := by
  rw [component?]
  split
  · rename_i h
    exact iff_of_true rfl (by simpa using h)
  · split <;> simp_all

theorem filterMap_solid (cs : List Char) :
    (solid cs).filterMap component? = (pieces cs []).filterMap component? := by
  rw [solid, List.filterMap_filter]
  refine List.filterMap_congr fun piece _ => ?_
  cases piece <;> simp [component?]

/-- A piece that does not stay where it is goes up or is a name. -/
theorem component?_of_solid {piece : List Char} (h : ¬ (piece = [] ∨ piece = ['.'])) :
    component? piece
      = if piece == ['.', '.'] then some .up else some (.name (String.ofList piece)) := by
  rw [component?, if_neg (by simpa using h)]

/-- The components of a joined path end in those of the path behind, its first one perhaps excepted. -/
theorem exists_components_join {root p : Path} (hroot : root.text ≠ "") (hp : p.isAbsolute = false) :
    ∃ front, (root.join p).components = front ++ (pieces p.text.toList []).filterMap component? := by
  obtain ⟨cs, hjoin, -⟩ := join_toList hroot hp
  obtain ⟨first, hfirst⟩ : ∃ first, (root.join p).components
      = first ++ (pieces (root.join p).text.toList []).filterMap component? := ⟨_, rfl⟩
  rw [hjoin, pieces_separator, List.filterMap_append, ← List.append_assoc] at hfirst
  exact ⟨_, hfirst⟩

/-- A relative text begins with a piece, which is a component if it is no `.`. -/
theorem exists_first_piece {cs : List Char} (hne : cs ≠ []) (hroot : cs.head? ≠ some '/') :
    ∃ piece more, pieces cs [] = piece :: more ∧ piece ≠ []
      ∧ (piece = ['.'] → startsHere cs = true) := by
  by_cases hsep : '/' ∈ cs
  · obtain ⟨piece, rest, rfl, hpiece⟩ := List.eq_append_cons_of_mem hsep
    refine ⟨piece, pieces rest [], ?_, ?_, ?_⟩
    · rw [pieces_append hpiece, pieces, if_pos (beq_self_eq_true _)]
      simp
    · rintro rfl
      exact hroot rfl
    · rintro rfl
      rfl
  · refine ⟨cs, [], ?_, hne, ?_⟩
    · rw [← List.append_nil cs, pieces_append hsep]
      simp [pieces]
    · rintro rfl
      rfl

/-- A text that does not start at the root has a component, and that is another one. -/
theorem exists_components_of_relative {p : Path} (hp : p.isAbsolute = false) (hne : p.text ≠ "") :
    ∃ c rest, p.components = c :: rest ∧ c ≠ .root := by
  have htext : p.text.toList ≠ [] := by simpa using hne
  obtain ⟨piece, more, hpieces, hpiece, hhere⟩ := exists_first_piece htext
    (by simpa [isAbsolute] using hp)
  rw [components, hp, if_neg Bool.false_ne_true]
  split
  · exact ⟨.here, _, rfl, by simp⟩
  · rename_i hnot
    obtain ⟨c, hc, hne⟩ : ∃ c, component? piece = some c ∧ c ≠ .root := by
      rw [component?_of_solid (not_or.2 ⟨hpiece, fun h => hnot (hhere h)⟩)]
      split <;> exact ⟨_, rfl, by simp⟩
    rw [hpieces, List.filterMap_cons_some hc]
    exact ⟨c, _, rfl, hne⟩

/-- Where nothing goes up, the components are the pieces that are names. -/
theorem filterMap_component {ps : List (List Char)} (h : .up ∉ ps.filterMap component?) :
    ps.filterMap component?
      = ((ps.filter fun p => !p.isEmpty && p != ['.']).map String.ofList).map .name := by
  induction ps with
  | nil => rfl
  | cons p ps ih =>
    rw [List.filterMap_cons] at h ⊢
    by_cases hskip : p = [] ∨ p = ['.']
    · rw [component?_eq_none.2 hskip] at h ⊢
      rw [List.filter_cons, if_neg (by rcases hskip with rfl | rfl <;> simp)]
      exact ih h
    · have hkeep : (!p.isEmpty && p != ['.']) = true := by simpa using hskip
      rw [component?_of_solid hskip] at h ⊢
      rw [List.filter_cons, hkeep, if_pos rfl]
      by_cases hup : p = ['.', '.']
      · simp [hup] at h
      · simp only [beq_iff_eq, hup, if_false] at h ⊢
        rw [List.map_cons, List.map_cons, ih (fun hmem => h (List.mem_cons_of_mem _ hmem))]

theorem names_of_filterMap {ps : List (List Char)} {names : List String}
    (h : ps.filterMap component? = names.map .name) :
    (ps.filter fun p => !p.isEmpty && p != ['.']).map String.ofList = names := by
  rw [filterMap_component (by simp [h])] at h
  exact List.map_injective_iff.2 (fun _ _ => Component.name.inj) h

/-- A `.` at the end asks for a directory, and is no name. -/
theorem pathPieces_filter (text : String) : (pathPieces text).filter (· != ".") =
    ((pieces text.toList []).filter fun p => !p.isEmpty && p != ['.']).map String.ofList := by
  have hdot : ((fun s => s != ".") ∘ String.ofList) = fun p : List Char => p != ['.'] := by
    funext p
    rw [Function.comp_apply, Bool.eq_iff_iff, bne_iff_ne, bne_iff_ne, ne_eq, ne_eq,
      ← String.toList_inj, String.toList_ofList]
    rfl
  have hps : (((pieces text.toList []).filter (!·.isEmpty)).filter fun p => p != ['.'])
      = (pieces text.toList []).filter fun p => !p.isEmpty && p != ['.'] := by
    rw [List.filter_filter]
    exact List.filter_congr fun p _ => Bool.and_comm _ _
  rw [pathPieces, List.filter_map, hdot]
  split
  · rw [List.filter_append, hps]
    simp
  · rw [hps]

/-- Two absolute paths with the same components differ, when they are followed, in nothing but `.`. -/
theorem pathPieces_of_components {p : Path} (hp : p.isAbsolute = true)
    (h : p.components = .root :: l.map .name) : (pathPieces p.text).filter (· != ".") = l := by
  rw [components, hp, if_pos rfl, List.singleton_append] at h
  rw [pathPieces_filter, names_of_filterMap (List.cons_eq_cons.1 h).2]

/-- The components of a relative path that does not go up are the names that it is followed by, and a
leading `.` perhaps. -/
theorem components_of_relative {p : Path} (hp : p.isAbsolute = false) (h : .up ∉ p.components) :
    ∃ first, p.components = first ++ ((pathPieces p.text).filter (· != ".")).map .name := by
  rw [components, hp, if_neg (by simp)] at h ⊢
  rw [List.mem_append, not_or] at h
  exact ⟨_, by rw [pathPieces_filter, filterMap_component h.2]⟩

/-- The components of a path, a leading `.` left out. -/
def plain (p : Path) : List Component := p.components.filter (· != .here)

/-- But for a leading `.`, the components of a relative path that does not go up are the names that it is
followed by. -/
theorem plain_of_relative {p : Path} (hp : p.isAbsolute = false) (h : .up ∉ p.components) :
    p.plain = ((pathPieces p.text).filter (· != ".")).map .name := by
  rw [components, hp, if_neg (by simp), List.mem_append, not_or] at h
  rw [plain, components, hp, if_neg (by simp), pathPieces_filter, filterMap_component h.2,
    List.filter_append]
  have hfirst : (if startsHere p.text.toList = true then [Component.here] else []).filter (· != .here)
      = [] := by
    split <;> rfl
  rw [hfirst, List.nil_append, List.filter_eq_self]
  intro c hc
  obtain ⟨s, -, rfl⟩ := List.mem_map.1 hc
  rfl

theorem no_up_of_components {p : Path} (h : .up ∉ p.components) : ".." ∉ pathPieces p.text := by
  intro hmem
  have hfilter : ".." ∈ (pathPieces p.text).filter (· != ".") :=
    List.mem_filter.2 ⟨hmem, by decide⟩
  rw [pathPieces_filter] at hfilter
  obtain ⟨piece, hpiece, heq⟩ := List.mem_map.1 hfilter
  obtain rfl : piece = ['.', '.'] := by
    rw [← String.toList_ofList (l := piece), heq]
    rfl
  refine h (List.mem_append_right _ (List.mem_filterMap.2 ⟨_, (List.mem_filter.1 hpiece).1, rfl⟩))

/-! ## Without going up -/

theorem foldl_push_names (hm : ∀ s ∈ m, IsName s) (hl : ∀ s ∈ l, IsName s) :
    (l.map Component.name).foldl push (pathOf m) = pathOf (m ++ l) := by
  induction l generalizing m with
  | nil => simp
  | cons s l ih =>
    simp only [List.forall_mem_cons] at hl
    have hall : ∀ t ∈ m ++ [s], IsName t := hl.1.concat hm
    rw [List.map_cons, List.foldl_cons, push, join_name hm hl.1, ih hall hl.2,
      List.append_assoc, List.singleton_append]

theorem ofComponents_names (hl : ∀ s ∈ l, IsName s) :
    ofComponents (.root :: l.map .name) = pathOf l :=
  foldl_push_names (m := []) (by simp) hl

theorem component?_cases {piece : List Char} {c : Component} (hsep : '/' ∉ piece)
    (h : component? piece = some c) : c = .up ∨ ∃ s, IsName s ∧ c = .name s := by
  by_cases hskip : piece = [] ∨ piece = ['.']
  · rw [component?_eq_none.2 hskip] at h
    cases h
  · rw [component?_of_solid hskip] at h
    split at h
    · exact .inl (Option.some.inj h).symm
    · rename_i hup
      refine .inr ⟨String.ofList piece, ⟨?_, ?_, ?_, ?_⟩, (Option.some.inj h).symm⟩
      · simp_all
      · exact fun h => by simp_all [← String.toList_inj]
      · exact fun h => by simp_all [← String.toList_inj]
      · simpa using hsep

/-- What an absolute path has behind its root goes up or is a name. -/
theorem components_of_absolute {p : Path} (hp : p.isAbsolute = true) :
    p.components = .root :: (pieces p.text.toList []).filterMap component? := by
  rw [components, hp]
  rfl

theorem mem_filterMap_pieces {cs : List Char} {c : Component} (h : c ∈ (pieces cs []).filterMap component?) :
    c = .up ∨ ∃ s, IsName s ∧ c = .name s := by
  obtain ⟨piece, hpiece, hc⟩ := List.mem_filterMap.1 h
  exact component?_cases (no_separator_of_mem_pieces (by simp) hpiece) hc

theorem text_ne_empty_of_absolute {p : Path} (hp : p.isAbsolute = true) : p.text ≠ "" := fun hempty => by
  rw [isAbsolute, hempty] at hp
  exact absurd hp (by decide)

theorem isAbsolute_join_relative {root p : Path} (hroot : root.isAbsolute = true) (hp : p.isAbsolute = false) :
    (root.join p).isAbsolute = true :=
  (startsAtRoot_join (text_ne_empty_of_absolute hroot) hp).trans hroot

/-- The components of a relative path come behind those of an absolute one, a leading `.` left out. -/
theorem components_join_absolute {root p : Path} (hroot : root.isAbsolute = true) (hp : p.isAbsolute = false) :
    (root.join p).components = root.components ++ (pieces p.text.toList []).filterMap component? := by
  obtain ⟨cs, hjoin, hcs, -⟩ := join_toList (text_ne_empty_of_absolute hroot) hp
  rw [components_of_absolute (isAbsolute_join_relative hroot hp), components_of_absolute hroot, hjoin,
    pieces_separator, List.filterMap_append, ← filterMap_solid cs, hcs, filterMap_solid, List.cons_append]

theorem components_join {p : Path} (hp : p.isAbsolute = false) (hl : ∀ s ∈ l, IsName s) :
    ((pathOf l).join p).components
      = .root :: l.map .name ++ (pieces p.text.toList []).filterMap component? := by
  rw [components_join_absolute isAbsolute_pathOf hp, components_pathOf hl]

/-! ## From place to place -/

/-- Where one more component leads to from a place, if there is no link on the way. Up from the root there is
nothing to go to. -/
def goFrom (l : Location) : Component → Location
  | .root => []
  | .here => l
  | .up => l.dropLast
  | .name s => l ++ [s]

/-- The components that are kept spell the place that one has come to. -/
theorem foldl_goOn {cs : List Component} (hcs : .root ∉ cs) (l : Location) :
    cs.foldl goOn (.root :: l.map .name) = .root :: (cs.foldl goFrom l).map .name := by
  induction cs generalizing l with
  | nil => rfl
  | cons c cs ih =>
    rw [List.mem_cons, not_or] at hcs
    have hstep : goOn (.root :: l.map .name) c = .root :: (goFrom l c).map .name := by
      cases c with
      | root => exact absurd rfl hcs.1
      | here => rfl
      | name s => simp [goOn, goFrom]
      | up =>
        rcases List.eq_nil_or_concat l with rfl | ⟨front, s, rfl⟩
        · rfl
        · have hfront : .root :: (front.concat s).map Component.name
              = (.root :: front.map .name) ++ [.name s] := by simp
          rw [hfront, goOn, List.getLast?_concat, List.dropLast_concat, goFrom, List.concat_eq_append,
            List.dropLast_concat]
    rw [List.foldl_cons, List.foldl_cons, hstep, ih hcs.2]

/-- From names one comes to names. -/
theorem names_foldl_goFrom {cs : List Component} (hcs : ∀ s, .name s ∈ cs → IsName s)
    (hl : ∀ s ∈ l, IsName s) : ∀ s ∈ cs.foldl goFrom l, IsName s := by
  induction cs generalizing l with
  | nil => exact hl
  | cons c cs ih =>
    refine ih (fun s hs => hcs s (List.mem_cons_of_mem _ hs)) ?_
    cases c with
    | root => simp [goFrom]
    | here => exact hl
    | up => exact fun s hs => hl s (List.dropLast_subset l hs)
    | name s => exact (hcs s List.mem_cons_self).concat hl

theorem names_of_absolute {p : Path} (hp : p.isAbsolute = true) :
    ∀ s ∈ p.components.foldl goFrom [], IsName s := by
  refine names_foldl_goFrom (fun s hs => ?_) (by simp)
  rw [components_of_absolute hp, List.mem_cons] at hs
  obtain hs | hs := hs
  · cases hs
  · obtain hs | ⟨t, ht, hs⟩ := mem_filterMap_pieces hs
    · cases hs
    · exact Component.name.inj hs ▸ ht

/-- **An absolute path without `.` and `..`** spells the place that its components lead to one by one. -/
theorem normalize_eq {p : Path} (hp : p.isAbsolute = true) :
    p.normalize = pathOf (p.components.foldl goFrom []) := by
  have hroot : .root ∉ (pieces p.text.toList []).filterMap component? := fun h => by
    obtain h | ⟨s, -, h⟩ := mem_filterMap_pieces h <;> cases h
  rw [← ofComponents_names (names_of_absolute hp), normalize, components_of_absolute hp, List.foldl_cons,
    List.foldl_cons]
  exact congrArg ofComponents (foldl_goOn hroot [])

theorem normalize_eq_pathOf {p : Path} (hp : p.isAbsolute = true) :
    ∃ l, (∀ s ∈ l, IsName s) ∧ p.normalize = pathOf l :=
  ⟨_, names_of_absolute hp, normalize_eq hp⟩

/-- Names lead down one by one. -/
theorem foldl_goFrom_names (m l : Location) : (l.map Component.name).foldl goFrom m = m ++ l := by
  induction l generalizing m with
  | nil => simp
  | cons s l ih => simpa [goFrom] using ih (m ++ [s])

/-- Down and up again, by the text alone. -/
theorem normalize_up (hl : ∀ s ∈ l, IsName s) (hs : IsName s) :
    ((pathOf (l ++ [s])).join ⟨".."⟩).normalize = pathOf l := by
  have hall : ∀ t ∈ l ++ [s], IsName t := hs.concat hl
  have hup : (pieces "..".toList []).filterMap component? = [.up] := by decide
  rw [normalize_eq (isAbsolute_join _ _), components_join rfl hall, hup, List.foldl_append, List.foldl_cons (b := [])]
  rw [goFrom, foldl_goFrom_names, List.nil_append, List.foldl_cons, List.foldl_nil, goFrom, List.dropLast_concat]

end Codemod.Path
