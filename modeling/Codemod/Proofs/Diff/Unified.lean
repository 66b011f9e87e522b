/-
When a diff is empty. A script that only keeps lines is one for equal lines (`sameLines_of_scriptFor`), tidying loses
no change (`changes_tidy`), and a change comes to stand in a hunk (`hunks_ne_nil`), so that texts have an empty
diff only if they are equal (`unified_eq_empty`).
-/
import Mathlib.Data.List.Basic
import Mathlib.Tactic.ByContra
import Codemod.Diff.Unified

namespace Codemod.Diff

variable {s : Sides} {a b : Span} {e : Edit} {o : Opened} {kind : EditKind}

/-! ## Equal lines -/

theorem runFrom_spec (s : Sides) (n i j found : Nat) : ∃ r, s.runFrom n i j found = found + r ∧ r ≤ n
    ∧ ∀ k < r, s.same (i + k) (j + k) = true := by
  induction n generalizing i j found with
  | zero => exact ⟨0, rfl, Nat.le_refl 0, by simp⟩
  | succ n ih =>
    rw [Sides.runFrom]
    by_cases hsame : s.same i j = true
    · obtain ⟨r, hr, hle, hall⟩ := ih (i + 1) (j + 1) (found + 1)
      refine ⟨r + 1, by rw [if_pos hsame, hr]; omega, by omega, fun k hk => ?_⟩
      cases k with
      | zero => exact hsame
      | succ k =>
        have hnext := hall k (by omega)
        rwa [Nat.add_right_comm i, Nat.add_right_comm j] at hnext
    · exact ⟨0, by rw [if_neg hsame]; rfl, by omega, by simp⟩

theorem runUpTo_spec (s : Sides) (n i j found : Nat) : ∃ r, s.runUpTo n i j found = found + r ∧ r ≤ n
    ∧ ∀ k < r, s.same (i - 1 - k) (j - 1 - k) = true := by
  induction n generalizing i j found with
  | zero => exact ⟨0, rfl, Nat.le_refl 0, by simp⟩
  | succ n ih =>
    rw [Sides.runUpTo]
    by_cases hsame : s.same (i - 1) (j - 1) = true
    · obtain ⟨r, hr, hle, hall⟩ := ih (i - 1) (j - 1) (found + 1)
      refine ⟨r + 1, by rw [if_pos hsame, hr]; omega, by omega, fun k hk => ?_⟩
      cases k with
      | zero => exact hsame
      | succ k =>
        have hnext := hall k (by omega)
        rwa [Nat.sub_right_comm (i - 1), Nat.sub_right_comm (j - 1)] at hnext
    · exact ⟨0, by rw [if_neg hsame]; rfl, by omega, by simp⟩

/-- Two parts have the same lines. -/
structure SameLines (s : Sides) (a b : Span) : Prop where
  size : a.size = b.size
  same : ∀ k < a.size, s.same (a.start + k) (b.start + k) = true

theorem SameLines.append {x y z x' y' z' : Nat} (h : SameLines s ⟨x, y⟩ ⟨x', y'⟩) (h' : SameLines s ⟨y, z⟩ ⟨y', z'⟩)
    (hxy : x ≤ y) (hxy' : x' ≤ y') (hyz : y ≤ z) (hyz' : y' ≤ z') : SameLines s ⟨x, z⟩ ⟨x', z'⟩ := by
  obtain ⟨hsize, hsame⟩ := h
  obtain ⟨hsize', hsame'⟩ := h'
  simp only [Span.size] at hsize hsame hsize' hsame'
  refine ⟨by simp only [Span.size]; omega, fun k hk => ?_⟩
  simp only [Span.size] at hk ⊢
  by_cases hfirst : k < y - x
  · exact hsame k hfirst
  · have hlast := hsame' (k - (y - x)) (by omega)
    rwa [show y + (k - (y - x)) = x + k by omega, show y' + (k - (y - x)) = x' + k by omega] at hlast

theorem sameLines_head (s : Sides) (a b : Span) :
    SameLines s ⟨a.start, a.start + s.headLength a b⟩ ⟨b.start, b.start + s.headLength a b⟩
      ∧ s.headLength a b ≤ a.size ∧ s.headLength a b ≤ b.size := by
  obtain ⟨r, hr, hle, hall⟩ := runFrom_spec s (min a.size b.size) a.start b.start 0
  rw [Sides.headLength, hr]
  refine ⟨⟨by simp [Span.size], fun k hk => hall k (by simpa [Span.size] using hk)⟩, by omega, by omega⟩

theorem sameLines_tail (s : Sides) (a b : Span) :
    SameLines s ⟨a.stop - s.tailLength a b, a.stop⟩ ⟨b.stop - s.tailLength a b, b.stop⟩
      ∧ s.tailLength a b ≤ a.size ∧ s.tailLength a b ≤ b.size := by
  obtain ⟨r, hr, hle, hall⟩ := runUpTo_spec s (min a.size b.size) a.stop b.stop 0
  rw [Sides.tailLength, hr]
  simp only [Span.size] at hle ⊢
  refine ⟨⟨by simp only [Span.size]; omega, fun k hk => ?_⟩, by omega, by omega⟩
  simp only [Span.size] at hk ⊢
  -- The run has been followed from its end.
  have hthere := hall (r - 1 - k) (by omega)
  rwa [show a.stop - 1 - (r - 1 - k) = a.stop - (0 + r) + k by omega,
    show b.stop - 1 - (r - 1 - k) = b.stop - (0 + r) + k by omega] at hthere

/-! ## Scripts -/

/-- Whether a script has an edit that changes something. -/
def Changes (edits : List Edit) : Prop := ∃ e ∈ edits, e.kind ≠ .equal

theorem Changes.subset {xs ys : List Edit} (h : Changes xs) (hsub : xs ⊆ ys) : Changes ys :=
  let ⟨e, he, hkind⟩ := h
  ⟨e, hsub he, hkind⟩

theorem changes_append {xs ys : List Edit} : Changes (xs ++ ys) ↔ Changes xs ∨ Changes ys := by
  simp [Changes, or_and_right, exists_or]

/-- **A script that only keeps lines** is one for two parts with the same lines. -/
theorem sameLines_of_scriptFor {fuel : Nat} (hfuel : a.size + b.size < fuel) (ha : a.start ≤ a.stop)
    (hb : b.start ≤ b.stop) (h : ¬ Changes (scriptFor s fuel a b)) : SameLines s a b := by
  induction fuel generalizing a b with
  | zero => omega
  | succ fuel ih =>
    obtain ⟨hhead, hheada, hheadb⟩ := sameLines_head s a b
    obtain ⟨htail, htaila, htailb⟩ := sameLines_tail s ⟨a.start + s.headLength a b, a.stop⟩
      ⟨b.start + s.headLength a b, b.stop⟩
    rw [scriptFor] at h
    simp only [changes_append, not_or] at h htail
    generalize s.headLength a b = head at *
    generalize s.tailLength ⟨a.start + head, a.stop⟩ ⟨b.start + head, b.stop⟩ = tail at *
    obtain ⟨⟨-, hinner⟩, -⟩ := h
    have hmiddle : SameLines s ⟨a.start + head, a.stop - tail⟩ ⟨b.start + head, b.stop - tail⟩ := by
      simp only [Span.size] at hfuel hheada hheadb htaila htailb
      split at hinner
      · rename_i hempty
        simp only [Span.size, Bool.and_eq_true, beq_iff_eq] at hempty
        exact ⟨by simp only [Span.size]; omega, fun k hk => by simp only [Span.size] at hk; omega⟩
      split at hinner
      · exact absurd ⟨_, List.mem_singleton.2 rfl, by simp⟩ hinner
      split at hinner
      · exact absurd ⟨_, List.mem_singleton.2 rfl, by simp⟩ hinner
      split at hinner
      · rename_i x y hplace
        -- Both parts that the place leaves are smaller.
        obtain ⟨-, hsplits⟩ := Option.filter_eq_some_iff.1 hplace
        simp only [splits, Bool.and_eq_true, decide_eq_true_eq, bne_iff_ne, ne_eq, Prod.mk.injEq, not_and] at hsplits
        obtain ⟨⟨⟨⟨⟨hx, hx'⟩, hy⟩, hy'⟩, hstart⟩, hstop⟩ := hsplits
        rw [changes_append, not_or] at hinner
        have hfirst := ih (a := ⟨a.start + head, x⟩) (b := ⟨b.start + head, y⟩)
          (by simp only [Span.size]; omega) hx hy hinner.1
        have hlast := ih (a := ⟨x, a.stop - tail⟩) (b := ⟨y, b.stop - tail⟩)
          (by simp only [Span.size]; omega) hx' hy' hinner.2
        exact hfirst.append hlast hx hy hx' hy'
      · exact absurd ⟨_, List.mem_cons_self, by simp⟩ hinner
    simp only [Span.size] at hheada hheadb htaila htailb
    have hfront := hhead.append hmiddle (by omega) (by omega) (by omega) (by omega)
    exact hfront.append htail (by omega) (by omega) (by omega) (by omega)

theorem changes_script (hne : s.old ≠ s.new) : Changes (script s) := by
  by_contra hnot
  obtain ⟨hsize, hsame⟩ := sameLines_of_scriptFor (by simp [Span.size]) (Nat.zero_le _) (Nat.zero_le _) hnot
  simp only [Span.size, Nat.sub_zero, Nat.zero_add] at hsize hsame
  refine hne (Array.ext hsize fun k hk hk' => ?_)
  have hk'' := hsame k hk
  rwa [Sides.same, dif_pos hk, dif_pos hk', beq_iff_eq] at hk''

/-! ## Tidying -/

theorem slideUp_kind (s : Sides) (o : Opened) : (slideUp s o).this.kind = o.this.kind := by
  fun_induction slideUp s o <;> simp_all +zetaDelta [Edit.slideUp]

theorem slideDown_kind (s : Sides) (o : Opened) : (slideDown s o).this.kind = o.this.kind := by
  fun_induction slideDown s o <;> simp_all +zetaDelta [Edit.slideDown]

/-- An edit that slides is still there. -/
theorem changes_tidyKind (hkind : kind ≠ .equal) (fuel : Nat) {before after : List Edit}
    (h : Changes (before ++ after)) : Changes (tidyKind s kind fuel before after) := by
  fun_induction tidyKind s kind fuel before after with
  | case1 before after => exact h.subset fun e he => by simpa using he
  | case2 _ before => exact h.subset fun e he => by simpa using he
  | case3 _ before e after hsame o ih =>
    have hthis : o.this.kind = kind := by
      rw [slideDown_kind, slideUp_kind]
      exact beq_iff_eq.1 hsame
    exact ih ⟨o.this, by simp, hthis ▸ hkind⟩
  | case4 _ before e after hother ih => exact ih (h.subset fun f hf => by simpa [or_left_comm] using hf)

theorem changes_tidy {edits : List Edit} (h : Changes edits) : Changes (tidy s edits) :=
  changes_tidyKind (by simp) _ (changes_tidyKind (by simp) _ h)

/-! ## Hunks -/

theorem isEqual_of_block? {p : Pending} {block : Block} (h : p.block? = some block) : block.isEqual = false := by
  obtain ⟨delete, insert⟩ := p
  cases delete <;> cases insert <;> simp only [Pending.block?, Option.some.injEq, reduceCtorEq] at h <;> rw [← h]

theorem isSome_block? (p : Pending) : p.block?.isSome = (p.delete.isSome || p.insert.isSome) := by
  obtain ⟨delete, insert⟩ := p
  cases delete <;> cases insert <;> rfl

theorem isSome_extend (pending : Option Edit) (e : Edit) : (extend pending e).isSome = true := by
  cases pending <;> rfl

/-- **A change is in a block** that is not one of equal lines. -/
theorem exists_changed_block {p : Pending} {equal : Option Edit} {edits : List Edit}
    (h : p.block?.isSome ∨ Changes edits) : ∃ block ∈ blocksFrom p equal edits, block.isEqual = false := by
  have hpending {p : Pending} (h : p.block?.isSome = true) : ∃ block ∈ p.block?.toList, block.isEqual = false := by
    obtain ⟨block, hblock⟩ := Option.isSome_iff_exists.1 h
    exact ⟨block, by simp [hblock], isEqual_of_block? hblock⟩
  induction edits generalizing p equal with
  | nil =>
    obtain ⟨block, hblock, hequal⟩ := hpending (h.resolve_right (by simp [Changes]))
    exact ⟨block, List.mem_append_right _ hblock, hequal⟩
  | cons e edits ih =>
    rw [blocksFrom]
    cases hkind : e.kind with
    | equal =>
      rcases h with h | h
      · obtain ⟨block, hblock, hequal⟩ := hpending h
        exact ⟨block, List.mem_append_left _ hblock, hequal⟩
      · have hrest : Changes edits := by simpa [Changes, hkind] using h
        obtain ⟨block, hblock, hequal⟩ := @ih {} (extend equal e) (.inr hrest)
        exact ⟨block, List.mem_append_right _ hblock, hequal⟩
    | delete =>
      obtain ⟨block, hblock, hequal⟩ := @ih { p with delete := extend p.delete e } none
        (.inl (by simp [isSome_block?, isSome_extend]))
      exact ⟨block, List.mem_append_right _ hblock, hequal⟩
    | insert =>
      obtain ⟨block, hblock, hequal⟩ := @ih { p with insert := extend p.insert e } none
        (.inl (by simp [isSome_block?, isSome_extend]))
      exact ⟨block, List.mem_append_right _ hblock, hequal⟩

theorem mem_mapHead {f : Block → Block} {blocks : List Block} {block : Block} (h : block ∈ blocks)
    (hequal : block.isEqual = false) : block ∈ mapHead f blocks := by
  cases blocks with
  | nil => exact h
  | cons first rest =>
    rw [mapHead]
    rcases List.mem_cons.1 h with rfl | h
    · simp [hequal]
    · exact List.mem_cons_of_mem _ h

theorem mem_mapLast {f : Block → Block} {blocks : List Block} {block : Block} (h : block ∈ blocks)
    (hequal : block.isEqual = false) : block ∈ mapLast f blocks :=
  List.mem_reverse.2 (mem_mapHead (List.mem_reverse.2 h) hequal)

theorem hunksFrom_ne_nil {hunk blocks : List Block} {block : Block} (h : block ∈ hunk ++ blocks)
    (hequal : block.isEqual = false) : hunksFrom hunk blocks ≠ [] := by
  induction blocks generalizing hunk with
  | nil =>
    rw [List.append_nil] at h
    match hunk, h with
    | [only], h =>
      obtain rfl := List.mem_singleton.1 h
      simp [hunksFrom, hequal]
    | _ :: _ :: _, _ => simp [hunksFrom]
  | cons next rest ih =>
    rw [hunksFrom]
    split
    · simp
    · exact ih (by simpa [or_left_comm] using h)

/-- **A change is in a hunk.** -/
theorem hunks_ne_nil {edits : List Edit} (h : Changes edits) : hunks (blocksFrom {} none edits) ≠ [] := by
  obtain ⟨block, hblock, hequal⟩ := exists_changed_block (.inr h)
  exact hunksFrom_ne_nil (mem_mapLast (mem_mapHead hblock hequal) hequal) hequal

/-! ## Texts -/

/-- The lines of a text, one behind the other, are the text. -/
theorem flatten_linesFrom (line cs : List Char) : (linesFrom line cs).flatten = line.reverse ++ cs := by
  fun_induction linesFrom line cs <;> simp_all

theorem lines_injective {t u : String} (h : lines t = lines u) : t = u := by
  have hchars : linesFrom [] t.toList = linesFrom [] u.toList :=
    List.map_injective_iff.2 (fun _ _ => String.ofList_injective) h
  have hflat := congrArg List.flatten hchars
  rw [flatten_linesFrom, flatten_linesFrom] at hflat
  exact String.toList_inj.1 hflat

/-- **A diff is empty** only where nothing has changed. -/
theorem unified_eq_empty (path : String) {t u : String} : unified path t u = "" ↔ t = u := by
  rw [unified]
  split
  · rename_i heq
    exact iff_of_true rfl (beq_iff_eq.1 heq)
  · rename_i hne
    rw [beq_iff_eq] at hne
    have hlines : (lines t).toArray ≠ (lines u).toArray := fun h => hne (lines_injective (List.toArray_inj h))
    have hhunks := hunks_ne_nil (changes_tidy (changes_script (s := ⟨(lines t).toArray, (lines u).toArray⟩) hlines)
      (s := ⟨(lines t).toArray, (lines u).toArray⟩))
    simp only [List.isEmpty_eq_false_iff.2 hhunks, Bool.false_eq_true, if_false, hne, iff_false]
    intro hempty
    have hchars := congrArg String.toList hempty
    simp at hchars

end Codemod.Diff
