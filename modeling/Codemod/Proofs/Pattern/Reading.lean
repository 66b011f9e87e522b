/-
Reading a pattern whose text is put together of parts. `Gives ns cs xs ns'` says that the text `cs` adds
the nodes `xs` to the alternative being read, wherever it stands behind the named groups `ns`, if the
whole can be read; the lemmas have one case for each kind of part. A part can be repeated by what stands
behind it (`Repeats`, `GivesOne.times`). `parse_gives` is what they come to for a whole pattern. Whether the name of a group is well-formed depends on tables that are not opened here: a
pattern that has been read has well-formed names.
-/
import Mathlib.Data.List.TakeDrop
import Codemod.Proofs.Pattern.Build
import Codemod.Proofs.Text.Digits
import Codemod.Pattern.Basic

namespace Codemod.Pattern

open Text Unicode Reading

/-- The numbers of the named groups so far. -/
abbrev Names := List (String × Nat)

/-- What comes next does not change how the part before it is read. -/
def Joins (more : List Char) : Prop := more.head? ≠ some '?' ∧ more.head? ≠ some '{'

theorem joins_nil : Joins [] := ⟨nofun, nofun⟩

theorem joins_cons {c : Char} {cs : List Char} (h1 : c ≠ '?') (h2 : c ≠ '{') : Joins (c :: cs) := by
  simp [Joins, h1, h2]

/-- Where a reading is that has no switches on, behind some named groups. -/
structure Ready (r : Reading) (ns : Names) : Prop where
  flags : r.flags = {}
  groups : r.groups = ns.length
  names : r.names = ns

/-- What one after the other are read as. -/
def together : List Node → Node
  | [x] => x
  | xs => .concat xs

/-- What several alternatives are read as. -/
def oneOf : List Node → Node
  | [x] => x
  | xs => .either xs

section

variable {xs : List Node} {t u : Trail}

/-- The characters of a text, read as a word. -/
theorem together_chars {cs : List Char} (hne : cs ≠ []) : together (cs.map fun c => .word [c]) = .word cs := by
  unfold together
  split
  · next x hx =>
    obtain ⟨c, rfl⟩ : ∃ c, cs = [c] := by simpa [List.length_eq_one_iff] using congrArg List.length hx
    simpa using hx.symm
  · exact Node.concat_chars hne

theorem leads_oneOf (h : Node.Apart xs) (hne : xs ≠ []) : (oneOf xs).Leads t u ↔ ∃ x ∈ xs, x.Leads t u := by
  match xs, hne with
  | [x], _ => simp [oneOf]
  | x :: y :: xs, _ => exact Node.leads_either h (by simp)

theorem simple_oneOf (h : Node.Apart xs) (hne : xs ≠ []) (hxs : ∀ x ∈ xs, x.simple = true) :
    (oneOf xs).simple = true := by
  match xs, hne with
  | [x], _ => exact hxs x (by simp)
  | x :: y :: xs, _ => exact Node.simple_either h (by simp) hxs

end

/-- A text is read as parts of an alternative, wherever reading comes to an end. -/
def Gives (ns : Names) (cs : List Char) (xs : List Node) (ns' : Names) : Prop :=
  ∃ items : List Piece, items.reverse.map Piece.node = xs ∧ (∀ p ∈ items, p.repeatable = true) ∧
    ∃ rounds ≤ cs.length, ∀ r more fuel last, Ready r ns → Joins more → 8 ≤ fuel →
      run (fuel + rounds) { r with rest := cs ++ more } = some last →
      run fuel { r with rest := more, items := items ++ r.items, groups := ns'.length, names := ns' }
        = some last

/-- A text is read as all alternatives of a group or of the whole pattern. -/
def GivesBody (ns : Names) (cs : List Char) (xs : List Node) (ns' : Names) : Prop :=
  ∃ choices items : List Piece, (Piece.concat items :: choices).reverse.map Piece.node = xs ∧
    ∃ rounds ≤ cs.length, ∀ r more fuel last, Ready r ns → Joins more → 8 ≤ fuel →
      run (fuel + rounds) { r with rest := cs ++ more, choices := [], items := [] } = some last →
      run fuel { r with rest := more, choices, items, groups := ns'.length, names := ns' } = some last

/-- A text is read as one part of an alternative, wherever what comes behind it is as `ahead` says. -/
def GivesOne (ahead : List Char → Prop) (ns : Names) (cs : List Char) (x : Node) (ns' : Names) : Prop :=
  ∃ p : Piece, p.node = x ∧ p.repeatable = true ∧
    ∃ rounds ≤ cs.length, ∀ r more fuel last, Ready r ns → ahead more → 8 ≤ fuel →
      run (fuel + rounds) { r with rest := cs ++ more } = some last →
      run fuel { r with rest := more, items := p :: r.items, groups := ns'.length, names := ns' } = some last

theorem node_concat (items : List Piece) :
    (Piece.concat items).node = together (items.reverse.map Piece.node) := by
  unfold Piece.concat
  split
  · rfl
  · rfl
  · next hnil hone =>
    unfold together
    split
    · next x hx =>
      obtain ⟨p, rfl⟩ : ∃ p, items = [p] := by
        simpa [List.length_eq_one_iff] using congrArg List.length hx
      exact absurd rfl (hone p)
    · rfl

theorem node_choice {alts : List Piece} (h : alts ≠ []) :
    (Piece.choice alts).node = oneOf (alts.reverse.map Piece.node) := by
  unfold Piece.choice
  split
  · exact absurd rfl h
  · rfl
  · next hnil hone =>
    unfold oneOf
    split
    · next x hx =>
      obtain ⟨p, rfl⟩ : ∃ p, alts = [p] := by
        simpa [List.length_eq_one_iff] using congrArg List.length hx
      exact absurd rfl (hone p)
    · rfl

theorem run_cons {fuel : Nat} {r last : Reading} {c : Char} {rest : List Char}
    (hrun : run (fuel + 1) r = some last) (hflags : r.flags = {}) (hrest : r.rest = c :: rest) :
    ∃ out, r.step fuel c rest = some out ∧ run fuel out = some last := by
  rw [run] at hrun
  simp only [hflags, hrest, Flags.skip, Bool.false_eq_true, if_false] at hrun
  exact Option.bind_eq_some_iff.1 hrun

section

variable {ns ns' ns'' : Names} {cs ds : List Char} {x : Node} {xs ys : List Node}

theorem gives_nil : Gives ns [] [] ns := by
  refine ⟨[], rfl, nofun, 0, Nat.le_refl _, fun r more fuel last hr _ _ h => ?_⟩
  obtain ⟨-, hgroups, hnames⟩ := hr
  rw [← hgroups, ← hnames]
  exact h

theorem joins_append (hds : Joins ds) {more : List Char} (hmore : Joins more) : Joins (ds ++ more) := by
  cases ds with
  | nil => exact hmore
  | cons d ds => exact hds

theorem Gives.append (h : Gives ns cs xs ns') (h' : Gives ns' ds ys ns'') (hds : Joins ds) :
    Gives ns (cs ++ ds) (xs ++ ys) ns'' := by
  obtain ⟨items, rfl, hrep, m, hm, h⟩ := h
  obtain ⟨items', rfl, hrep', n, hn, h'⟩ := h'
  refine ⟨items' ++ items, by simp, fun p hp => (List.mem_append.1 hp).elim (hrep' p) (hrep p), m + n,
    by rw [List.length_append]; omega, fun r more fuel last hr hmore hfuel hrun => ?_⟩
  rw [show fuel + (m + n) = (fuel + n) + m by omega, List.append_assoc] at hrun
  have hfirst := h r _ _ last hr (joins_append hds hmore) (by omega) hrun
  have hsecond := h' { r with items := items ++ r.items, groups := ns'.length, names := ns' } more
    fuel last ⟨hr.flags, rfl, rfl⟩ hmore hfuel hfirst
  rwa [List.append_assoc]

theorem GivesOne.gives {ahead : List Char → Prop} (h : GivesOne ahead ns cs x ns')
    (hahead : ∀ more, Joins more → ahead more) : Gives ns cs [x] ns' := by
  obtain ⟨p, rfl, hp, m, hm, h⟩ := h
  exact ⟨[p], rfl, by simpa using hp, m, hm, fun r more fuel last hr hmore => h r more fuel last hr (hahead more hmore)⟩

theorem Gives.one (h : Gives ns cs [x] ns') : GivesOne Joins ns cs x ns' := by
  obtain ⟨items, hx, hrep, m, hm, h⟩ := h
  obtain ⟨p, rfl⟩ : ∃ p, items = [p] := by
    simpa [List.length_eq_one_iff] using congrArg List.length hx
  exact ⟨p, by simpa using hx, hrep p (by simp), m, hm, h⟩

/-- One character, or several that are read in one step, as one part. -/
theorem gives_step {c : Char} {p : Piece} (hp : p.repeatable = true)
    (h : ∀ (r : Reading) more fuel, Ready r ns → Joins more → 8 ≤ fuel →
      Reading.step { r with rest := c :: (cs ++ more) } fuel c (cs ++ more)
        = some { r with rest := more, items := p :: r.items }) :
    Gives ns (c :: cs) [p.node] ns := by
  refine ⟨[p], rfl, by simpa using hp, 1, by simp, fun r more fuel last hr hmore hfuel hrun => ?_⟩
  obtain ⟨out, hstep, hrun⟩ := run_cons hrun hr.flags rfl
  obtain rfl := Option.some.inj ((h r more fuel hr hmore hfuel).symm.trans hstep)
  rw [← hr.groups, ← hr.names]
  exact hrun

/-! ## Characters -/

theorem literal?_default (c : Char) : Flags.literal? {} c false = some (.word [c]) := by
  have h : Node.ofSet (CharSet.single c) = .word [c] := by
    simp [Node.ofSet, CharSet.single, Char.ofNat_toNat]
  simp [Flags.literal?, Flags.fold, h]

theorem gives_char {c : Char} (hc : isMeta c = false) : Gives ns [c] [.word [c]] ns := by
  refine gives_step (p := .ofNode (.word [c])) rfl fun r more fuel hr _ _ => ?_
  have hne (d : Char) (hd : isMeta d = true) : c ≠ d := by
    rintro rfl
    rw [hc] at hd
    cases hd
  unfold Reading.step
  split
  all_goals first
    | exact absurd rfl (hne _ (by decide))
    | skip
  simp only [hr.flags, literal?_default]
  rfl

theorem readEscape_meta {c : Char} (hc : isMeta c = true) (rest : List Char) :
    readEscape {} (c :: rest) = some (.char c false, rest) := by
  simp only [isMeta, List.contains_iff_mem, List.mem_cons, List.not_mem_nil, or_false] at hc
  rcases hc with rfl | rfl | rfl | rfl | rfl | rfl | rfl | rfl | rfl | rfl | rfl | rfl | rfl | rfl |
    rfl | rfl | rfl | rfl <;> rfl

theorem gives_escaped {c : Char} (hc : isMeta c = true) : Gives ns ['\\', c] [.word [c]] ns := by
  refine gives_step (p := .ofNode (.word [c])) rfl fun r more fuel hr _ _ => ?_
  simp only [Reading.step, hr.flags, List.cons_append, List.nil_append, readEscape_meta hc,
    literal?_default, Option.bind_eq_bind, Option.bind_some]
  rfl

theorem joins_escape (s : String) : Joins (escape s).toList := by
  rw [escape, String.toList_ofList]
  cases s.toList with
  | nil => exact joins_nil
  | cons c cs =>
    rw [List.flatMap_cons]
    by_cases hc : isMeta c = true
    · rw [if_pos hc]
      exact joins_cons (by decide) (by decide)
    · rw [if_neg hc]
      refine joins_cons ?_ ?_ <;>
      · rintro rfl
        exact hc (by decide)

/-- An escaped text is read as its characters. -/
theorem gives_escape (s : String) : Gives ns (escape s).toList (s.toList.map fun c => .word [c]) ns := by
  have hjoins := joins_escape
  rw [escape, String.toList_ofList]
  induction hs : s.toList generalizing s with
  | nil => exact gives_nil
  | cons c cs ih =>
    have hrest := ih (String.ofList cs) (String.toList_ofList ..)
    have hjoin := hjoins (String.ofList cs)
    rw [escape, String.toList_ofList, String.toList_ofList] at hjoin
    rw [List.flatMap_cons]
    by_cases hc : isMeta c = true
    · rw [if_pos hc]
      exact (gives_escaped hc).append hrest hjoin
    · rw [if_neg hc]
      exact (gives_char (by simpa using hc)).append hrest hjoin

/-! ## Classes and conditions -/

theorem gives_boundary : Gives ns ['\\', 'b'] [.look (.wordBoundary true)] ns := by
  refine gives_step (p := .ofNode (.look (.wordBoundary true))) rfl fun r more fuel hr hmore _ => ?_
  have hread : readEscape {} ('b' :: more) = some (.look (.wordBoundary true), more) := by
    show readBoundary {} more = _
    unfold readBoundary
    split
    · exact absurd rfl hmore.2
    · rfl
  simp only [Reading.step, hr.flags, List.cons_append, List.nil_append, hread, Option.bind_eq_bind,
    Option.bind_some]
  rfl

theorem gives_spaces : Gives ns ['\\', 's'] [.ofSet spaces] ns := by
  refine gives_step (p := .ofNode (.ofSet spaces)) rfl fun r more fuel hr _ _ => ?_
  have hread : readEscape {} ('s' :: more) = some (.chars spaces, more) := rfl
  simp only [Reading.step, hr.flags, List.cons_append, List.nil_append, hread, Option.bind_eq_bind,
    Option.bind_some]
  rfl

/-- A set in brackets, by what reading the brackets alone gives. -/
theorem gives_bracket {s : CharSet} {depth : Nat}
    (h : ∀ more fuel, readBracket {} (fuel + 8) (cs ++ more) = some (s, depth, more)) :
    Gives ns ('[' :: cs) [.ofSet s] ns := by
  refine gives_step (p := ⟨.ofSet s, depth, true⟩) rfl fun r more fuel hr _ hfuel => ?_
  obtain ⟨n, rfl⟩ : ∃ n, fuel = n + 8 := ⟨fuel - 8, by omega⟩
  simp only [Reading.step, hr.flags, h, Option.bind_eq_bind, Option.bind_some]
  rfl

/-! ## Repetitions -/

/-- A text repeats the part that it stands behind. -/
def Repeats (op : Char) (ops : List Char) (low : Nat) (high : Option Nat) : Prop :=
  ∀ (r : Reading) p items more fuel out, r.flags = {} → r.items = p :: items → p.repeatable = true → Joins more →
    r.step fuel op (ops ++ more) = some out →
    out = { r with rest := more, flags := {}, items := p.times low high true :: items }

theorem GivesOne.times {ahead : List Char → Prop} {op : Char} {ops : List Char} {low : Nat} {high : Option Nat}
    (h : GivesOne ahead ns cs x ns') (hahead : ∀ more, ahead (op :: (ops ++ more))) (hop : Repeats op ops low high) :
    Gives ns (cs ++ op :: ops) [x.times low high true] ns' := by
  obtain ⟨p, rfl, hp, m, hm, h⟩ := h
  refine ⟨[p.times low high true], rfl, by simp [Piece.times], m + 1, ?_, fun r more fuel last hr hmore hfuel hrun => ?_⟩
  · rw [List.length_append, List.length_cons]
    omega
  rw [show fuel + (m + 1) = (fuel + 1) + m by omega, List.append_assoc, List.cons_append] at hrun
  have hlast := h r _ _ last hr (hahead more) (by omega) hrun
  obtain ⟨out, hstep, hrun⟩ := run_cons hlast hr.flags rfl
  have hout : out = _ := hop _ p r.items more fuel out (by exact hr.flags) rfl hp hmore hstep
  rw [hr.flags]
  exact hout ▸ hrun

theorem readGreed_joins {more : List Char} (h : Joins more) : readGreed more = (true, more) := by
  unfold readGreed
  split
  · exact absurd rfl h.1
  · rfl

theorem repeats_star : Repeats '*' [] 0 none := by
  intro r p items more fuel out hflags hitems hp hmore hstep
  simp only [Reading.step, List.nil_append, readGreed_joins hmore, repeatLast, hitems, hp, if_true, hflags] at hstep
  exact (Option.some.inj hstep).symm

theorem repeats_plus : Repeats '+' [] 1 none := by
  intro r p items more fuel out hflags hitems hp hmore hstep
  simp only [Reading.step, List.nil_append, readGreed_joins hmore, repeatLast, hitems, hp, if_true, hflags] at hstep
  exact (Option.some.inj hstep).symm

/-- A count that can be read is the number that was written. -/
theorem readCount_toDigits {n k : Nat} {more rest : List Char}
    (h : readCount {} (Nat.toDigits 10 n ++ '}' :: more) = some (k, rest)) : k = n ∧ rest = '}' :: more := by
  have hread (ds : List Char) (hds : ∀ d ∈ ds, d.isDigit = true) :
      readDigits false false (ds ++ '}' :: more) = (ds, '}' :: more) := by
    induction ds with
    | nil => rfl
    | cons d ds ih =>
      obtain ⟨hd, hds⟩ := List.forall_mem_cons.1 hds
      simp [readDigits, hd, ih hds]
  have hvalue (ds : List Char) (init : Nat) :
      ds.foldl (fun n c => 10 * n + (c.toNat - 48)) init = Nat.ofDigitChars 10 ds init := by
    induction ds generalizing init with
    | nil => simp
    | cons d ds ih =>
      rw [List.foldl_cons, ih, Nat.ofDigitChars_cons]
      rfl
  obtain ⟨d, ds, hdigits, hd, -⟩ := exists_toDigits n
  have hblank : isBlank d = false := by
    have hne (c : Char) (hc : c.isDigit = false) : d ≠ c := ne_of_isDigit hd hc
    simp only [Char.isDigit, Bool.and_eq_true, decide_eq_true_eq] at hd
    have h1 : 48 ≤ d.toNat := hd.1
    have h2 : d.toNat ≤ 57 := hd.2
    simp only [isBlank, Bool.or_eq_false_iff, Bool.and_eq_false_iff, decide_eq_false_iff_not, beq_eq_false_iff_ne]
    omega
  have hstart : (Nat.toDigits 10 n ++ '}' :: more).dropWhile isBlank = Nat.toDigits 10 n ++ '}' :: more := by
    rw [hdigits, List.cons_append, List.dropWhile_cons_of_neg (by simp [hblank])]
  rw [readCount, hstart, hread _ fun _ => isDigit_of_mem_toDigits] at h
  rw [hdigits] at h
  simp only [← hdigits, hvalue, Nat.ofDigitChars_ten_toDigits] at h
  split at h
  · obtain ⟨rfl, rfl⟩ := Prod.mk.inj (Option.some.inj h)
    exact ⟨rfl, rfl⟩
  · cases h

/-- A number in braces. -/
theorem repeats_count (n : Nat) : Repeats '{' ((toString n).toList ++ ['}']) n (some n) := by
  intro r p items more fuel out hflags hitems hp hmore hstep
  have htext : (toString n).toList = Nat.toDigits 10 n := by simp
  simp only [Reading.step, readCounted, hflags, Flags.skip, Bool.false_eq_true, if_false, htext, List.append_assoc,
    List.cons_append, List.nil_append, Option.bind_eq_bind, Option.bind_eq_some_iff] at hstep
  obtain ⟨⟨low, rest⟩, hlow, hstep⟩ := hstep
  obtain ⟨rfl, rfl⟩ := readCount_toDigits hlow
  simp only [Option.bind_some, Option.any_some, Nat.lt_irrefl, decide_false, Bool.false_eq_true, if_false] at hstep
  change r.repeatLast low (some low) (readGreed more).1 (readGreed more).2 = some out at hstep
  simp only [readGreed_joins hmore, repeatLast, hitems, hp, if_true, hflags] at hstep
  exact (Option.some.inj hstep).symm

/-- What a text is read as, any number of times. -/
theorem Gives.star (h : Gives ns cs [x] ns') : Gives ns (cs ++ ['*']) [x.times 0 none true] ns' :=
  h.one.times (fun _ => joins_cons (by decide) (by decide)) repeats_star

theorem Gives.plus (h : Gives ns cs [x] ns') : Gives ns (cs ++ ['+']) [x.times 1 none true] ns' :=
  h.one.times (fun _ => joins_cons (by decide) (by decide)) repeats_plus

/-! ## Groups -/

theorem Gives.body (h : Gives ns cs xs ns') : GivesBody ns cs [together xs] ns' := by
  obtain ⟨items, rfl, -, m, hm, h⟩ := h
  refine ⟨[], items, by simp [node_concat], m, hm, fun r more fuel last hr hmore hfuel hrun => ?_⟩
  have hlast := h { r with choices := [], items := [] } more fuel last ⟨hr.flags, hr.groups, hr.names⟩
    hmore hfuel hrun
  rwa [List.append_nil] at hlast

/-- One more alternative. -/
theorem GivesBody.bar (h : GivesBody ns cs xs ns') (h' : Gives ns' ds ys ns'') :
    GivesBody ns (cs ++ '|' :: ds) (xs ++ [together ys]) ns'' := by
  obtain ⟨choices, before, rfl, m, hm, h⟩ := h
  obtain ⟨items, rfl, -, n, hn, h'⟩ := h'
  refine ⟨.concat before :: choices, items, by simp [node_concat], m + (n + 1), ?_,
    fun r more fuel last hr hmore hfuel hrun => ?_⟩
  · rw [List.length_append, List.length_cons]
    omega
  rw [show fuel + (m + (n + 1)) = (fuel + n + 1) + m by omega, List.append_assoc, List.cons_append] at hrun
  have hfirst := h r _ _ last hr (joins_cons (by decide) (by decide)) (by omega) hrun
  obtain ⟨out, hstep, hrun⟩ := run_cons hfirst hr.flags rfl
  obtain rfl := Option.some.inj hstep
  have hsecond := h'
    { r with choices := .concat before :: choices, items := [], groups := ns'.length, names := ns' }
    more fuel last ⟨hr.flags, rfl, rfl⟩ hmore hfuel hrun
  rwa [List.append_nil] at hsecond

theorem intercalate_bars {α : Type} (f : α → List Char) (a : α) (as : List α) :
    ['|'].intercalate ((a :: as).map f) = f a ++ as.flatMap fun b => '|' :: f b := by
  induction as generalizing a with
  | nil => simp
  | cons b bs ih =>
    rw [List.map_cons, List.map_cons, List.intercalate_cons_cons, ← List.map_cons, ih b]
    simp

/-- Texts of one kind as alternatives. -/
theorem gives_bars {α : Type} {text : α → List Char} {node : α → Node}
    (h : ∀ a, ∃ xs, together xs = node a ∧ Gives ns (text a) xs ns) (a : α) (as : List α) :
    GivesBody ns (text a ++ as.flatMap fun b => '|' :: text b) ((a :: as).map node) ns := by
  have hfrom : ∀ (cs : List Char) (xs : List Node), GivesBody ns cs xs ns →
      GivesBody ns (cs ++ as.flatMap fun b => '|' :: text b) (xs ++ as.map node) ns := by
    induction as with
    | nil =>
      intro cs xs h
      simpa using h
    | cons b bs ih =>
      intro cs xs hcs
      obtain ⟨ys, hnode, hb⟩ := h b
      have hnext := ih _ _ (hcs.bar hb)
      simpa [hnode] using hnext
  obtain ⟨ys, hnode, ha⟩ := h a
  have hfirst := ha.body
  rw [hnode] at hfirst
  exact hfrom _ _ hfirst

theorem gives_escapes (v : String) (vs : List String) :
    GivesBody ns ((escape v).toList ++ vs.flatMap fun w => '|' :: (escape w).toList)
      ((v :: vs).map fun w => together (w.toList.map fun c => .word [c])) ns :=
  gives_bars (fun w => ⟨_, rfl, gives_escape w⟩) v vs

/-- The name of a group that has been read, and what comes behind it. -/
theorem eq_of_readName {name more rest : List Char} {n : String} (hname : '>' ∉ name)
    (h : readName (name ++ '>' :: more) = some (n, rest)) : n = String.ofList name ∧ rest = more := by
  have hall : ∀ c ∈ name, (c != '>') = true := fun c hc => by
    rw [bne_iff_ne]
    rintro rfl
    exact hname hc
  have hspan : (name ++ '>' :: more).span (· != '>') = (name, '>' :: more) := by
    rw [List.span_eq_takeWhile_dropWhile, List.takeWhile_append_of_pos hall,
      List.dropWhile_append_of_pos hall]
    simp
  unfold readName at h
  rw [hspan] at h
  cases name with
  | nil => cases h
  | cons c cs =>
    simp only at h
    split at h
    · obtain ⟨rfl, rfl⟩ := Prod.mk.inj (Option.some.inj h)
      exact ⟨rfl, rfl⟩
    · cases h

/-- A group in parentheses, by what opening it comes to; nothing behind it changes how it is read. -/
theorem gives_group {opening : List Char} (index : Option Nat) {ns₀ : Names}
    (hopen : ∀ (r : Reading) more out, Ready r ns →
      Reading.readGroup { r with rest := '(' :: (opening ++ more) } (opening ++ more) = some out →
      out = { r with
        rest := more, flags := {}, choices := [], items := []
        frames := ⟨r.choices, r.items, index, {}⟩ :: r.frames, groups := ns₀.length, names := ns₀ })
    (h : GivesBody ns₀ cs xs ns') :
    GivesOne (fun _ => True) ns ('(' :: (opening ++ (cs ++ [')'])))
      (match index with
        | some i => .group i (oneOf xs)
        | none => oneOf xs) ns' := by
  obtain ⟨choices, items, rfl, m, hm, h⟩ := h
  rw [← node_choice (List.cons_ne_nil _ _)]
  generalize hp : Piece.choice (.concat items :: choices) = p
  refine ⟨⟨match index with
    | some i => .group i p.node
    | none => p.node, p.depth + 1, true⟩, rfl, rfl, m + 2, ?_,
    fun r more fuel last hr hmore hfuel hrun => ?_⟩
  · simp only [List.length_cons, List.length_append, List.length_nil]
    omega
  subst hp
  rw [show fuel + (m + 2) = (fuel + 1 + m) + 1 by omega, List.cons_append, List.append_assoc,
    List.append_assoc, List.cons_append, List.nil_append] at hrun
  obtain ⟨out, hstep, hrun⟩ := run_cons hrun hr.flags rfl
  rw [hopen r _ out hr hstep] at hrun
  have hbody := h
    { r with
      flags := {}, frames := ⟨r.choices, r.items, index, {}⟩ :: r.frames, groups := ns₀.length, names := ns₀ }
    (')' :: more) (fuel + 1) last ⟨rfl, rfl, rfl⟩ (joins_cons (by decide) (by decide)) (by omega) hrun
  obtain ⟨closed, hclose, hrun⟩ := run_cons hbody rfl rfl
  obtain rfl := Option.some.inj hclose
  rw [hr.flags]
  cases index with
  | none => exact hrun
  | some i => exact hrun

/-- A group with a name. -/
theorem gives_named (name : List Char) (hname : '>' ∉ name) (hnew : ∀ n ∈ ns, n.1 ≠ String.ofList name)
    (h : GivesBody (ns ++ [(String.ofList name, ns.length + 1)]) cs xs ns') :
    Gives ns ('(' :: (('?' :: 'P' :: '<' :: (name ++ ['>'])) ++ (cs ++ [')'])))
      [.group (ns.length + 1) (oneOf xs)] ns' := by
  have hopen (r : Reading) (more : List Char) (out : Reading) (hr : Ready r ns)
      (hread : Reading.readGroup { r with rest := '(' :: (('?' :: 'P' :: '<' :: (name ++ ['>'])) ++ more) }
        (('?' :: 'P' :: '<' :: (name ++ ['>'])) ++ more) = some out) :
      out = { r with
        rest := more, flags := {}, choices := [], items := []
        frames := ⟨r.choices, r.items, some (ns.length + 1), {}⟩ :: r.frames
        groups := (ns ++ [(String.ofList name, ns.length + 1)]).length
        names := ns ++ [(String.ofList name, ns.length + 1)] } := by
    have hnamed : Reading.openNamed { r with rest := '(' :: '?' :: 'P' :: '<' :: (name ++ ['>'] ++ more) }
        (name ++ '>' :: more) = some out := by
      unfold readGroup at hread
      simp only [hr.flags, Flags.skip, List.cons_append, List.append_assoc, List.nil_append,
        Bool.false_eq_true, if_false] at hread
      simpa only [hr.flags, List.append_assoc, List.cons_append, List.nil_append] using hread
    simp only [openNamed, Option.bind_eq_bind, Option.bind_eq_some_iff] at hnamed
    obtain ⟨⟨n, rest⟩, hname', hnamed⟩ := hnamed
    obtain ⟨rfl, rfl⟩ := eq_of_readName hname hname'
    have hany : r.names.any (·.1 == String.ofList name) = false := by
      rw [hr.names, List.any_eq_false]
      intro n hn
      simpa using hnew n hn
    simp only [hany, Bool.false_eq_true, if_false] at hnamed
    obtain rfl := Option.some.inj hnamed
    simp only [openGroup, hr.flags, hr.groups, hr.names, List.length_append, List.length_singleton,
      Option.isSome_some, if_true]
  exact (gives_group (some (ns.length + 1)) hopen h).gives fun _ _ => trivial

/-- A group that captures nothing, wherever it stands. -/
theorem givesOne_plain (h : GivesBody ns cs xs ns') :
    GivesOne (fun _ => True) ns ('(' :: (['?', ':'] ++ (cs ++ [')']))) (oneOf xs) ns' := by
  have hopen (r : Reading) (more : List Char) (out : Reading) (hr : Ready r ns)
      (hread : Reading.readGroup { r with rest := '(' :: (['?', ':'] ++ more) } (['?', ':'] ++ more) = some out) :
      out = { r with
        rest := more, flags := {}, choices := [], items := []
        frames := ⟨r.choices, r.items, none, {}⟩ :: r.frames, groups := ns.length, names := ns } := by
    unfold readGroup at hread
    simp only [hr.flags, Flags.skip, List.cons_append, Bool.false_eq_true, if_false] at hread
    obtain rfl := Option.some.inj hread
    simp only [openGroup, hr.groups, hr.names, List.nil_append, Option.isSome_none, if_false,
      Bool.false_eq_true]
  exact gives_group none hopen h

theorem gives_plain (h : GivesBody ns cs xs ns') :
    Gives ns ('(' :: (['?', ':'] ++ (cs ++ [')']))) [oneOf xs] ns' :=
  (givesOne_plain h).gives fun _ _ => trivial

/-- A group that is repeated a number of times. -/
theorem gives_counted (h : GivesBody ns cs xs ns') (n : Nat) :
    Gives ns ('(' :: (['?', ':'] ++ (cs ++ [')'])) ++ '{' :: ((toString n).toList ++ ['}']))
      [(oneOf xs).times n (some n) true] ns' :=
  (givesOne_plain h).times (fun _ => trivial) (repeats_count n)

end

/-! ## A whole pattern -/

theorem parse_gives {cs : List Char} {xs : List Node} {ns : Names} {x : Node} {names : Names}
    (h : GivesBody [] cs xs ns) (hlen : 6 ≤ cs.length) (hparse : parse {} cs = .ok (x, names)) :
    x = oneOf xs ∧ names = ns := by
  obtain ⟨choices, items, rfl, m, hm, h⟩ := h
  unfold parse at hparse
  cases hrun : Reading.run (2 * cs.length + 2) { rest := cs, flags := {} } with
  | none => rw [hrun] at hparse; cases hparse
  | some last =>
    rw [hrun] at hparse
    obtain ⟨fuel, hfuel⟩ : ∃ fuel, 2 * cs.length + 2 = (fuel + 8) + m := ⟨2 * cs.length + 2 - m - 8, by omega⟩
    rw [hfuel] at hrun
    have hlast := h { rest := [], flags := {} } [] (fuel + 8) last ⟨rfl, rfl, rfl⟩ joins_nil (by omega)
      (by rwa [List.append_nil])
    obtain rfl := Option.some.inj hlast
    simp only at hparse
    split at hparse
    · cases hparse
    · split at hparse
      · obtain ⟨rfl, rfl⟩ := Prod.mk.inj (Except.ok.inj hparse)
        exact ⟨node_choice (List.cons_ne_nil _ _), rfl⟩
      · cases hparse

end Codemod.Pattern
