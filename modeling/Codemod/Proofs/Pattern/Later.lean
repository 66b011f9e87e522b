/-
Reading on behind the first alternative of a pattern, whatever stands there. The first alternative stays
what it is, the names of its groups stay taken, and every group that is opened later gets a later number
(`Behind`, kept by `Behind.step`). So a pattern that starts with a known alternative is read as a choice
between it and others with later groups (`parse_first`). With nothing known of a pattern, this says that its
groups are numbered and its loops can be gone through (`parse_grouped`).
-/
import Codemod.Proofs.Pattern.Groups
import Codemod.Proofs.Pattern.Reading

namespace Codemod.Pattern

open Text Unicode Reading

/-- Parts with no group up to a number. -/
def Above (n : Nat) (items : List Piece) : Prop := ∀ q ∈ items, q.node.Grouped (n < ·)

/-- The alternatives of the innermost group, and what waits in the groups around it. The first alternatives
of the whole pattern are `firsts`; everything else has later groups. -/
def Outer (firsts : List Piece) (n : Nat) : List Piece → List Frame → Prop
  | choices, [] => ∃ later, choices = later ++ firsts ∧ Above n later
  | choices, f :: frames =>
    Above n choices ∧ Above n f.items ∧ (∀ i, f.index = some i → n < i) ∧ Outer firsts n f.choices frames

/-- A reading that has `firsts` behind it, with the groups `ns`. -/
structure Behind (firsts : List Piece) (ns : Names) (r : Reading) : Prop where
  items : Above ns.length r.items
  outer : Outer firsts ns.length r.choices r.frames
  groups : ns.length ≤ r.groups
  names : ns <+: r.names

section

variable {firsts : List Piece} {n : Nat} {items choices : List Piece} {frames : List Frame} {p : Piece}

theorem above_nil (n : Nat) : Above n [] := nofun

theorem above_cons : Above n (p :: items) ↔ p.node.Grouped (n < ·) ∧ Above n items := List.forall_mem_cons

theorem grouped_literal {f : Flags} {c : Char} {octet : Bool} {x : Node} (h : f.literal? c octet = some x) :
    x.Grouped (n < ·) := by
  unfold Flags.literal? at h
  split at h
  · cases h
  · exact Option.some.inj h ▸ Node.grouped_ofSet _

theorem grouped_dot {f : Flags} {x : Node} (h : f.dot? = some x) : x.Grouped (n < ·) := by
  unfold Flags.dot? at h
  split at h
  · cases h
  · split at h
    · exact Option.some.inj h ▸ trivial
    · split at h
      · exact Option.some.inj h ▸ trivial
      · exact Option.some.inj h ▸ trivial

theorem Above.reverse (h : Above n items) : ∀ x ∈ items.reverse.map Piece.node, x.Grouped (n < ·) := by
  intro x hx
  obtain ⟨q, hq, rfl⟩ := List.mem_map.1 hx
  exact h q (List.mem_reverse.1 hq)

theorem Above.concat (h : Above n items) : (Piece.concat items).node.Grouped (n < ·) := by
  unfold Piece.concat
  split
  · trivial
  · exact h _ (by simp)
  · exact Node.grouped_concat h.reverse

theorem Above.choice (h : Above n items) : (Piece.choice items).node.Grouped (n < ·) := by
  unfold Piece.choice
  split
  · trivial
  · exact h _ (by simp)
  · exact Node.grouped_either h.reverse

theorem Outer.cons (h : Outer firsts n choices frames) (hp : p.node.Grouped (n < ·)) :
    Outer firsts n (p :: choices) frames := by
  cases frames with
  | nil =>
    obtain ⟨later, rfl, hlater⟩ := h
    exact ⟨p :: later, rfl, above_cons.2 ⟨hp, hlater⟩⟩
  | cons f frames => exact ⟨above_cons.2 ⟨hp, h.1⟩, h.2⟩

end

namespace Behind

variable {firsts : List Piece} {ns : Names} {r r' : Reading} {rest : List Char}

theorem push (h : Behind firsts ns r) {p : Piece} (hp : p.node.Grouped (ns.length < ·)) :
    Behind firsts ns (r.push p rest) :=
  ⟨above_cons.2 ⟨hp, h.items⟩, h.outer, h.groups, h.names⟩

theorem bar (h : Behind firsts ns r) :
    Behind firsts ns { r with rest, choices := .concat r.items :: r.choices, items := [] } :=
  ⟨above_nil _, h.outer.cons h.items.concat, h.groups, h.names⟩

theorem openGroup (h : Behind firsts ns r) {index : Option Nat} (hindex : ∀ i, index = some i → i = r.groups + 1)
    (flags : Flags) : Behind firsts ns (r.openGroup index flags rest) := by
  have hlater : ∀ i, index = some i → ns.length < i := by
    intro i hi
    rw [hindex i hi]
    exact Nat.lt_succ_of_le h.groups
  refine ⟨above_nil _, ⟨above_nil _, h.items, hlater, h.outer⟩, ?_, h.names⟩
  show ns.length ≤ if index.isSome then r.groups + 1 else r.groups
  split
  · exact Nat.le_succ_of_le h.groups
  · exact h.groups

theorem openNamed (h : Behind firsts ns r) (hr : r.openNamed rest = some r') : Behind firsts ns r' := by
  unfold Reading.openNamed at hr
  simp only [Option.bind_eq_bind, Option.bind_eq_some_iff] at hr
  obtain ⟨⟨name, rest'⟩, -, hr⟩ := hr
  split at hr
  · simp at hr
  · obtain rfl := Option.some.inj hr
    have hopen : Behind firsts ns (r.openGroup (some (r.groups + 1)) r.flags rest') :=
      h.openGroup (fun i hi => (Option.some.inj hi).symm) r.flags
    exact ⟨hopen.items, hopen.outer, hopen.groups, h.names.trans (List.prefix_append _ _)⟩

theorem readGroup (h : Behind firsts ns r) (hr : r.readGroup rest = some r') : Behind firsts ns r' := by
  unfold Reading.readGroup at hr
  split at hr
  · cases hr
  · cases hr
  · cases hr
  · cases hr
  · exact h.openNamed hr
  · exact h.openNamed hr
  · simp only [Option.bind_eq_bind, Option.bind_eq_some_iff] at hr
    obtain ⟨⟨flags, any, closing, rest'⟩, -, hr⟩ := hr
    simp only at hr
    split at hr
    · split at hr
      · obtain rfl := Option.some.inj hr
        have hpush : Behind firsts ns (r.push .empty rest') := h.push trivial
        exact ⟨hpush.items, hpush.outer, hpush.groups, hpush.names⟩
      · cases hr
    · obtain rfl := Option.some.inj hr
      exact h.openGroup (by simp) flags
  · obtain rfl := Option.some.inj hr
    exact h.openGroup (fun i hi => (Option.some.inj hi).symm) r.flags

theorem closeGroup (h : Behind firsts ns r) (hr : r.closeGroup rest = some r') : Behind firsts ns r' := by
  obtain ⟨hitems, houter, hgroups, hnames⟩ := h
  unfold Reading.closeGroup at hr
  split at hr
  · cases hr
  · next frame frames hframes =>
    obtain rfl := Option.some.inj hr
    rw [hframes] at houter
    obtain ⟨hchoices, hframe, hindex, hrest⟩ := houter
    have hbody : r.body.node.Grouped (ns.length < ·) := Above.choice (above_cons.2 ⟨hitems.concat, hchoices⟩)
    refine ⟨above_cons.2 ⟨?_, hframe⟩, hrest, hgroups, hnames⟩
    dsimp only
    split
    · next i hi => exact ⟨hindex i hi, hbody⟩
    · exact hbody

theorem repeatLast (h : Behind firsts ns r) {low : Nat} {high : Option Nat} {greedy : Bool}
    (hle : ∀ limit, high = some limit → low ≤ limit) (hr : r.repeatLast low high greedy rest = some r') :
    Behind firsts ns r' := by
  unfold Reading.repeatLast at hr
  split at hr
  · next p items hitems =>
    split at hr
    · obtain rfl := Option.some.inj hr
      obtain ⟨hp, hitems⟩ := above_cons.1 (hitems ▸ h.items)
      exact ⟨above_cons.2 ⟨Node.grouped_times hp hle _, hitems⟩, h.outer, h.groups, h.names⟩
    · cases hr
  · cases hr

theorem readCounted (h : Behind firsts ns r) (hr : r.readCounted rest = some r') : Behind firsts ns r' := by
  have finish {low : Nat} {high : Option Nat} {greedy : Bool} {rest : List Char}
      (hr : (if high.any (· < low) = true then none else r.repeatLast low high greedy rest) = some r') :
      Behind firsts ns r' := by
    split at hr
    · cases hr
    · next hle =>
      refine h.repeatLast (fun limit hlimit => ?_) hr
      rw [hlimit] at hle
      simpa using hle
  unfold Reading.readCounted at hr
  simp only [Option.bind_eq_bind, Option.bind_eq_some_iff] at hr
  obtain ⟨⟨low, rest₁⟩, -, hr⟩ := hr
  simp only [Option.bind_some, Option.bind_none] at hr
  split at hr
  · split at hr
    · exact finish hr
    · obtain ⟨⟨high, rest₂⟩, -, hr⟩ := Option.bind_eq_some_iff.1 hr
      split at hr
      · exact finish hr
      · cases hr
  · split at hr
    · exact finish hr
    · cases hr

/-- **Every step of reading keeps the first alternative apart.** -/
theorem step (h : Behind firsts ns r) {fuel : Nat} {c : Char} (hr : r.step fuel c rest = some r') :
    Behind firsts ns r' := by
  unfold Reading.step at hr
  split at hr
  · exact h.readGroup hr
  · exact h.closeGroup hr
  · obtain rfl := Option.some.inj hr
    exact h.bar
  · simp only [Option.bind_eq_bind, Option.bind_eq_some_iff] at hr
    obtain ⟨⟨s, depth, rest'⟩, -, hr⟩ := hr
    obtain rfl := Option.some.inj hr
    exact h.push (Node.grouped_ofSet s)
  · exact h.repeatLast (by simp) hr
  · exact h.repeatLast (by simp) hr
  · exact h.repeatLast (by simp) hr
  · exact h.readCounted hr
  · simp only [Option.bind_eq_bind, Option.bind_eq_some_iff] at hr
    obtain ⟨⟨primitive, rest'⟩, -, hr⟩ := hr
    cases primitive with
    | char c octet =>
      obtain ⟨node, hnode, hr⟩ := Option.bind_eq_some_iff.1 hr
      exact Option.some.inj hr ▸ h.push (grouped_literal hnode)
    | chars s => exact Option.some.inj hr ▸ h.push (Node.grouped_ofSet s)
    | look l => exact Option.some.inj hr ▸ h.push (p := .ofNode (.look l)) trivial
  · simp only [Option.bind_eq_bind, Option.bind_eq_some_iff] at hr
    obtain ⟨node, hnode, hr⟩ := hr
    obtain rfl := Option.some.inj hr
    exact h.push (grouped_dot hnode)
  · exact Option.some.inj hr ▸ h.push (p := .ofNode (.look _)) trivial
  · exact Option.some.inj hr ▸ h.push (p := .ofNode (.look _)) trivial
  · simp only [Option.bind_eq_bind, Option.bind_eq_some_iff] at hr
    obtain ⟨node, hnode, hr⟩ := hr
    obtain rfl := Option.some.inj hr
    exact h.push (grouped_literal hnode)

theorem run (h : Behind firsts ns r) {fuel : Nat} (hr : Reading.run fuel r = some r') : Behind firsts ns r' := by
  induction fuel generalizing r with
  | zero => cases hr
  | succ fuel ih =>
    rw [Reading.run] at hr
    split at hr
    · exact Option.some.inj hr ▸ h
    · obtain ⟨out, hstep, hr⟩ := Option.bind_eq_some_iff.1 hr
      exact ih (h.step hstep) hr

end Behind

/-- **A pattern that starts with a known alternative** is read as a choice between it and others, all of
whose groups are later ones. -/
theorem parse_first {cs more : List Char} {x y : Node} {ns names : Names} (h : GivesBody [] cs [x] ns)
    (hlen : 6 ≤ cs.length) (hparse : parse {} (cs ++ '|' :: more) = .ok (y, names)) :
    ns <+: names ∧ ∃ others : List Node, (∀ z ∈ others, z.Grouped (ns.length < ·)) ∧ y = .either (x :: others) := by
  obtain ⟨choices, items, hnodes, m, hm, h⟩ := h
  obtain rfl : choices = [] := by
    have hlength := congrArg List.length hnodes
    simpa using hlength
  obtain rfl : (Piece.concat items).node = x := by simpa using hnodes
  unfold parse at hparse
  cases hrun : Reading.run (2 * (cs ++ '|' :: more).length + 2) { rest := cs ++ '|' :: more, flags := {} } with
  | none => rw [hrun] at hparse; cases hparse
  | some last =>
    rw [hrun] at hparse
    have hfuel : ∃ fuel, 2 * (cs ++ '|' :: more).length + 2 = (fuel + 8) + m :=
      ⟨2 * (cs ++ '|' :: more).length + 2 - m - 8, by simp only [List.length_append, List.length_cons]; omega⟩
    obtain ⟨fuel, hfuel⟩ := hfuel
    rw [hfuel] at hrun
    -- up to the bar the alternative is read, and the bar puts it behind
    have hbar := h { rest := [], flags := {} } ('|' :: more) (fuel + 8) last ⟨rfl, rfl, rfl⟩
      (joins_cons (by decide) (by decide)) (by omega) hrun
    obtain ⟨out, hstep, hlast⟩ := run_cons hbar rfl rfl
    obtain rfl := Option.some.inj hstep
    have houter : Outer [.concat items] ns.length [.concat items] [] := ⟨[], rfl, above_nil _⟩
    have hbehind : Behind [.concat items] ns last :=
      Behind.run ⟨above_nil _, houter, Nat.le_refl _, List.prefix_refl _⟩ hlast
    simp only at hparse
    split at hparse
    · cases hparse
    · next hframes =>
      split at hparse
      · obtain ⟨rfl, rfl⟩ := Prod.mk.inj (Except.ok.inj hparse)
        refine ⟨hbehind.names, ?_⟩
        obtain ⟨hnone, -⟩ : last.frames = [] ∧ last.body.depth ≤ nestingLimit := by simpa using hframes
        have houter := hbehind.outer
        rw [hnone] at houter
        obtain ⟨later, hchoices, hlater⟩ := houter
        refine ⟨((Piece.concat last.items :: later).reverse.map Piece.node),
          (above_cons.2 ⟨hbehind.items.concat, hlater⟩).reverse, ?_⟩
        rw [Reading.body, hchoices, node_choice (List.cons_ne_nil _ _)]
        simp [oneOf]
      · cases hparse

/-- **Every pattern that can be read has groups with numbers**, and loops that allow as many rounds as they ask
for. -/
theorem parse_grouped {f : Flags} {cs : List Char} {x : Node} {names : Names} (h : parse f cs = .ok (x, names)) :
    x.Grouped (0 < ·) := by
  unfold parse at h
  cases hrun : Reading.run (2 * cs.length + 2) { rest := cs, flags := f } with
  | none => rw [hrun] at h; cases h
  | some last =>
    rw [hrun] at h
    have hstart : Behind [] [] { rest := cs, flags := f } :=
      ⟨above_nil _, ⟨[], rfl, above_nil _⟩, Nat.zero_le _, List.nil_prefix⟩
    have hlast := hstart.run hrun
    simp only at h
    split at h
    · cases h
    · next hclosed =>
      split at h
      · obtain ⟨rfl, -⟩ := Prod.mk.inj (Except.ok.inj h)
        obtain ⟨hnone, -⟩ : last.frames = [] ∧ last.body.depth ≤ nestingLimit := by simpa using hclosed
        have houter := hlast.outer
        rw [hnone] at houter
        obtain ⟨later, hchoices, hlater⟩ := houter
        rw [List.append_nil] at hchoices
        exact Above.choice (above_cons.2 ⟨hlast.items.concat, hchoices ▸ hlater⟩)
      · cases h

end Codemod.Pattern
