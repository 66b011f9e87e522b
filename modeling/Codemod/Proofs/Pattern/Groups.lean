/-
The numbers of the groups in a pattern. `x.Grouped p` says that `p` holds of all of them; matching such a
pattern closes no other groups (`Leads.groups`). Of a choice whose first alternative has a group of its own,
every match is one of the first alternative or one with the groups of the others (`leads_eitherWithin`),
whatever they start with in common.
-/
import Codemod.Proofs.Pattern.Build

namespace Codemod.Pattern

open Text Unicode

namespace Node

/-- The groups have numbers of which `p` holds, and no loop asks for more rounds than it allows. -/
def Grouped (p : Nat → Prop) : Node → Prop
  | group i x => p i ∧ x.Grouped p
  | seq x y => x.Grouped p ∧ y.Grouped p
  | alt x y => x.Grouped p ∧ y.Grouped p
  | loop x low high _ => x.Grouped p ∧ ∀ limit, high = some limit → low ≤ limit
  | _ => True

variable {p q : Nat → Prop} {x y z : Node} {xs ys : List Node} {t u : Trail}

theorem Grouped.mono (h : x.Grouped p) (hpq : ∀ i, p i → q i) : x.Grouped q := by
  induction x with
  | empty | word | chars | look => trivial
  | group i x ih => exact ⟨hpq i h.1, ih h.2⟩
  | seq x y ihx ihy | alt x y ihx ihy => exact ⟨ihx h.1, ihy h.2⟩
  | loop x low high greedy ih => exact ⟨ih h.1, h.2⟩

theorem grouped_of_simple (h : x.simple = true) : x.Grouped fun _ => True := by
  induction x with
  | empty | word | chars | look => trivial
  | group i x ih => exact ⟨trivial, ih h⟩
  | seq x y ihx ihy | alt x y ihx ihy =>
    simp only [simple, Bool.and_eq_true] at h
    exact ⟨ihx h.1, ihy h.2⟩
  | loop x low high greedy ih =>
    cases high with
    | none =>
      simp only [simple, Bool.and_eq_true] at h
      exact ⟨ih (simple_of_flat h.1), fun _ hnone => by cases hnone⟩
    | some high =>
      simp only [simple, Bool.and_eq_true, beq_iff_eq] at h
      exact ⟨ih h.1, fun limit hlimit => Nat.le_of_eq (h.2.trans (Option.some.inj hlimit))⟩

/-! ## Matching closes the groups of the pattern -/

/-- What matching adds to the groups that were closed before. -/
def Closes (p : Nat → Prop) (t u : Trail) : Prop := ∃ gs, u.groups = gs ++ t.groups ∧ ∀ g ∈ gs, p g.1

theorem Closes.refl (p : Nat → Prop) (t : Trail) : Closes p t t := ⟨[], rfl, nofun⟩

theorem Closes.trans {v : Trail} (h : Closes p t u) (h' : Closes p u v) : Closes p t v := by
  obtain ⟨gs, hu, hgs⟩ := h
  obtain ⟨gs', hv, hgs'⟩ := h'
  refine ⟨gs' ++ gs, by rw [hv, hu, List.append_assoc], fun g hg => ?_⟩
  rcases List.mem_append.1 hg with hg | hg
  · exact hgs' g hg
  · exact hgs g hg

theorem Leads.groups (hx : x.Grouped p) (h : x.Leads t u) : Closes p t u := by
  induction x generalizing t u with
  | empty => exact (show u = t from h) ▸ .refl p t
  | word cs =>
    obtain ⟨-, rfl⟩ := h
    exact ⟨[], rfl, nofun⟩
  | chars s =>
    obtain ⟨c, d, -, -, rfl⟩ := h
    exact ⟨[], rfl, nofun⟩
  | look l =>
    obtain ⟨-, rfl⟩ := h
    exact .refl p u
  | group i x ih =>
    obtain ⟨v, hv, rfl⟩ := h
    obtain ⟨gs, hgroups, hgs⟩ := ih hx.2 hv
    refine ⟨(i, t.place, v.place) :: gs, by rw [hgroups, List.cons_append], ?_⟩
    exact List.forall_mem_cons.2 ⟨hx.1, hgs⟩
  | seq x y ihx ihy =>
    obtain ⟨v, hv, hu⟩ := h
    exact (ihx hx.1 hv).trans (ihy hx.2 hu)
  | alt x y ihx ihy =>
    rcases h with h | h
    · exact ihx hx.1 h
    · exact ihy hx.2 h
  | loop x low high greedy ih =>
    obtain ⟨n, -, -, h⟩ := h
    induction n generalizing t with
    | zero => exact (show u = t from h) ▸ .refl p t
    | succ n ihn =>
      obtain ⟨v, hv, hrest⟩ := h
      exact (ih hx.1 hv).trans (ihn hrest)

/-! ## The groups of what nodes are put together to -/

theorem grouped_ofSet (s : CharSet) : (ofSet s).Grouped p := by
  unfold ofSet
  split
  · split <;> trivial
  · trivial

theorem grouped_join (hx : x.Grouped p) (hy : y.Grouped p) : (join x y).Grouped p := by
  unfold join
  split
  · exact hx
  · trivial
  · exact ⟨trivial, hy.2⟩
  · exact ⟨hx, hy⟩

theorem grouped_cat (hx : x.Grouped p) (hy : y.Grouped p) : (cat x y).Grouped p := by
  fun_induction cat x y with
  | case1 y => exact hy
  | case2 y a b ih => exact grouped_join hx.1 (ih hx.2 hy)
  | case3 => exact grouped_join hx hy

theorem grouped_concat (h : ∀ x ∈ xs, x.Grouped p) : (concat xs).Grouped p := by
  induction xs with
  | nil => trivial
  | cons x xs ih =>
    obtain ⟨hx, hxs⟩ := List.forall_mem_cons.1 h
    exact grouped_cat hx (ih hxs)

theorem Grouped.parts (hx : x.Grouped p) : ∀ z ∈ x.parts, z.Grouped p := by
  fun_induction Node.parts x with
  | case1 => nofun
  | case2 x y ih => exact List.forall_mem_cons.2 ⟨hx.1, ih hx.2⟩
  | case3 => simpa using hx

theorem Grouped.choices (hx : x.Grouped p) : ∀ z ∈ x.choices, z.Grouped p := by
  fun_induction Node.choices x with
  | case1 x y ih => exact List.forall_mem_cons.2 ⟨hx.1, ih hx.2⟩
  | case2 => simpa using hx

theorem grouped_ofChoices (h : ∀ x ∈ xs, x.Grouped p) : (ofChoices xs).Grouped p := by
  fun_induction ofChoices xs with
  | case1 => trivial
  | case2 x => exact h x (by simp)
  | case3 x xs hne ih =>
    obtain ⟨hx, hxs⟩ := List.forall_mem_cons.1 h
    exact ⟨hx, ih hxs⟩

theorem commonStart_isPrefix_left : ∀ xs ys : List Node, commonStart xs ys <+: xs
  | [], _ => by simp [commonStart]
  | _ :: _, [] => by simp [commonStart]
  | x :: xs, y :: ys => by
    unfold commonStart
    split
    · exact List.cons_prefix_cons.2 ⟨rfl, commonStart_isPrefix_left xs ys⟩
    · exact List.nil_prefix

theorem commonStart_isPrefix_right : ∀ xs ys : List Node, commonStart xs ys <+: ys
  | [], _ => by simp [commonStart]
  | _ :: _, [] => by simp [commonStart]
  | x :: xs, y :: ys => by
    unfold commonStart
    split
    · next hxy => exact List.cons_prefix_cons.2 ⟨hxy, commonStart_isPrefix_right xs ys⟩
    · exact List.nil_prefix

theorem foldl_commonStart (start : List Node) (ys : List Node) :
    ys.foldl (fun s y => commonStart s y.parts) start <+: start ∧
      ∀ y ∈ ys, ys.foldl (fun s y => commonStart s y.parts) start <+: y.parts := by
  induction ys generalizing start with
  | nil => exact ⟨List.prefix_refl _, nofun⟩
  | cons y ys ih =>
    obtain ⟨hstart, hys⟩ := ih (commonStart start y.parts)
    rw [List.foldl_cons]
    refine ⟨hstart.trans (commonStart_isPrefix_left _ _), List.forall_mem_cons.2 ⟨?_, hys⟩⟩
    exact hstart.trans (commonStart_isPrefix_right _ _)

/-- All alternatives start with what they have in common. -/
theorem sharedStart_isPrefix (hx : x ∈ xs) : sharedStart xs <+: x.parts := by
  unfold sharedStart
  split
  · next y ys =>
    split
    · obtain ⟨hfirst, hothers⟩ := foldl_commonStart y.parts ys
      rcases List.mem_cons.1 hx with rfl | hx
      · exact hfirst
      · exact hothers x hx
    · exact List.nil_prefix
  · cases hx

theorem grouped_eitherWithin (n : Nat) (h : ∀ x ∈ xs, x.Grouped p) : (eitherWithin n xs).Grouped p := by
  induction n generalizing xs with
  | zero => exact grouped_ofChoices h
  | succ n ih =>
    have hall : ∀ z ∈ xs.flatMap choices, z.Grouped p := by
      intro z hz
      obtain ⟨x, hx, hz⟩ := List.mem_flatMap.1 hz
      exact (h x hx).choices z hz
    rw [eitherWithin]
    generalize xs.flatMap choices = ys at hall
    split
    · exact hall _ (by simp)
    · split
      · exact grouped_ofSet _
      · split
        · exact grouped_ofSet _
        · split
          · exact grouped_ofChoices hall
          · next hnil =>
            refine grouped_concat fun z hz => ?_
            rcases List.mem_append.1 hz with hz | hz
            · cases ys with
              | nil => cases hz
              | cons y ys => exact (hall y (by simp)).parts z ((sharedStart_isPrefix (by simp)).subset hz)
            · rw [List.mem_singleton] at hz
              subst hz
              refine ih fun z hz => ?_
              obtain ⟨y, hy, rfl⟩ := List.mem_map.1 hz
              exact grouped_concat fun w hw => (hall y hy).parts w (List.mem_of_mem_drop hw)

theorem grouped_either (h : ∀ x ∈ xs, x.Grouped p) : (either xs).Grouped p := grouped_eitherWithin _ h

theorem grouped_times (hx : x.Grouped p) {low : Nat} {high : Option Nat}
    (hle : ∀ limit, high = some limit → low ≤ limit) (greedy : Bool) : (x.times low high greedy).Grouped p := by
  have hloop {low : Nat} {high : Option Nat} (hle : ∀ limit, high = some limit → low ≤ limit) :
      (if high == some 0 then empty else if low == 1 && high == some 1 then x
        else loop x low high greedy).Grouped p := by
    split
    · trivial
    · split
      · exact hx
      · exact ⟨hx, hle⟩
  refine hloop fun limit hlimit => ?_
  split at hlimit
  · rw [if_pos ‹_›]
    cases high with
    | none =>
      obtain rfl := Option.some.inj hlimit
      exact Nat.min_le_right low 1
    | some most =>
      obtain rfl := Option.some.inj hlimit
      have := hle most rfl
      show min low 1 ≤ min most 1
      omega
  · rw [if_neg ‹_›]
    exact hle limit hlimit

/-! ## A choice with a group of its own in front -/

theorem leadsAll_parts : LeadsAll x.parts t u ↔ x.Leads t u := by
  fun_induction Node.parts x generalizing t with
  | case1 => rfl
  | case2 x y ih => exact exists_congr fun v => and_congr_right fun _ => ih
  | case3 => simp [LeadsAll]

/-- Conditions on the place and a group stay parts of their own. -/
theorem parts_cat (hx : (∃ i z, x = group i z) ∨ ∃ l, x = look l) (y : Node) : (cat x y).parts = x :: y.parts := by
  have hjoin : (join x y).parts = x :: y.parts := by
    unfold join
    split
    · rcases hx with ⟨i, z, rfl⟩ | ⟨l, rfl⟩ <;> rfl
    · rcases hx with ⟨i, z, h⟩ | ⟨l, h⟩ <;> cases h
    · rcases hx with ⟨i, z, h⟩ | ⟨l, h⟩ <;> cases h
    · rfl
  rcases hx with ⟨i, z, rfl⟩ | ⟨l, rfl⟩
  · exact hjoin
  · exact hjoin

theorem leadsAll_looks (h : ∀ x ∈ xs, ∃ l, x = look l) (hleads : LeadsAll xs t u) : u = t := by
  induction xs generalizing t with
  | nil => exact hleads
  | cons x xs ih =>
    obtain ⟨⟨l, rfl⟩, hxs⟩ := List.forall_mem_cons.1 h
    obtain ⟨v, ⟨-, rfl⟩, hrest⟩ := hleads
    exact ih hxs hrest

/-- The node starts with conditions on the place and a group of a certain number. -/
def Opens (i : Nat) (x : Node) : Prop :=
  ∃ looks z rest, x.parts = looks ++ group i z :: rest ∧ ∀ y ∈ looks, ∃ l, y = look l

theorem Opens.cases {i : Nat} (h : x.Opens i) : (∃ y z, x = seq y z) ∨ ∃ z, x = group i z := by
  obtain ⟨looks, z, rest, hparts, -⟩ := h
  unfold parts at hparts
  split at hparts
  · simp at hparts
  · exact .inl ⟨_, _, rfl⟩
  · cases looks with
    | nil => exact .inr ⟨z, (List.cons.inj hparts).1⟩
    | cons y looks => simp at hparts

theorem opens_concat {i : Nat} {looks rest : List Node} (z : Node) (hlooks : ∀ y ∈ looks, ∃ l, y = look l) :
    (concat (looks ++ group i z :: rest)).Opens i := by
  refine ⟨looks, z, (concat rest).parts, ?_, hlooks⟩
  induction looks with
  | nil => exact parts_cat (.inl ⟨i, z, rfl⟩) _
  | cons y looks ih =>
    obtain ⟨hy, hlooks⟩ := List.forall_mem_cons.1 hlooks
    rw [List.cons_append, concat, List.foldr_cons, parts_cat (.inr hy)]
    exact congrArg _ (ih hlooks)

theorem isPrefix_of_notMem {α : Type} {as bs cs : List α} {b : α} (h : cs <+: as ++ b :: bs) (hb : b ∉ cs) :
    cs <+: as := by
  have hfront : as ++ [b] <+: as ++ b :: bs := ⟨bs, by simp⟩
  rcases List.prefix_or_prefix_of_prefix h hfront with hle | hle
  · rcases List.prefix_concat_iff.1 hle with rfl | hle
    · simp at hb
    · exact hle
  · exact absurd (hle.subset (by simp)) hb

/-- **A match of a choice whose first alternative starts with a group of its own** is one of that
alternative, or it has the groups of the others. -/
theorem leads_eitherWithin (n : Nat) {i : Nat} (hi : ¬ p i) (hx : x.Opens i) (hys : ∀ y ∈ ys, y.Grouped p)
    (h : (eitherWithin n (x :: ys)).Leads t u) : x.Leads t u ∨ ∃ y : Node, y.Grouped p ∧ y.Leads t u := by
  have hchoices {x : Node} {ys : List Node} (hys : ∀ y ∈ ys, y.Grouped p)
      (h : (ofChoices (x :: ys)).Leads t u) : x.Leads t u ∨ ∃ y : Node, y.Grouped p ∧ y.Leads t u := by
    obtain ⟨y, hy, h⟩ := leads_ofChoices.1 h
    rcases List.mem_cons.1 hy with heq | hy
    · exact .inl (heq ▸ h)
    · exact .inr ⟨y, hys y hy, h⟩
  induction n generalizing x ys with
  | zero => exact hchoices hys h
  | succ n ih =>
    have hself : x.choices = [x] ∧ x.char? = none ∧ x.set? = none := by
      rcases hx.cases with ⟨y, z, rfl⟩ | ⟨z, rfl⟩
      · exact ⟨rfl, rfl, rfl⟩
      · exact ⟨rfl, rfl, rfl⟩
    have hall : ∀ z ∈ ys.flatMap choices, z.Grouped p := by
      intro z hz
      obtain ⟨y, hy, hz⟩ := List.mem_flatMap.1 hz
      exact (hys y hy).choices z hz
    rw [eitherWithin, List.flatMap_cons, hself.1, List.singleton_append] at h
    generalize ys.flatMap choices = zs at h hall
    simp only [mapM_eq_none (List.mem_cons_self (a := x) (l := zs)) hself.2.1,
      mapM_eq_none (List.mem_cons_self (a := x) (l := zs)) hself.2.2] at h
    split at h
    · next hone =>
      obtain ⟨rfl, -⟩ := List.cons.inj hone
      exact .inl h
    · next hmore =>
      split at h
      · exact hchoices hall h
      · obtain ⟨looks, z, rest, hparts, hlooks⟩ := hx
        obtain ⟨y, hy⟩ : ∃ y, y ∈ zs := by
          cases zs with
          | nil => exact absurd rfl (hmore x)
          | cons y zs => exact ⟨y, by simp⟩
        -- the group is in no other alternative, so only conditions can be shared
        have hgroup : group i z ∉ sharedStart (x :: zs) := fun hmem =>
          hi ((hall y hy).parts _ ((sharedStart_isPrefix (List.mem_cons_of_mem x hy)).subset hmem)).1
        have hstart := isPrefix_of_notMem (hparts ▸ sharedStart_isPrefix List.mem_cons_self) hgroup
        generalize sharedStart (x :: zs) = shared at h hstart
        obtain ⟨looks, rfl⟩ := hstart
        obtain ⟨hshared, hlooks⟩ := List.forall_mem_append.1 hlooks
        rw [leads_concat, leadsAll_append] at h
        obtain ⟨v, hfirst, w, h, hw⟩ := h
        obtain rfl : u = w := hw
        obtain rfl := leadsAll_looks hshared hfirst
        have hdrop : x.parts.drop shared.length = looks ++ group i z :: rest := by
          rw [hparts, List.append_assoc, List.drop_left]
        rw [List.map_cons, hdrop] at h
        have hrest : ∀ y ∈ zs.map fun y => concat (y.parts.drop shared.length), y.Grouped p := by
          intro y' hy'
          obtain ⟨y, hy, rfl⟩ := List.mem_map.1 hy'
          exact grouped_concat fun w hw => (hall y hy).parts w (List.mem_of_mem_drop hw)
        refine (ih (opens_concat z hlooks) hrest h).imp_left fun hleads => ?_
        rw [← leadsAll_parts, hparts, List.append_assoc, leadsAll_append]
        exact ⟨v, hfirst, leads_concat.1 hleads⟩

end Node

end Codemod.Pattern
