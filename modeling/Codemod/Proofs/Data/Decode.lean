/-
Reading the fields of a record that has each field once at most: a field is found wherever it stands, and one
that is left out is not found.
-/
import Mathlib.Algebra.Group.Nat.Defs
import Mathlib.Data.List.Nodup
import Codemod.Data.Decode

namespace Codemod.Data.Value

variable {es : List (String × Value)} {key : String} {v : Value} {α β : Type}

theorem lookup_of_mem (hnodup : (es.map Prod.fst).Nodup) (h : (key, v) ∈ es) : lookup key es = some v := by
  have hfind : es.reverse.find? (fun e => e.1 == key) = some (key, v) := by
    rw [List.find?_eq_some_iff_append]
    obtain ⟨front, back, rfl⟩ := List.append_of_mem h
    refine ⟨by simp, back.reverse, front.reverse, by simp, fun e he => ?_⟩
    have hne : e.1 ≠ key := by
      intro hkey
      rw [List.map_append, List.map_cons, List.nodup_append] at hnodup
      exact (List.nodup_cons.1 hnodup.2.1).1 (List.mem_map.2 ⟨e, List.mem_reverse.1 he, hkey⟩)
    simpa using hne
  rw [lookup, hfind]
  rfl

theorem lookup_eq_none (h : key ∉ es.map Prod.fst) : lookup key es = none := by
  rw [lookup, Option.map_eq_none_iff, List.find?_eq_none]
  intro e he
  have hne : e.1 ≠ key := fun hkey => h (List.mem_map.2 ⟨e, List.mem_reverse.1 he, hkey⟩)
  simpa using hne

/-- Fields of which some are left out. -/
def filled (cells : List (String × Option Value)) : List (String × Value) :=
  cells.filterMap fun (key, o) => o.map (key, ·)

theorem filled_keys (cells : List (String × Option Value)) :
    ((filled cells).map Prod.fst).Sublist (cells.map Prod.fst) := by
  induction cells with
  | nil => exact .slnil
  | cons e cells ih =>
    obtain ⟨k, _ | v⟩ := e
    · exact ih.cons _
    · exact ih.cons_cons _

theorem filled_cons_cons (c d : String × Option Value) (cells : List (String × Option Value)) :
    filled (c :: d :: cells) = filled [c] ++ filled (d :: cells) :=
  List.filterMap_append (l := [c])

/-- A field that may have been left out. -/
theorem lookup_filled {cells : List (String × Option Value)} (hnodup : (cells.map Prod.fst).Nodup) {o : Option Value}
    (h : (key, o) ∈ cells) : lookup key (filled cells) = o := by
  cases o with
  | some v =>
    exact lookup_of_mem ((filled_keys cells).nodup hnodup) (List.mem_filterMap.2 ⟨(key, some v), h, rfl⟩)
  | none =>
    refine lookup_eq_none fun hmem => ?_
    obtain ⟨⟨k, v⟩, he, rfl⟩ := List.mem_map.1 hmem
    obtain ⟨⟨k', o⟩, hcell, ho⟩ := List.mem_filterMap.1 he
    obtain ⟨w, rfl, hw⟩ := Option.map_eq_some_iff.1 ho
    obtain ⟨rfl, rfl⟩ := Prod.mk.inj hw
    have heq := List.inj_on_of_nodup_map hnodup h hcell rfl
    cases (Prod.mk.inj heq).2

/-! ## Fields -/

theorem required_eq {read : Value → Option α} {f : β → Value} {b : β} {a : α} (h : lookup key es = some (f b))
    (hread : read (f b) = some a) : required es key read = some a := by
  rw [required, h]
  exact hread

theorem defaulted_eq {read : Value → Option α} {default a : α} (h : lookup key es = some v) (hread : read v = some a) :
    defaulted es key read default = some a := by
  rw [defaulted, h]
  exact hread

theorem maybe_eq {read : Value → Option α} {f : α → Value} {o : Option α} (h : lookup key es = o.map f)
    (hread : ∀ a ∈ o, f a ≠ .null ∧ read (f a) = some a) : maybe es key read = some o := by
  unfold maybe
  rw [h]
  cases o with
  | none => rfl
  | some a =>
    obtain ⟨hnull, hread⟩ := hread a rfl
    show optional? read (f a) = some (some a)
    unfold optional?
    split
    · next hv => exact absurd hv hnull
    · rw [hread]
      rfl

/-- A list of which every item is read. -/
theorem list?_map {read : Value → Option α} {f : α → Value} {items : List α} (h : ∀ a ∈ items, read (f a) = some a) :
    list? read (.list (items.map f)) = some items := by
  show (items.map f).mapM read = some items
  induction items with
  | nil => rfl
  | cons a items ih =>
    obtain ⟨ha, hitems⟩ := List.forall_mem_cons.1 h
    simp [ha, ih hitems]

/-- What is read of a list is read of its items. -/
theorem exists_of_list? {read : Value → Option α} {as : List α} (h : list? read v = some as) :
    ∃ items, v = .list items ∧ ∀ a ∈ as, ∃ w ∈ items, read w = some a := by
  cases v with
  | list items =>
    refine ⟨items, rfl, ?_⟩
    replace h : items.mapM read = some as := h
    induction items generalizing as with
    | nil =>
      obtain rfl := Option.some.inj h
      nofun
    | cons w items ih =>
      rw [List.mapM_cons] at h
      obtain ⟨a, ha, h⟩ := Option.bind_eq_some_iff.1 h
      obtain ⟨more, hmore, h⟩ := Option.bind_eq_some_iff.1 h
      obtain rfl := Option.some.inj h
      refine List.forall_mem_cons.2 ⟨⟨w, List.mem_cons_self, ha⟩, fun b hb => ?_⟩
      obtain ⟨x, hx, hread⟩ := ih hmore b hb
      exact ⟨x, List.mem_cons_of_mem w hx, hread⟩
  | _ => cases h

theorem nat?_nat {n : Nat} (h : n < 2 ^ 64) : nat? (nat n) = some n := by
  have hbound : (0 : Int) ≤ n ∧ (n : Int) < 0x10000000000000000 := ⟨by omega, by omega⟩
  rw [nat, nat?, if_pos hbound]
  rfl

end Codemod.Data.Value
