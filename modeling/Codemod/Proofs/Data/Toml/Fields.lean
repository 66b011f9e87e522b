/-
The fields of a record that is written as a table: which values they may have, and what is read of them when the
table comes back.
-/
import Codemod.Proofs.Data.Toml.Document

namespace Codemod.Data.Toml

open Value

/-! ## Fields that can be written -/

/-- A field that a table may have, if there is room for as many tables below it. -/
structure Field (room : Nat) (e : String × Value) : Prop where
  bare : BareKey e.1
  line : isLine e.2 = true → Plain maxDepth e.2
  below : ∀ sub ∈ tablesOf e.2, Writable room sub

theorem Writable.of_fields {room : Nat} {es : List (String × Value)} (nodup : (es.map Prod.fst).Nodup)
    (h : ∀ e ∈ es, Field room e) : Writable (room + 1) es :=
  .intro nodup (fun e he => (h e he).bare) (fun e he => (h e he).line) fun e he => (h e he).below

variable {room : Nat} {key : String}

theorem field_null (hkey : BareKey key) : Field room (key, .null) := ⟨hkey, nofun, nofun⟩

theorem field_bool (hkey : BareKey key) (b : Bool) : Field room (key, .bool b) := ⟨hkey, fun _ => .bool b, nofun⟩

theorem field_text (hkey : BareKey key) (s : String) : Field room (key, .text s) := ⟨hkey, fun _ => .text s, nofun⟩

theorem field_int (hkey : BareKey key) {n : Int} (h : Fits n) : Field room (key, .int n) :=
  ⟨hkey, fun _ => .int h, nofun⟩

theorem field_option {α : Type} {f : α → Value} {o : Option α} (hkey : BareKey key)
    (h : ∀ a ∈ o, Field room (key, f a)) : Field room (key, .ofOption f o) := by
  cases o with
  | none => exact field_null hkey
  | some a => exact h a rfl

theorem field_table (hkey : BareKey key) {es : List (String × Value)} (h : Writable room es) :
    Field room (key, .table es) := by
  refine ⟨hkey, nofun, fun sub hsub => ?_⟩
  rw [List.mem_singleton.1 hsub]
  exact h

/-- A list of values none of which is a table. -/
theorem hasHeader_list {α : Type} {f : α → Value} (hf : ∀ a, isTable (f a) = false) (items : List α) :
    hasHeader (.list (items.map f)) = false := by
  cases items with
  | nil => rfl
  | cons a items => simp [hasHeader, hf]

theorem field_list {α : Type} {f : α → Value} {items : List α} (hkey : BareKey key)
    (hf : ∀ a, isTable (f a) = false) (h : ∀ a ∈ items, ∀ room, Plain room (f a)) :
    Field room (key, .list (items.map f)) := by
  refine ⟨hkey, fun _ => .list fun v hv => ?_, fun sub hsub => ?_⟩
  · obtain ⟨a, ha, rfl⟩ := List.mem_map.1 hv
    exact h a ha _
  · rw [tablesOf, if_neg (by simp [hasHeader_list hf])] at hsub
    cases hsub

theorem field_tables {α : Type} {f : α → List (String × Value)} {items : List α} (hkey : BareKey key)
    (h : ∀ a ∈ items, Writable room (f a)) : Field room (key, .list (items.map fun a => .table (f a))) := by
  refine ⟨hkey, fun hline => ?_, fun sub hsub => ?_⟩
  · cases items with
    | nil => exact .list nofun
    | cons a items => simp [isLine, hasHeader, isTable] at hline
  · rw [tablesOf] at hsub
    split at hsub
    · obtain ⟨v, hv, rfl⟩ := List.mem_map.1 hsub
      obtain ⟨a, ha, rfl⟩ := List.mem_map.1 hv
      exact h a ha
    · cases hsub

/-! ## Fields that come back -/

theorem kept_option {α : Type} {f : α → Value} (h : ∀ a, kept (f a) = some (f a)) (o : Option α) :
    kept (.ofOption f o) = o.map f := by
  cases o with
  | none => rfl
  | some a => exact h a

theorem kept_list {α : Type} {f : α → Value} (hf : ∀ a, isTable (f a) = false) (items : List α) :
    kept (.list (items.map f)) = some (.list (items.map f)) := by
  rw [kept, if_neg (by simp [isNull]), nodeOf_of_not_hasHeader (hasHeader_list hf items)]
  rfl

theorem kept_tables {α : Type} (f : α → List (String × Value)) (items : List α) :
    kept (.list (items.map fun a => .table (f a))) = some (.list (items.map fun a => .table (restored (f a)))) := by
  cases items with
  | nil => rfl
  | cons a items => rw [kept, if_neg (by simp [isNull]), toValue_tables (by simp)]

/-- Fields under their keys, as they come back. -/
def Finds (es fields : List (String × Value)) : Prop := ∀ e ∈ fields, lookup e.1 es = kept e.2

theorem finds_restored {fields : List (String × Value)} (hnodup : (fields.map Prod.fst).Nodup) :
    Finds (restored fields) fields :=
  fun _ he => lookup_restored hnodup he

variable {es fields : List (String × Value)} {v w : Value} {α : Type} {read : Value → Option α} {a : α}

theorem Finds.required (h : Finds es fields) (hmem : (key, v) ∈ fields) (hkept : kept v = some w)
    (hread : read w = some a) : Value.required es key read = some a := by
  rw [Value.required, h _ hmem, hkept]
  exact hread

theorem Finds.defaulted (h : Finds es fields) (hmem : (key, v) ∈ fields) (hkept : kept v = some w)
    (hread : read w = some a) (default : α) : Value.defaulted es key read default = some a :=
  defaulted_eq ((h _ hmem).trans hkept) hread

theorem Finds.maybe {f : α → Value} {o : Option α} (h : Finds es fields) (hmem : (key, .ofOption f o) ∈ fields)
    (hkept : ∀ a, kept (f a) = some (f a)) (hread : ∀ a ∈ o, f a ≠ .null ∧ read (f a) = some a) :
    Value.maybe es key read = some o :=
  maybe_eq ((h _ hmem).trans (kept_option hkept o)) hread

/-! ## Fields of each kind -/

section

variable {items : List String} {s : String} {b : Bool}

theorem kept_texts (items : List String) : kept (.list (items.map .text)) = some (.list (items.map .text)) :=
  kept_list (fun _ => rfl) items

theorem list?_texts (items : List String) : list? text? (.list (items.map .text)) = some items :=
  list?_map fun _ _ => rfl

theorem field_texts (hkey : BareKey key) (items : List String) : Field room (key, .list (items.map .text)) :=
  field_list hkey (fun _ => rfl) fun s _ _ => .text s

theorem Finds.text (h : Finds es fields) (hmem : (key, .text s) ∈ fields) : Value.required es key text? = some s :=
  h.required hmem rfl rfl

theorem Finds.textOr (h : Finds es fields) (hmem : (key, .text s) ∈ fields) (default : String) :
    Value.defaulted es key text? default = some s :=
  have hfound : lookup key es = some (.text s) := h _ hmem
  defaulted_eq hfound rfl

theorem Finds.boolOr (h : Finds es fields) (hmem : (key, .bool b) ∈ fields) (default : Bool) :
    Value.defaulted es key bool? default = some b :=
  have hfound : lookup key es = some (.bool b) := h _ hmem
  defaulted_eq hfound rfl

theorem Finds.texts (h : Finds es fields) (hmem : (key, .list (items.map .text)) ∈ fields) :
    Value.required es key (list? text?) = some items :=
  h.required hmem (kept_texts items) (list?_texts items)

theorem Finds.textsOr (h : Finds es fields) (hmem : (key, .list (items.map .text)) ∈ fields) (default : List String) :
    Value.defaulted es key (list? text?) default = some items :=
  h.defaulted hmem (kept_texts items) (list?_texts items) default

theorem Finds.maybeText {o : Option String} (h : Finds es fields) (hmem : (key, .ofOption .text o) ∈ fields) :
    Value.maybe es key text? = some o :=
  h.maybe hmem (fun _ => rfl) fun _ _ => ⟨nofun, rfl⟩

end

end Codemod.Data.Toml
