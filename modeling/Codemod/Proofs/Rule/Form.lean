/-
A rule spec that is written as a table is read back from it, whatever its kind (`RuleSpec.ofValue?_restored`): the
fields that are not there come back as their defaults, a replacement as a text or as what it strips. Only the depths
of a relocation are numbers, and those that a spec of a TOML document has are small enough to be written again.
-/
import Codemod.Proofs.Data.Toml.Fields
import Codemod.Proofs.Data.Toml.Range
import Codemod.Rule.Form

namespace Codemod

open Data Toml

/-- Not too large for TOML. -/
def Relocation.Narrow (r : Relocation) : Prop :=
  (∀ n ∈ r.depths, n < 0x8000000000000000) ∧ ∀ n ∈ r.targetDepth, n < 0x8000000000000000

def RuleAction.Narrow : RuleAction → Prop
  | .relocation r => r.Narrow
  | _ => True

def RuleSpec.Narrow (s : RuleSpec) : Prop := s.action.Narrow

/-! ## Specs that were read -/

section

variable {es : List (String × Value)} {key : String} {v : Value}

theorem bounded_lookup (h : ∀ e ∈ es, Bounded e.2) (hv : Value.lookup key es = some v) : Bounded v := by
  obtain ⟨e, he, rfl⟩ := Option.map_eq_some_iff.1 hv
  exact h e (List.mem_reverse.1 (List.mem_of_find?_eq_some he))

theorem lt_of_nat? {n : Nat} (h : Bounded v) (hn : Value.nat? v = some n) : n < 0x8000000000000000 := by
  cases h with
  | int hfits =>
    obtain ⟨-, hlt⟩ := hfits
    obtain ⟨-, hv⟩ := Option.ite_none_right_eq_some.1 hn
    have := Option.some.inj hv
    omega
  | _ => cases hn

theorem lt_of_list? {ns : List Nat} (h : Bounded v) (hns : Value.list? Value.nat? v = some ns) :
    ∀ n ∈ ns, n < 0x8000000000000000 := by
  obtain ⟨items, rfl, hitems⟩ := Value.exists_of_list? hns
  intro n hn
  obtain ⟨w, hw, hread⟩ := hitems n hn
  cases h with
  | list h => exact lt_of_nat? (h w hw) hread

theorem lt_of_optional? {o : Option Nat} (h : Bounded v) (ho : Value.optional? Value.nat? v = some o) :
    ∀ n ∈ o, n < 0x8000000000000000 := by
  unfold Value.optional? at ho
  split at ho
  · obtain rfl := Option.some.inj ho
    nofun
  · obtain ⟨m, hm, rfl⟩ := Option.map_eq_some_iff.1 ho
    intro n hn
    obtain rfl := Option.some.inj hn
    exact lt_of_nat? h hm

theorem Relocation.narrow_of_entries {r : Relocation} (h : ∀ e ∈ es, Bounded e.2) (hr : ofEntries? es = some r) :
    r.Narrow := by
  simp only [ofEntries?, Option.bind_eq_bind, Option.bind_eq_some_iff] at hr
  obtain ⟨source, -, target, -, depths, hdepths, depth, hdepth, directory, -, hr⟩ := hr
  obtain rfl := Option.some.inj hr
  constructor
  · rw [Value.defaulted] at hdepths
    split at hdepths
    · next hfound => exact lt_of_list? (bounded_lookup h hfound) hdepths
    · obtain rfl := Option.some.inj hdepths
      exact List.forall_mem_nil _
  · rw [Value.maybe] at hdepth
    split at hdepth
    · next hfound => exact lt_of_optional? (bounded_lookup h hfound) hdepth
    · obtain rfl := Option.some.inj hdepth
      intro n hn
      cases hn

theorem RuleAction.narrow_of_entries {kind : String} {a : RuleAction} (h : ∀ e ∈ es, Bounded e.2)
    (ha : ofEntries? kind es = some a) : a.Narrow := by
  cases a with
  | relocation r =>
    have hr : Relocation.ofEntries? es = some r := by
      simp only [ofEntries?] at ha
      split at ha
      case h_5 => simpa using ha
      all_goals simp [Option.bind_eq_some_iff] at ha
    exact Relocation.narrow_of_entries h hr
  | _ => trivial

theorem RuleSpec.narrow_of_entries {kind : String} {s : RuleSpec} (h : ∀ e ∈ es, Bounded e.2)
    (hs : ofEntries? kind es = some s) : s.Narrow := by
  simp only [ofEntries?, Option.bind_eq_bind, Option.bind_eq_some_iff] at hs
  obtain ⟨id, -, description, -, action, haction, hs⟩ := hs
  obtain rfl := Option.some.inj hs
  exact RuleAction.narrow_of_entries h haction

/-- A spec that is read of a document can be written again. -/
theorem RuleSpec.narrow_of_value {s : RuleSpec} (h : Bounded v) (hs : ofValue? v = some s) : s.Narrow := by
  unfold ofValue? at hs
  split at hs
  · cases h with
    | table h =>
      obtain ⟨kind, -, hs⟩ := Option.bind_eq_some_iff.1 hs
      exact narrow_of_entries h hs
  · next kind items =>
    cases h with
    | list h =>
      obtain ⟨fields, -, hs⟩ := Option.bind_eq_some_iff.1 hs
      obtain ⟨es, hes, hs⟩ := Option.bind_eq_some_iff.1 hs
      obtain ⟨-, hzip⟩ := Option.ite_none_right_eq_some.1 hes
      obtain rfl := Option.some.inj hzip
      exact narrow_of_entries (fun e he => h e.2 (List.mem_cons_of_mem _ (List.of_mem_zip he).2)) hs
  · cases hs

end

/-! ## Values of fields -/

variable {es : List (String × Value)} {room : Nat}

theorem fits_of_lt {n : Nat} (h : n < 0x8000000000000000) : Fits n := ⟨by omega, by omega⟩

theorem nat?_of_lt {n : Nat} (h : n < 0x8000000000000000) : Value.nat? (.nat n) = some n :=
  Value.nat?_nat (by omega)

namespace MatchFlags

/-- The flags as fields. -/
def entries (f : MatchFlags) : List (String × Value) :=
  [("case_insensitive", .bool f.caseInsensitive), ("multi_line", .bool f.multiLine),
    ("dot_matches_new_line", .bool f.dotMatchesNewLine)]

theorem nodup_entries (f : MatchFlags) : (f.entries.map Prod.fst).Nodup := by simp [entries]

theorem writable (f : MatchFlags) : Writable (room + 1) f.entries := by
  refine .of_fields f.nodup_entries ?_
  simp only [entries, List.forall_mem_cons]
  exact ⟨field_bool (by decide) _, field_bool (by decide) _, field_bool (by decide) _, List.forall_mem_nil _⟩

theorem ofValue?_restored (f : MatchFlags) : ofValue? (.table (restored f.entries)) = some f := by
  have hfind := finds_restored f.nodup_entries
  have hbool (key : String) (b : Bool) (hmem : (key, .bool b) ∈ f.entries) :
      Value.defaulted (restored f.entries) key Value.bool? false = some b := hfind.boolOr hmem false
  have hcase := hbool "case_insensitive" f.caseInsensitive (by simp [entries])
  have hlines := hbool "multi_line" f.multiLine (by simp [entries])
  have hdot := hbool "dot_matches_new_line" f.dotMatchesNewLine (by simp [entries])
  simp [ofValue?, Value.record?, hcase, hlines, hdot]

end MatchFlags

namespace ReplacementSpec

theorem nodup_strip (needles : List String) :
    ([("strip", Value.list (needles.map .text))].map Prod.fst).Nodup := by simp

/-- A replacement as a field, which is a text or a table. -/
theorem field {key : String} (hkey : BareKey key) (r : ReplacementSpec) : Field (room + 1) (key, r.toValue) := by
  cases r with
  | text s => exact field_text hkey s
  | strip needles =>
    refine field_table hkey (.of_fields (nodup_strip needles) ?_)
    exact List.forall_mem_cons.2 ⟨field_texts (by decide) needles, List.forall_mem_nil _⟩

theorem read (r : ReplacementSpec) : ∃ v, kept r.toValue = some v ∧ ofValue? v = some r := by
  cases r with
  | text s => exact ⟨.text s, rfl, rfl⟩
  | strip needles =>
    have hneedles : Value.required (restored [("strip", .list (needles.map .text))]) "strip" (Value.list? Value.text?)
        = some needles := (finds_restored (nodup_strip needles)).texts List.mem_cons_self
    exact ⟨.table (restored [("strip", .list (needles.map .text))]), rfl, congrArg (Option.map strip) hneedles⟩

end ReplacementSpec

/-! ## Actions -/

/-- The flags and the replacement of an action, among its fields. -/
theorem flags_of_finds {fields : List (String × Value)} {f : MatchFlags} (h : Finds es fields)
    (hmem : ("flags", f.toValue) ∈ fields) : Value.defaulted es "flags" MatchFlags.ofValue? {} = some f :=
  h.defaulted hmem rfl f.ofValue?_restored {}

theorem replacement_of_finds {fields : List (String × Value)} {r : ReplacementSpec} (h : Finds es fields)
    (hmem : ("replacement", r.toValue) ∈ fields) :
    Value.defaulted es "replacement" ReplacementSpec.ofValue? (.text "") = some r := by
  obtain ⟨v, hv, hread⟩ := r.read
  exact h.defaulted hmem hv hread (.text "")

theorem Relocation.ofEntries?_of_finds {r : Relocation} (hr : r.Narrow) (h : Finds es r.entries) :
    ofEntries? es = some r := by
  obtain ⟨hdepths, hdepth⟩ := hr
  have hsource : Value.required es "from" Value.text? = some r.source := h.text (by simp [entries])
  have htarget : Value.required es "to" Value.text? = some r.target := h.text (by simp [entries])
  have hnumbers : Value.defaulted es "depths" (Value.list? Value.nat?) [] = some r.depths :=
    h.defaulted (v := .list (r.depths.map .nat)) (by simp [entries]) (kept_list (fun _ => rfl) r.depths)
      (Value.list?_map fun n hn => nat?_of_lt (hdepths n hn)) []
  have hnumber : Value.maybe es "to_depth" Value.nat? = some r.targetDepth :=
    h.maybe (f := .nat) (by simp [entries]) (fun _ => rfl) fun n hn => ⟨nofun, nat?_of_lt (hdepth n hn)⟩
  have hdirectory : Value.defaulted es "prefix" Value.bool? false = some r.isDirectory :=
    h.boolOr (by simp [entries]) false
  simp [ofEntries?, hsource, htarget, hnumbers, hnumber, hdirectory]

theorem ClosedSet.ofEntries?_of_finds {s : ClosedSet} (h : Finds es s.entries) : ofEntries? es = some s := by
  have hcall : Value.required es "call" Value.text? = some s.call := h.text (by simp [entries])
  have hremove : Value.required es "remove" (Value.list? Value.text?) = some s.remove := h.texts (by simp [entries])
  have hdefault : Value.maybe es "default" Value.text? = some s.default := h.maybeText (by simp [entries])
  have hempty : Value.maybe es "empty_replacement" Value.text? = some s.emptyReplacement :=
    h.maybeText (by simp [entries])
  have hcontext : Value.maybe es "fallback_context" Value.text? = some s.fallbackContext :=
    h.maybeText (by simp [entries])
  simp [ofEntries?, hcall, hremove, hdefault, hempty, hcontext]

namespace RuleAction

theorem ofEntries?_of_finds {a : RuleAction} (ha : a.Narrow) (h : Finds es a.entries) :
    ofEntries? a.kind es = some a := by
  cases a with
  | literal needle replacement =>
    have hneedle : Value.required es "needle" Value.text? = some needle := h.text (by simp [entries])
    have hreplacement := replacement_of_finds (r := replacement) h (by simp [entries])
    simp [ofEntries?, kind, hneedle, hreplacement]
  | regex pattern flags replacement expand =>
    have hpattern : Value.required es "pattern" Value.text? = some pattern := h.text (by simp [entries])
    have hflags := flags_of_finds (f := flags) h (by simp [entries])
    have hreplacement := replacement_of_finds (r := replacement) h (by simp [entries])
    have hexpand : Value.defaulted es "expand" Value.bool? false = some expand := h.boolOr (by simp [entries]) false
    simp [ofEntries?, kind, hpattern, hflags, hreplacement, hexpand]
  | block start flags delimiters replacement expand =>
    have hstart : Value.required es "start" Value.text? = some start := h.text (by simp [entries])
    have hflags := flags_of_finds (f := flags) h (by simp [entries])
    have hdelimiters (default : String) : Value.defaulted es "delimiters" Value.text? default = some delimiters :=
      h.textOr (by simp [entries]) default
    have hreplacement := replacement_of_finds (r := replacement) h (by simp [entries])
    have hexpand : Value.defaulted es "expand" Value.bool? false = some expand := h.boolOr (by simp [entries]) false
    simp [ofEntries?, kind, hstart, hflags, hdelimiters, hreplacement, hexpand]
  | marked start stop flags replacement expand =>
    have hstart : Value.required es "start" Value.text? = some start := h.text (by simp [entries])
    have hstop : Value.required es "end" Value.text? = some stop := h.text (by simp [entries])
    have hflags := flags_of_finds (f := flags) h (by simp [entries])
    have hreplacement := replacement_of_finds (r := replacement) h (by simp [entries])
    have hexpand : Value.defaulted es "expand" Value.bool? false = some expand := h.boolOr (by simp [entries]) false
    simp [ofEntries?, kind, hstart, hstop, hflags, hreplacement, hexpand]
  | relocation r => exact congrArg (Option.map relocation) (Relocation.ofEntries?_of_finds ha h)
  | closedSet s => exact congrArg (Option.map closedSet) (ClosedSet.ofEntries?_of_finds h)

/-- Every field of an action may stand in a table. -/
theorem field_of_mem {a : RuleAction} (ha : a.Narrow) : ∀ e ∈ a.entries, Field (room + 1) e := by
  have hflags (f : MatchFlags) : Field (room + 1) ("flags", f.toValue) := field_table (by decide) f.writable
  have hreplacement (r : ReplacementSpec) : Field (room + 1) ("replacement", r.toValue) := r.field (by decide)
  cases a with
  | literal needle replacement =>
    simp only [entries, List.forall_mem_cons]
    exact ⟨field_text (by decide) _, hreplacement _, List.forall_mem_nil _⟩
  | regex pattern flags replacement expand =>
    simp only [entries, List.forall_mem_cons]
    exact ⟨field_text (by decide) _, hflags _, hreplacement _, field_bool (by decide) _, List.forall_mem_nil _⟩
  | block start flags delimiters replacement expand =>
    simp only [entries, List.forall_mem_cons]
    exact ⟨field_text (by decide) _, hflags _, field_text (by decide) _, hreplacement _, field_bool (by decide) _,
      List.forall_mem_nil _⟩
  | marked start stop flags replacement expand =>
    simp only [entries, List.forall_mem_cons]
    exact ⟨field_text (by decide) _, field_text (by decide) _, hflags _, hreplacement _, field_bool (by decide) _,
      List.forall_mem_nil _⟩
  | relocation r =>
    obtain ⟨hdepths, hdepth⟩ := ha
    simp only [entries, Relocation.entries, List.forall_mem_cons]
    exact ⟨field_text (by decide) _, field_text (by decide) _,
      field_list (by decide) (fun _ => rfl) fun n hn _ => .int (fits_of_lt (hdepths n hn)),
      field_option (by decide) fun n hn => field_int (by decide) (fits_of_lt (hdepth n hn)),
      field_bool (by decide) _, List.forall_mem_nil _⟩
  | closedSet s =>
    have hoption (key : String) (hkey : BareKey key) (o : Option String) :
        Field (room + 1) (key, .ofOption .text o) := field_option hkey fun _ _ => field_text hkey _
    simp only [entries, ClosedSet.entries, List.forall_mem_cons]
    exact ⟨field_text (by decide) _, field_texts (by decide) _, hoption _ (by decide) _, hoption _ (by decide) _,
      hoption _ (by decide) _, List.forall_mem_nil _⟩

end RuleAction

/-! ## Specs -/

namespace RuleSpec

/-- A spec as fields. -/
def fields (s : RuleSpec) : List (String × Value) :=
  [("kind", .text s.kind), ("id", .text s.id), ("description", .text s.description)] ++ s.action.entries

theorem nodup_fields (s : RuleSpec) : (s.fields.map Prod.fst).Nodup := by
  obtain ⟨id, description, action⟩ := s
  cases action <;> simp [fields, RuleAction.entries, Relocation.entries, ClosedSet.entries]

theorem writable {s : RuleSpec} (h : s.Narrow) : Writable (room + 2) s.fields := by
  refine .of_fields s.nodup_fields ?_
  simp only [fields, List.cons_append, List.nil_append, List.forall_mem_cons]
  exact ⟨field_text (by decide) _, field_text (by decide) _, field_text (by decide) _, RuleAction.field_of_mem h⟩

/-- **A spec is read back** from the table that it comes back as. -/
theorem ofValue?_restored {s : RuleSpec} (h : s.Narrow) : ofValue? (.table (restored s.fields)) = some s := by
  have hfind := finds_restored s.nodup_fields
  have hkind : Value.required (restored s.fields) "kind" Value.text? = some s.action.kind :=
    hfind.text (by simp [fields, kind])
  have hid : Value.required (restored s.fields) "id" Value.text? = some s.id := hfind.text (by simp [fields])
  have hdescription : Value.defaulted (restored s.fields) "description" Value.text? "" = some s.description :=
    hfind.textOr (by simp [fields]) ""
  have haction := RuleAction.ofEntries?_of_finds (a := s.action) h fun e he =>
    hfind e (List.mem_append_right _ he)
  simp [ofValue?, ofEntries?, hkind, hid, hdescription, haction]

end RuleSpec

end Codemod
