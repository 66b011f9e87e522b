/-
Lines of the log decode to their entries. An entry that a log can hold is read back from its line, with the
fields that it does not have still absent, and a line break stands at the end of the line only; so the lines
that have been written one after the other are found again between the line breaks.
-/
import Codemod.Log.Entry
import Codemod.Proofs.Data.Decode
import Codemod.Proofs.Data.Json
import Codemod.Proofs.Rule.Chain

namespace Codemod

open Data

/-- The entries that a log can hold: numbers have 64 bits, and hits are counted once for each rule. -/
structure LogEntry.Valid (e : LogEntry) : Prop where
  hits : ∀ h ∈ e.hits, h.Ordered ∧ ∀ c ∈ h, c.2 < 2 ^ 64
  scanned : ∀ n ∈ e.scanned, n < 2 ^ 64
  modified : ∀ n ∈ e.modified, n < 2 ^ 64
  duration : ∀ n ∈ e.duration, n < 2 ^ 64

/-! ## Hits -/

namespace HitCounts

theorem set_concat {h : HitCounts} {id : String} (hid : ∀ c ∈ h, c.1 < id) (n : Nat) :
    h.set id n = h ++ [(id, n)] := by
  induction h with
  | nil => rfl
  | cons c h ih =>
    obtain ⟨key, m⟩ := c
    obtain ⟨hkey, hh⟩ := List.forall_mem_cons.1 hid
    have hne : id ≠ key := (ne_of_lt hkey).symm
    rw [HitCounts.set, if_neg (not_lt_of_gt hkey), if_neg (by simpa using hne), ih hh]
    rfl

end HitCounts

namespace LogEntry

theorem hitsOfValue?_hitsValue {h : HitCounts} (ho : h.Ordered) (hn : ∀ c ∈ h, c.2 < 2 ^ 64) :
    hitsOfValue? (hitsValue h) = some h := by
  have hfold : ∀ (front back : HitCounts), (front ++ back).Ordered → (∀ c ∈ back, c.2 < 2 ^ 64) →
      (back.map fun c => (c.1, Value.nat c.2)).foldlM
        (fun h e => (Value.nat? e.2).map fun n => h.set e.1 n) front = some (front ++ back) := by
    intro front back
    induction back generalizing front with
    | nil => simp
    | cons c back ih =>
      intro ho hn
      obtain ⟨id, n⟩ := c
      obtain ⟨hc, hback⟩ := List.forall_mem_cons.1 hn
      have hid : ∀ c ∈ front, c.1 < id := fun c hmem =>
        (List.pairwise_append.1 ho).2.2 c hmem (id, n) List.mem_cons_self
      rw [List.append_cons] at ho ⊢
      simp only [List.map_cons, List.foldlM_cons, Value.nat?_nat (show n < 2 ^ 64 from hc), Option.map_some,
        HitCounts.set_concat hid, Option.bind_eq_bind, Option.bind_some]
      exact ih (front ++ [(id, n)]) ho hback
  exact hfold [] h ho hn

/-! ## Entries -/

/-- The fields of an entry in their order, with those that it does not have. -/
def cells (e : LogEntry) : List (String × Option Value) :=
  [("ts", some (.text e.time)), ("event", some (.text e.kind.name)), ("severity", some (.text e.severity.name)),
    ("path", e.path.map .text), ("rule_id", e.ruleId.map .text), ("hits", e.hits.map hitsValue),
    ("sha256_before", e.before.map .text), ("sha256_after", e.after.map .text),
    ("files_scanned", e.scanned.map .nat), ("files_modified", e.modified.map .nat),
    ("dry_run", e.dryRun.map .bool), ("duration_ms", e.duration.map .nat), ("ok", e.ok.map .bool),
    ("error_code", e.errorCode.map .text), ("error_message", e.errorMessage.map .text),
    ("details", e.details.map .text)]

theorem present_eq (key : String) (f : α → Value) (o : Option α) :
    present key f o = Value.filled [(key, o.map f)] := by
  cases o <;> rfl

theorem toValue_eq (e : LogEntry) : e.toValue = .table (Value.filled e.cells) := by
  simp only [toValue, present_eq, cells, Value.filled_cons_cons, List.append_assoc]
  rfl

theorem ofName?_kind (k : EntryKind) : EntryKind.ofName? k.name = some k := by
  cases k <;> decide

theorem ofName?_severity (s : Severity) : Severity.ofName? s.name = some s := by
  cases s <;> decide

/-- One step of a reader that does not fail. -/
theorem bind_of {o : Option α} {f : α → Option β} {a : α} {b : β} (ho : o = some a) (hf : f a = some b) :
    o.bind f = some b :=
  Option.bind_eq_some_iff.2 ⟨a, ho, hf⟩

/-- An entry is read back from the data that it is written as. -/
theorem ofValue?_toValue {e : LogEntry} (h : e.Valid) : ofValue? e.toValue = some e := by
  have hnodup : (e.cells.map Prod.fst).Nodup := by
    show (["ts", "event", "severity", "path", "rule_id", "hits", "sha256_before", "sha256_after", "files_scanned",
      "files_modified", "dry_run", "duration_ms", "ok", "error_code", "error_message", "details"]).Nodup
    decide
  have hfind {key : String} {o : Option Value} (hmem : (key, o) ∈ e.cells) :
      Value.lookup key (Value.filled e.cells) = o := Value.lookup_filled hnodup hmem
  have htext (key : String) (o : Option String) (hmem : (key, o.map Value.text) ∈ e.cells) :
      Value.maybe (Value.filled e.cells) key Value.text? = some o :=
    Value.maybe_eq (hfind hmem) fun _ _ => ⟨nofun, rfl⟩
  have hbool (key : String) (o : Option Bool) (hmem : (key, o.map Value.bool) ∈ e.cells) :
      Value.maybe (Value.filled e.cells) key Value.bool? = some o :=
    Value.maybe_eq (hfind hmem) fun _ _ => ⟨nofun, rfl⟩
  have hnat (key : String) (o : Option Nat) (hmem : (key, o.map Value.nat) ∈ e.cells) (ho : ∀ n ∈ o, n < 2 ^ 64) :
      Value.maybe (Value.filled e.cells) key Value.nat? = some o :=
    Value.maybe_eq (hfind hmem) fun n hn => ⟨nofun, Value.nat?_nat (ho n hn)⟩
  have hhits : Value.maybe (Value.filled e.cells) "hits" hitsOfValue? = some e.hits :=
    Value.maybe_eq (f := hitsValue) (hfind (by simp [cells])) fun c hc =>
      ⟨nofun, hitsOfValue?_hitsValue (h.hits c hc).1 (h.hits c hc).2⟩
  have hkind : Value.required (Value.filled e.cells) "event" (fun v => v.word?.bind EntryKind.ofName?) = some e.kind :=
    Value.required_eq (f := Value.text) (hfind (by simp [cells])) (ofName?_kind e.kind)
  have hseverity : Value.required (Value.filled e.cells) "severity" (fun v => v.word?.bind Severity.ofName?)
      = some e.severity := Value.required_eq (f := Value.text) (hfind (by simp [cells])) (ofName?_severity e.severity)
  have htime : Value.required (Value.filled e.cells) "ts" Value.text? = some e.time :=
    Value.required_eq (f := Value.text) (hfind (by simp [cells])) rfl
  have hpath := htext "path" e.path (by simp [cells])
  have hrule := htext "rule_id" e.ruleId (by simp [cells])
  have hbefore := htext "sha256_before" e.before (by simp [cells])
  have hafter := htext "sha256_after" e.after (by simp [cells])
  have hcode := htext "error_code" e.errorCode (by simp [cells])
  have hmessage := htext "error_message" e.errorMessage (by simp [cells])
  have hdetails := htext "details" e.details (by simp [cells])
  have hscanned := hnat "files_scanned" e.scanned (by simp [cells]) h.scanned
  have hmodified := hnat "files_modified" e.modified (by simp [cells]) h.modified
  have hduration := hnat "duration_ms" e.duration (by simp [cells]) h.duration
  have hdry := hbool "dry_run" e.dryRun (by simp [cells])
  have hok := hbool "ok" e.ok (by simp [cells])
  have hrecord : e.toValue.fullRecord? fields = some (Value.filled e.cells) := by rw [toValue_eq, Value.fullRecord?]
  unfold ofValue?
  rw [hrecord]
  exact bind_of rfl <| bind_of htime <| bind_of hkind <| bind_of hseverity <| bind_of hpath <| bind_of hrule <|
    bind_of hhits <| bind_of hbefore <| bind_of hafter <| bind_of hscanned <| bind_of hmodified <| bind_of hdry <|
    bind_of hduration <| bind_of hok <| bind_of hcode <| bind_of hmessage <| bind_of hdetails rfl

/-- The data of a field are of a form that is read back. -/
theorem exact_cell {e : LogEntry} {c : String × Option Value} (hc : c ∈ e.cells) {v : Value} (hv : v ∈ c.2) :
    v.Exact := by
  have htext {o : Option String} (ho : v ∈ o.map Value.text) : v.Exact := by
    obtain ⟨s, -, rfl⟩ := Option.map_eq_some_iff.1 ho
    exact .text s
  have hnat {o : Option Nat} (ho : v ∈ o.map Value.nat) : v.Exact := by
    obtain ⟨n, -, rfl⟩ := Option.map_eq_some_iff.1 ho
    exact .int n
  have hbool {o : Option Bool} (ho : v ∈ o.map Value.bool) : v.Exact := by
    obtain ⟨b, -, rfl⟩ := Option.map_eq_some_iff.1 ho
    exact .bool b
  have hhits (ho : v ∈ e.hits.map hitsValue) : v.Exact := by
    obtain ⟨c, -, rfl⟩ := Option.map_eq_some_iff.1 ho
    refine .table fun f hf => ?_
    obtain ⟨⟨id, n⟩, -, rfl⟩ := List.mem_map.1 hf
    exact .int n
  simp only [cells, List.mem_cons, List.not_mem_nil, or_false] at hc
  rcases hc with rfl | rfl | rfl | rfl | rfl | rfl | rfl | rfl | rfl | rfl | rfl | rfl | rfl | rfl | rfl | rfl
  case inl => exact htext (o := some e.time) hv
  all_goals first
    | exact htext hv
    | exact hnat hv
    | exact hbool hv
    | exact hhits hv
    | exact htext (o := some _) hv

theorem exact_toValue (e : LogEntry) : e.toValue.Exact := by
  rw [toValue_eq]
  refine .table fun f hf => ?_
  obtain ⟨⟨key, o⟩, hcell, ho⟩ := List.mem_filterMap.1 hf
  obtain ⟨v, rfl, rfl⟩ := Option.map_eq_some_iff.1 ho
  exact exact_cell hcell rfl

/-! ## Lines -/

/-- The line of an entry without its line break. -/
def text (e : LogEntry) : String := Json.write e.toValue

theorem line_eq (e : LogEntry) : e.line.toList = e.text.toList ++ ['\n'] := by
  simp [line, text]

theorem not_newline_text (e : LogEntry) : '\n' ∉ e.text.toList := Json.not_newline_write e.exact_toValue

theorem ofLine?_text {e : LogEntry} (h : e.Valid) : ofLine? e.text = some e := by
  rw [ofLine?, text, Json.parse_write e.exact_toValue, Option.bind_some, ofValue?_toValue h]

/-- Lines one after the other, taken apart at the line breaks. -/
theorem splitOn_lines (es : List LogEntry) :
    (es.flatMap fun e => e.line.toList).splitOn '\n' = (es.map fun e => e.text.toList) ++ [[]] := by
  induction es with
  | nil => rfl
  | cons e es ih =>
    rw [List.flatMap_cons, line_eq, List.append_assoc, List.singleton_append,
      List.splitOn_append_cons_self_of_not_mem e.not_newline_text, ih, List.map_cons, List.cons_append]

end LogEntry

end Codemod
