/-
What is written as a TOML document is read back: `parse?` gives the fields that `write` has written, but for those
that are null, and with the fields of each table before the tables in it. So every field is found under its key
again (`lookup_restored`).
-/
import Codemod.Proofs.Data.Decode
import Codemod.Proofs.Data.Toml.Lines
import Codemod.Proofs.Data.Toml.Tree

namespace Codemod.Data.Toml

open Text Entries

/-! ## Documents as they are read back -/

def isNull : Value → Bool
  | .null => true
  | _ => false

/-- Whether a value stands on the line of its key. -/
def isLine (v : Value) : Bool := !isNull v && !hasHeader v

def plainFields (es : List (String × Value)) : List (String × Value) := es.filter fun e => isLine e.2

def plainEntries (es : List (String × Value)) : Entries := (plainFields es).map fun e => (e.1, .value e.2)

mutual

/-- The part of a document that a field is read as. -/
def nodeOf : Value → Node
  | .table es => .table .stated (plainEntries es ++ headedEntries es)
  | .list items => if hasHeader (.list items) then .tables (itemEntries items).reverse else .value (.list items)
  | v => .value v

/-- The fields that have headers of their own. -/
def headedEntries : List (String × Value) → Entries
  | [] => []
  | (key, v) :: es => if hasHeader v then (key, nodeOf v) :: headedEntries es else headedEntries es

def itemEntries : List Value → List Entries
  | [] => []
  | v :: items => tableEntries v :: itemEntries items

def tableEntries : Value → Entries
  | .table es => plainEntries es ++ headedEntries es
  | _ => []

end

/-- The fields that come back. -/
def restored (es : List (String × Value)) : List (String × Value) := toFields (tableEntries (.table es))

/-- What comes back under the key of a field. -/
def kept (v : Value) : Option Value := if isNull v then none else some (toValue (nodeOf v))

theorem headedEntries_eq (es : List (String × Value)) :
    headedEntries es = (es.filter fun e => hasHeader e.2).map fun e => (e.1, nodeOf e.2) := by
  induction es with
  | nil => rfl
  | cons e es ih =>
    obtain ⟨key, v⟩ := e
    rw [headedEntries, List.filter_cons]
    split <;> simp [ih]

theorem toFields_eq (es : Entries) : toFields es = es.map fun e => (e.1, toValue e.2) := by
  induction es with
  | nil => rfl
  | cons e es ih => rw [toFields, ih, List.map_cons]

theorem toItems_eq (items : List Entries) (behind : List Value) :
    toItems items behind = (items.map fun es => .table (toFields es)).reverse ++ behind := by
  induction items generalizing behind with
  | nil => rfl
  | cons es items ih =>
    rw [toItems, ih]
    simp

theorem itemEntries_eq (items : List Value) : itemEntries items = items.map tableEntries := by
  induction items with
  | nil => rfl
  | cons v items ih => rw [itemEntries, ih, List.map_cons]

theorem toValue_tables {α : Type} {f : α → List (String × Value)} {items : List α} (hne : items ≠ []) :
    toValue (nodeOf (.list (items.map fun a => .table (f a)))) = .list (items.map fun a => .table (restored (f a))) := by
  have hheader : hasHeader (.list (items.map fun a => .table (f a))) = true := by
    simp [hasHeader, hne, isTable]
  rw [nodeOf, if_pos hheader, toValue, toItems_eq, itemEntries_eq]
  simp [List.map_map, Function.comp_def, restored]

theorem keys_entries (es : List (String × Value)) :
    (tableEntries (.table es)).map Prod.fst
      = (plainFields es).map Prod.fst ++ (es.filter fun e => hasHeader e.2).map Prod.fst := by
  simp [tableEntries, plainEntries, headedEntries_eq, List.map_map, Function.comp_def]

theorem nodup_entries {es : List (String × Value)} (h : (es.map Prod.fst).Nodup) :
    ((tableEntries (.table es)).map Prod.fst).Nodup := by
  rw [keys_entries, List.nodup_append]
  refine ⟨(List.filter_sublist.map _).nodup h, (List.filter_sublist.map _).nodup h, fun k hk k' hk' heq => ?_⟩
  obtain ⟨e, he, rfl⟩ := List.mem_map.1 hk
  obtain ⟨e', he', rfl⟩ := List.mem_map.1 hk'
  obtain ⟨hmem, hplain⟩ := List.mem_filter.1 he
  obtain ⟨hmem', hheader⟩ := List.mem_filter.1 he'
  obtain rfl := List.inj_on_of_nodup_map h hmem hmem' heq
  simp [isLine, hheader] at hplain

theorem nodeOf_of_not_hasHeader {v : Value} (h : hasHeader v = false) : nodeOf v = .value v := by
  cases v with
  | table es => cases h
  | list items => rw [nodeOf, if_neg (by simp [h])]
  | _ => rfl

theorem hasHeader_of_isNull {v : Value} (h : isNull v = true) : hasHeader v = false := by
  cases v with
  | null => rfl
  | _ => cases h

/-- **Under the key of a field is what was written there**, wherever it now stands. -/
theorem lookup_restored {es : List (String × Value)} (hnodup : (es.map Prod.fst).Nodup) {key : String} {v : Value}
    (h : (key, v) ∈ es) : Value.lookup key (restored es) = kept v := by
  have hkeys : (restored es).map Prod.fst = (tableEntries (.table es)).map Prod.fst := by
    simp [restored, toFields_eq, List.map_map, Function.comp_def]
  cases hnull : isNull v with
  | true =>
    rw [kept, hnull]
    refine Value.lookup_eq_none fun hmem => ?_
    rw [hkeys, keys_entries, List.mem_append] at hmem
    rcases hmem with hmem | hmem
    all_goals
      obtain ⟨⟨k, w⟩, he, rfl⟩ := List.mem_map.1 hmem
      obtain ⟨he, hkind⟩ := List.mem_filter.1 he
      obtain rfl := (Prod.mk.inj (List.inj_on_of_nodup_map hnodup h he rfl)).2
      simp [isLine, hnull, hasHeader_of_isNull] at hkind
  | false =>
    rw [kept, hnull]
    refine Value.lookup_of_mem (by rw [hkeys]; exact nodup_entries hnodup) ?_
    rw [restored, toFields_eq]
    refine List.mem_map.2 ⟨(key, nodeOf v), ?_, rfl⟩
    rw [tableEntries, List.mem_append, headedEntries_eq, plainEntries]
    cases hheader : hasHeader v with
    | true => exact .inr (List.mem_map.2 ⟨(key, v), List.mem_filter.2 ⟨h, hheader⟩, rfl⟩)
    | false =>
      have hplain : isLine v = true := by simp [isLine, hnull, hheader]
      rw [nodeOf_of_not_hasHeader hheader]
      exact .inl (List.mem_map.2 ⟨(key, v), List.mem_filter.2 ⟨h, hplain⟩, rfl⟩)

/-! ## Fields that can be written -/

def fieldsOf : Value → List (String × Value)
  | .table es => es
  | _ => []

/-- The tables that a field opens: one, or one for each item of a list. -/
def tablesOf : Value → List (List (String × Value))
  | .table es => [es]
  | .list items => if hasHeader (.list items) then items.map fieldsOf else []
  | _ => []

/-- Fields that a document can hold: each key comes once and needs no quotes, what stands on a line is plain, and
tables are nested no deeper than there is room. -/
inductive Writable : Nat → List (String × Value) → Prop
  | intro {room : Nat} {es : List (String × Value)} (nodup : (es.map Prod.fst).Nodup)
    (bare : ∀ e ∈ es, BareKey e.1) (plain : ∀ e ∈ es, isLine e.2 = true → Plain maxDepth e.2)
    (below : ∀ e ∈ es, ∀ sub ∈ tablesOf e.2, Writable room sub) : Writable (room + 1) es

/-! ## Documents as they are written -/

/-- Parts with a blank line before each. -/
def block (ps : List String) : List Char := ps.flatMap fun p => '\n' :: p.toList

theorem block_append (ps qs : List String) : block (ps ++ qs) = block ps ++ block qs := List.flatMap_append

theorem toList_intercalate (p : String) (ps : List String) : ("\n".intercalate (p :: ps)).toList = p.toList ++ block ps := by
  induction ps generalizing p with
  | nil => simp [block]
  | cons q ps ih =>
    rw [String.intercalate_cons_cons, String.toList_append, String.toList_append, ih]
    simp [block]

/-- A text with statements in it that turn one set of entries into another. -/
def Makes (path : List String) (cs : List Char) (a b : Entries) : Prop :=
  ∃ sts, Gives cs sts ∧ Goes path sts a b

theorem Makes.append {path : List String} {cs ds : List Char} {a b c : Entries} (h : Makes path cs a b)
    (h' : Makes path ds b c) : Makes path (cs ++ ds) a c := by
  obtain ⟨s, hs, hgoes⟩ := h
  obtain ⟨t, ht, hgoes'⟩ := h'
  exact ⟨s ++ t, hs.append ht, hgoes.append hgoes'⟩

/-- The statements of the fields that stand on lines of their own. -/
def assigns (es : List (String × Value)) : List Statement := (plainFields es).map fun e => .assign [] e.1 e.2

theorem toList_writeFields_cons (e : String × Value) (es : List (String × Value)) :
    (writeFields (e :: es)).toList
      = (if isLine e.2 then (writeKey e.1 ++ " = " ++ writeValue e.2 ++ "\n").toList else [])
        ++ (writeFields es).toList := by
  obtain ⟨key, v⟩ := e
  rw [writeFields, List.map_cons, String.join_cons, String.toList_append, ← writeFields]
  congr 1
  cases v with
  | null => rfl
  | _ =>
    simp only [isLine, isNull, Bool.not_false, Bool.true_and, Bool.not_eq_true']
    split <;> simp_all

theorem gives_fields {es : List (String × Value)} (bare : ∀ e ∈ es, BareKey e.1)
    (plain : ∀ e ∈ es, isLine e.2 = true → Plain maxDepth e.2) : Gives (writeFields es).toList (assigns es) := by
  induction es with
  | nil => exact .nil
  | cons e es ih =>
    obtain ⟨hkey, bare⟩ := List.forall_mem_cons.1 bare
    obtain ⟨hv, plain⟩ := List.forall_mem_cons.1 plain
    have hrest := ih bare plain
    rw [toList_writeFields_cons]
    by_cases he : isLine e.2 = true
    · rw [if_pos he, assigns, plainFields, List.filter_cons, if_pos he]
      exact (gives_field hkey (hv he)).append hrest
    · rw [if_neg he, assigns, plainFields, List.filter_cons, if_neg he]
      exact hrest

variable {path : List String} {last : String} {es : List (String × Value)} {cur : Entries}

/-- A table that is read back under the keys that lead to it: the fields on their lines, and what is below. -/
structure Ready (path : List String) (es : List (String × Value)) : Prop where
  depth : path.length ≤ maxDepth
  nodup : (es.map Prod.fst).Nodup
  fields : Gives (writeFields es).toList (assigns es)
  below : Makes path (block (partsOfFields path es)) (plainEntries es) (tableEntries (.table es))

theorem Ready.depth_lt (h : Ready (path ++ [last]) es) : path.length < maxDepth := by
  have hdepth := h.depth
  rw [List.length_append, List.length_singleton] at hdepth
  omega

theorem Ready.fills (h : Ready path es) : Fills path (assigns es) [] (plainEntries es) :=
  fills_assign ((List.filter_sublist.map _).nodup h.nodup) (fun _ _ => rfl) path

/-- A table under a header, of whichever kind. -/
theorem Ready.makes {header : String} {st : Statement} {opening : Entries → Option Entries} {hole : Entries → Entries}
    (h : Ready (path ++ [last]) es) (hheader : Gives header.toList [st]) (hhole : Holds last hole)
    (hopen : opening cur = some (hole []))
    (hadd : ∀ d : Document, d.add st = (change opening path d.entries).map fun es => ⟨es, path ++ [last]⟩) :
    Makes path (block ((header ++ writeFields es) :: partsOfFields (path ++ [last]) es)) cur
      (hole (tableEntries (.table es))) := by
  have hfirst : Makes path ('\n' :: (header.toList ++ (writeFields es).toList)) cur (hole (plainEntries es)) :=
    ⟨[] ++ ([st] ++ assigns es), gives_newline.append (hheader.append h.fields), h.fills.header hhole hopen hadd⟩
  obtain ⟨sts, hgives, hgoes⟩ := h.below
  have hboth := hfirst.append ⟨sts, hgives, hgoes.within hhole⟩
  simpa [block] using hboth

theorem Ready.makes_table (h : Ready (path ++ [last]) es) (hpath : ∀ key ∈ path, BareKey key) (hlast : BareKey last)
    (hfresh : cur.get? last = none) :
    Makes path (block (parts (path ++ [last]) (.table es))) cur (cur ++ [(last, nodeOf (.table es))]) := by
  have hopen : openTable last cur = some (cur ++ [(last, .table .stated [])]) := by simp [openTable, hfresh]
  exact h.makes (gives_table hpath hlast h.depth_lt) (holds_table hfresh .stated) hopen fun _ => rfl

/-- One more item, whether it is the first or not. -/
theorem Ready.makes_item (h : Ready (path ++ [last]) es) (hpath : ∀ key ∈ path, BareKey key) (hlast : BareKey last)
    (hfresh : cur.get? last = none) {before : Entries} {done : List Entries}
    (hopen : openItem last before = some (cur ++ [(last, .tables ([] :: done))])) :
    Makes path (block (partsOfItem (path ++ [last]) (.table es))) before
      (cur ++ [(last, .tables (tableEntries (.table es) :: done))]) := by
  exact h.makes (gives_item hpath hlast h.depth_lt) (holds_tables hfresh done) hopen fun _ => rfl

/-- The items of a list, each behind those that have been opened before. -/
theorem makes_items {items : List Value} (hitems : ∀ v ∈ items, ∃ es, v = .table es ∧ Ready (path ++ [last]) es)
    (hpath : ∀ key ∈ path, BareKey key) (hlast : BareKey last) (hfresh : cur.get? last = none) (done : List Entries) :
    Makes path (block (partsOfItems (path ++ [last]) items)) (cur ++ [(last, .tables done)])
      (cur ++ [(last, .tables ((itemEntries items).reverse ++ done))]) := by
  induction items generalizing done with
  | nil => exact ⟨[], .nil, .nil path _⟩
  | cons v items ih =>
    obtain ⟨hfirst, hmore⟩ := List.forall_mem_cons.1 hitems
    obtain ⟨es, rfl, hes⟩ := hfirst
    have hopen : openItem last (cur ++ [(last, .tables done)]) = some (cur ++ [(last, .tables ([] :: done))]) := by
      simp [openItem, get?_append_new hfresh, put_append_new hfresh]
    have hboth := (hes.makes_item hpath hlast hfresh hopen).append (ih hmore _)
    rw [partsOfItems, block_append]
    simpa [itemEntries] using hboth

theorem makes_field {v : Value} (hv : hasHeader v = true) (hready : ∀ sub ∈ tablesOf v, Ready (path ++ [last]) sub)
    (hpath : ∀ key ∈ path, BareKey key) (hlast : BareKey last) (hfresh : cur.get? last = none) :
    Makes path (block (parts (path ++ [last]) v)) cur (cur ++ [(last, nodeOf v)]) := by
  cases v with
  | table es => exact (hready es (by simp [tablesOf])).makes_table hpath hlast hfresh
  | list items =>
    have hitems (v : Value) (hmem : v ∈ items) : ∃ es, v = .table es ∧ Ready (path ++ [last]) es := by
      simp only [hasHeader, Bool.and_eq_true, List.all_eq_true] at hv
      have htable := hv.2 v hmem
      cases v with
      | table es => exact ⟨es, rfl, hready es (by
          rw [tablesOf, if_pos (by simpa [hasHeader] using hv)]
          exact List.mem_map.2 ⟨.table es, hmem, rfl⟩)⟩
      | _ => cases htable
    cases items with
    | nil => cases hv
    | cons v items =>
      obtain ⟨hfirst, hmore⟩ := List.forall_mem_cons.1 hitems
      obtain ⟨es, rfl, hes⟩ := hfirst
      have hopen : openItem last cur = some (cur ++ [(last, .tables [[]])]) := by simp [openItem, hfresh]
      have hboth := (hes.makes_item hpath hlast hfresh hopen).append (makes_items hmore hpath hlast hfresh _)
      have hparts : parts (path ++ [last]) (.list (.table es :: items))
          = partsOfItems (path ++ [last]) (.table es :: items) := if_pos hv
      rw [nodeOf, if_pos hv, hparts, partsOfItems, block_append]
      simpa [itemEntries] using hboth
  | _ => cases hv

theorem parts_of_not_hasHeader {v : Value} (h : hasHeader v = false) : parts path v = [] := by
  cases v with
  | table es => cases h
  | list items => exact if_neg (by simpa [hasHeader] using h)
  | _ => rfl

/-- The tables of a table, one after the other. The induction is on the fields; those before are there already. -/
theorem makes_fields (hready : ∀ e ∈ es, ∀ sub ∈ tablesOf e.2, Ready (path ++ [e.1]) sub)
    (hpath : ∀ key ∈ path, BareKey key) (bare : ∀ e ∈ es, BareKey e.1) (hnodup : (es.map Prod.fst).Nodup)
    (hfresh : ∀ e ∈ es, hasHeader e.2 = true → cur.get? e.1 = none) :
    Makes path (block (partsOfFields path es)) cur (cur ++ headedEntries es) := by
  induction es generalizing cur with
  | nil => exact ⟨[], .nil, by simpa [headedEntries] using Goes.nil path cur⟩
  | cons e es ih =>
    obtain ⟨key, v⟩ := e
    obtain ⟨hv, hready⟩ := List.forall_mem_cons.1 hready
    obtain ⟨hkey, bare⟩ := List.forall_mem_cons.1 bare
    obtain ⟨hnew, hnodup⟩ := List.nodup_cons.1 hnodup
    obtain ⟨hold, hfresh⟩ := List.forall_mem_cons.1 hfresh
    rw [partsOfFields, block_append, headedEntries]
    cases hheader : hasHeader v with
    | false =>
      rw [parts_of_not_hasHeader hheader]
      exact ih hready bare hnodup hfresh
    | true =>
      have hlater (f : String × Value) (hf : f ∈ es) (hh : hasHeader f.2 = true) :
          Entries.get? f.1 (cur ++ [(key, nodeOf v)]) = none := by
        have hne : key ≠ f.1 := fun heq => hnew (List.mem_map.2 ⟨f, hf, heq.symm⟩)
        have hbefore := hfresh f hf hh
        rw [Entries.get?, Option.map_eq_none_iff] at hbefore ⊢
        simp [List.find?_append, hbefore, hne]
      have hboth := (makes_field hheader hv hpath hkey (hold hheader)).append (ih hready bare hnodup hlater)
      simpa using hboth

theorem Writable.ready {room : Nat} (h : Writable room es) (path : List String) (hpath : ∀ key ∈ path, BareKey key)
    (hroom : path.length + room ≤ maxDepth + 1) : Ready path es := by
  induction h generalizing path with
  | @intro room es nodup bare plain below ih =>
    have hbelow (e : String × Value) (he : e ∈ es) (sub : List (String × Value)) (hsub : sub ∈ tablesOf e.2) :
        Ready (path ++ [e.1]) sub := by
      refine ih e he sub hsub _ (fun key hkey => ?_) (by rw [List.length_append, List.length_singleton]; omega)
      rcases List.mem_append.1 hkey with hkey | hkey
      · exact hpath key hkey
      · rw [List.mem_singleton.1 hkey]
        exact bare e he
    have hfresh (e : String × Value) (he : e ∈ es) (hheader : hasHeader e.2 = true) :
        Entries.get? e.1 (plainEntries es) = none := by
      refine get?_eq_none fun hmem => ?_
      have hkeys := nodup_entries nodup
      rw [keys_entries, List.nodup_append] at hkeys
      refine hkeys.2.2 e.1 ?_ e.1 (List.mem_map.2 ⟨e, List.mem_filter.2 ⟨he, hheader⟩, rfl⟩) rfl
      simpa [plainEntries, List.map_map, Function.comp_def] using hmem
    exact ⟨by omega, nodup, gives_fields bare plain, makes_fields hbelow hpath bare nodup hfresh⟩

/-! ## Whole documents -/

theorem readStatements_end (fuel : Nat) (done : List Statement) :
    readStatements (fuel + 1) done [] = some done.reverse := rfl

theorem Gives.whole {cs : List Char} {sts : List Statement} (h : Gives cs sts) {fuel : Nat} (hfuel : cs.length < fuel) :
    readStatements fuel [] cs = some sts := by
  have hread := h.read fuel [] [] (by simpa using hfuel)
  have hlen := h.length
  obtain ⟨rest, hrest⟩ : ∃ n, fuel - sts.length = n + 1 := ⟨fuel - sts.length - 1, by omega⟩
  rw [List.append_nil, hrest, readStatements_end] at hread
  simpa using hread

/-- A line break in front does not matter. -/
theorem readStatements_newline (fuel : Nat) (cs : List Char) :
    readStatements fuel [] ('\n' :: cs) = readStatements fuel [] cs := by
  cases fuel with
  | zero => rfl
  | succ fuel => rfl

theorem readStatements_byteOrderMark (fuel : Nat) (cs : List Char) : readStatements fuel [] ('\uFEFF' :: cs) = none := by
  cases fuel with
  | zero => rfl
  | succ fuel => rfl

theorem parse?_of_read {text : String} {sts : List Statement}
    (h : readStatements (2 * text.toList.length + 2) [] text.toList = some sts) :
    parse? text = Document.ofStatements? sts := by
  unfold parse?
  split
  · next rest heq =>
    rw [heq, readStatements_byteOrderMark] at h
    cases h
  · simp only [h, Option.bind_some]

/-- The text of a document is its fields and a block of tables, but for a blank line in front. -/
theorem read_write {sts : List Statement}
    (h : Gives ((writeFields es).toList ++ block (partsOfFields [] es)) sts) :
    readStatements (2 * (write es).toList.length + 2) [] (write es).toList = some sts := by
  by_cases hempty : (writeFields es).isEmpty = true
  · rw [write, if_pos hempty]
    rw [String.isEmpty_iff.1 hempty] at h
    cases hparts : partsOfFields [] es with
    | nil =>
      rw [hparts] at h
      exact h.whole (by simp [block])
    | cons p ps =>
      have htext : block (p :: ps) = '\n' :: ("\n".intercalate (p :: ps)).toList := by
        rw [toList_intercalate]
        rfl
      rw [hparts, htext] at h
      rw [← readStatements_newline]
      exact h.whole (by simp; omega)
  · rw [write, if_neg hempty, toList_intercalate]
    exact h.whole (by omega)

/-- **A document that is written is read back.** -/
theorem parse_write {room : Nat} (h : Writable room es) (hroom : room ≤ maxDepth + 1) :
    parse? (write es) = some (restored es) := by
  have hready := h.ready [] nofun (by simpa using hroom)
  obtain ⟨sts, hgives, hgoes⟩ := hready.below
  rw [parse?_of_read (read_write (hready.fields.append hgives)), ofStatements?_append hready.fills hgoes]
  rfl

end Codemod.Data.Toml
