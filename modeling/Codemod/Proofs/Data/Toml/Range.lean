/-
Every integer that is read from a TOML text has 64 bits, wherever in the document it stands (`bounded_of_parse`):
the reader of numbers gives no other, and statements put nothing into a document but what was read.
-/
import Codemod.Proofs.Data.Toml.Document

namespace Codemod.Data.Toml

open Text Entries

/-- Values of which every integer has 64 bits. -/
inductive Bounded : Value → Prop
  | null : Bounded .null
  | bool (b : Bool) : Bounded (.bool b)
  | int {n : Int} (h : Fits n) : Bounded (.int n)
  | float (text : String) : Bounded (.float text)
  | moment (text : String) : Bounded (.moment text)
  | text (s : String) : Bounded (.text s)
  | list {items : List Value} (h : ∀ v ∈ items, Bounded v) : Bounded (.list items)
  | table {es : List (String × Value)} (h : ∀ e ∈ es, Bounded e.2) : Bounded (.table es)

/-! ## Documents -/

/-- Entries of a document with such values below them. -/
def BoundedEntries (es : Entries) : Prop := ∀ e ∈ es, Bounded (toValue e.2)

variable {es es' : Entries} {key last : String} {n : Node} {v : Value} {path : List String}

theorem bounded_table_iff (origin : Origin) : Bounded (toValue (.table origin es)) ↔ BoundedEntries es := by
  rw [toValue, toFields_eq]
  constructor
  · intro h e he
    cases h with
    | table h => exact h _ (List.mem_map_of_mem he)
  · intro h
    refine .table fun f hf => ?_
    obtain ⟨e, he, rfl⟩ := List.mem_map.1 hf
    exact h e he

theorem bounded_tables_iff {items : List Entries} :
    Bounded (toValue (.tables items)) ↔ ∀ es ∈ items, BoundedEntries es := by
  have hitem (es : Entries) : Bounded (.table (toFields es)) ↔ BoundedEntries es :=
    bounded_table_iff .stated
  rw [toValue, toItems_eq, List.append_nil]
  constructor
  · intro h es hes
    cases h with
    | list h => exact (hitem es).1 (h _ (List.mem_reverse.2 (List.mem_map_of_mem hes)))
  · intro h
    refine .list fun v hv => ?_
    obtain ⟨es, hes, rfl⟩ := List.mem_map.1 (List.mem_reverse.1 hv)
    exact (hitem es).2 (h es hes)

namespace BoundedEntries

theorem nil : BoundedEntries [] := nofun

theorem get? (h : BoundedEntries es) (hn : es.get? key = some n) : Bounded (toValue n) := by
  obtain ⟨e, he, rfl⟩ := Option.map_eq_some_iff.1 hn
  exact h e (List.mem_of_find?_eq_some he)

theorem append_new (h : BoundedEntries es) (hn : Bounded (toValue n)) : BoundedEntries (es ++ [(key, n)]) := by
  intro e he
  rcases List.mem_append.1 he with he | he
  · exact h e he
  · rw [List.mem_singleton.1 he]
    exact hn

theorem put (h : BoundedEntries es) (hn : Bounded (toValue n)) : BoundedEntries (es.put key n) := by
  induction es with
  | nil => exact nil.append_new hn
  | cons e es ih =>
    obtain ⟨he, hes⟩ := List.forall_mem_cons.1 h
    rw [Entries.put]
    split
    · exact List.forall_mem_cons.2 ⟨hn, hes⟩
    · exact List.forall_mem_cons.2 ⟨he, ih hes⟩

/-- A change of entries that keeps this. -/
def Keeps (f : Entries → Option Entries) : Prop :=
  ∀ es es', BoundedEntries es → f es = some es' → BoundedEntries es'

theorem changeLast {f : Entries → Option Entries} (hf : Keeps f) {items items' : List Entries}
    (h : ∀ es ∈ items, BoundedEntries es) (hc : Entries.changeLast f items = some items') :
    ∀ es ∈ items', BoundedEntries es := by
  cases items with
  | nil => cases hc
  | cons es items =>
    obtain ⟨hes, hitems⟩ := List.forall_mem_cons.1 h
    obtain ⟨es', hes', rfl⟩ := Option.map_eq_some_iff.1 hc
    exact List.forall_mem_cons.2 ⟨hf es es' hes hes', hitems⟩

theorem keeps_change {f : Entries → Option Entries} (hf : Keeps f) (path : List String) : Keeps (change f path) := by
  induction path with
  | nil => exact hf
  | cons key path ih =>
    intro es es' h hc
    rw [change] at hc
    split at hc
    · obtain ⟨sub, hsub, rfl⟩ := Option.map_eq_some_iff.1 hc
      exact h.append_new ((bounded_table_iff _).2 (ih [] sub nil hsub))
    · cases hc
    · next hget =>
      obtain ⟨sub', hsub, rfl⟩ := Option.map_eq_some_iff.1 hc
      exact h.put ((bounded_table_iff _).2 (ih _ sub' ((bounded_table_iff _).1 (h.get? hget)) hsub))
    · next hget =>
      obtain ⟨items', hitems, rfl⟩ := Option.map_eq_some_iff.1 hc
      exact h.put (bounded_tables_iff.2 (changeLast ih (bounded_tables_iff.1 (h.get? hget)) hitems))

theorem keeps_assign (hv : Bounded v) (last : String) (path : List String) : Keeps (assign v last path) := by
  induction path with
  | nil =>
    intro es es' h hc
    rw [assign] at hc
    split at hc
    · cases hc
    · obtain rfl := Option.some.inj hc
      exact h.append_new hv
  | cons key path ih =>
    intro es es' h hc
    rw [assign] at hc
    split at hc
    · obtain ⟨sub, hsub, rfl⟩ := Option.map_eq_some_iff.1 hc
      exact h.append_new ((bounded_table_iff _).2 (ih [] sub nil hsub))
    · cases hc
    · cases hc
    · next hget =>
      rw [Option.ite_none_left_eq_some] at hc
      obtain ⟨sub', hsub, rfl⟩ := Option.map_eq_some_iff.1 hc.2
      exact h.put ((bounded_table_iff _).2 (ih _ sub' ((bounded_table_iff _).1 (h.get? hget)) hsub))
    · next hget =>
      obtain ⟨sub', hsub, rfl⟩ := Option.map_eq_some_iff.1 hc
      exact h.put ((bounded_table_iff _).2 (ih _ sub' ((bounded_table_iff _).1 (h.get? hget)) hsub))
    · next hget =>
      rw [Option.ite_none_left_eq_some] at hc
      obtain ⟨items', hitems, rfl⟩ := Option.map_eq_some_iff.1 hc.2
      exact h.put (bounded_tables_iff.2 (changeLast ih (bounded_tables_iff.1 (h.get? hget)) hitems))

theorem keeps_openTable (last : String) : Keeps (openTable last) := by
  intro es es' h hc
  rw [openTable] at hc
  split at hc
  · obtain rfl := Option.some.inj hc
    exact h.append_new ((bounded_table_iff _).2 nil)
  · next hget =>
    obtain rfl := Option.some.inj hc
    exact h.put ((bounded_table_iff _).2 ((bounded_table_iff _).1 (h.get? hget)))
  · cases hc

theorem keeps_openItem (last : String) : Keeps (openItem last) := by
  intro es es' h hc
  rw [openItem] at hc
  split at hc
  · obtain rfl := Option.some.inj hc
    exact h.append_new (bounded_tables_iff.2 (List.forall_mem_cons.2 ⟨nil, List.forall_mem_nil _⟩))
  · next hget =>
    obtain rfl := Option.some.inj hc
    exact h.put (bounded_tables_iff.2 (List.forall_mem_cons.2 ⟨nil, bounded_tables_iff.1 (h.get? hget)⟩))
  · cases hc

end BoundedEntries

open BoundedEntries

/-- A statement with such a value, if it has one. -/
def BoundedStatement : Statement → Prop
  | .assign _ _ v => Bounded v
  | _ => True

theorem bounded_add {d d' : Document} {st : Statement} (hst : BoundedStatement st) (hd : BoundedEntries d.entries)
    (h : d.add st = some d') : BoundedEntries d'.entries := by
  cases st with
  | assign path last v =>
    obtain ⟨es, hes, rfl⟩ := Option.map_eq_some_iff.1 h
    exact keeps_change (keeps_assign hst last path) d.heading _ _ hd hes
  | table path last =>
    obtain ⟨es, hes, rfl⟩ := Option.map_eq_some_iff.1 h
    exact keeps_change (keeps_openTable last) path _ _ hd hes
  | item path last =>
    obtain ⟨es, hes, rfl⟩ := Option.map_eq_some_iff.1 h
    exact keeps_change (keeps_openItem last) path _ _ hd hes

theorem bounded_foldlM {sts : List Statement} (hsts : ∀ st ∈ sts, BoundedStatement st) {d d' : Document}
    (hd : BoundedEntries d.entries) (h : sts.foldlM Document.add d = some d') : BoundedEntries d'.entries := by
  induction sts generalizing d with
  | nil =>
    obtain rfl := Option.some.inj h
    exact hd
  | cons st sts ih =>
    obtain ⟨hst, hsts⟩ := List.forall_mem_cons.1 hsts
    rw [List.foldlM_cons] at h
    obtain ⟨e, he, h⟩ := Option.bind_eq_some_iff.1 h
    exact ih hsts (bounded_add hst hd he) h

/-! ## Values -/

theorem bounded_readBased {base : Nat} {ok : Char → Bool} {cs rest : List Char}
    (h : readBased base ok cs = some (v, rest)) : Bounded v := by
  simp only [readBased, Option.bind_eq_bind, Option.bind_eq_some_iff, Option.ite_none_right_eq_some] at h
  obtain ⟨ds, -, hlt, hv⟩ := h
  obtain ⟨rfl, -⟩ := Prod.mk.inj (Option.some.inj hv)
  exact .int ⟨by omega, by omega⟩

theorem bounded_readDecimal {cs rest : List Char} (h : readDecimal cs = some (v, rest)) : Bounded v := by
  simp only [readDecimal, Option.bind_eq_bind, Option.bind_eq_some_iff] at h
  obtain ⟨whole, -, fraction, -, exponent, -, h⟩ := h
  split at h
  · obtain ⟨hfits, hv⟩ := Option.ite_none_right_eq_some.1 h
    obtain ⟨rfl, -⟩ := Prod.mk.inj (Option.some.inj hv)
    exact .int hfits
  · obtain ⟨-, hv⟩ := Option.ite_none_left_eq_some.1 h
    obtain ⟨rfl, -⟩ := Prod.mk.inj (Option.some.inj hv)
    exact .float _

theorem bounded_readNumber {cs rest : List Char} (h : readNumber cs = some (v, rest)) : Bounded v := by
  unfold readNumber at h
  split at h
  · exact bounded_readBased h
  · exact bounded_readBased h
  · exact bounded_readBased h
  · simp only at h
    split at h
    · obtain ⟨rfl, -⟩ := Prod.mk.inj (Option.some.inj h)
      exact .float _
    · obtain ⟨rfl, -⟩ := Prod.mk.inj (Option.some.inj h)
      exact .float _
    · exact bounded_readDecimal h

/-- The three readers of values, by how much they may read. -/
theorem bounded_read (fuel : Nat) :
    (∀ room cs v rest, readValue fuel room cs = some (v, rest) → Bounded v)
    ∧ (∀ room done cs items rest, (∀ v ∈ done, Bounded v) → readItems fuel room done cs = some (items, rest) →
      ∀ v ∈ items, Bounded v)
    ∧ (∀ room done cs es rest, BoundedEntries done → readPairs fuel room done cs = some (es, rest) →
      BoundedEntries es) := by
  induction fuel with
  | zero => exact ⟨fun _ _ _ _ h => (by cases h), fun _ _ _ _ _ _ h => (by cases h), fun _ _ _ _ _ _ h => (by cases h)⟩
  | succ fuel ih =>
    obtain ⟨ihValue, ihItems, ihPairs⟩ := ih
    refine ⟨fun room cs v rest h => ?_, fun room done cs items rest hdone h => ?_, fun room done cs es rest hdone h => ?_⟩
    · unfold readValue at h
      split at h
      case h_1 | h_2 =>
        obtain ⟨⟨s, more⟩, -, hv⟩ := Option.map_eq_some_iff.1 h
        obtain ⟨rfl, -⟩ := Prod.mk.inj hv
        exact .text s
      case h_3 =>
        cases room with
        | zero => cases h
        | succ room =>
          obtain ⟨more, -, h⟩ := Option.bind_eq_some_iff.1 h
          split at h
          · obtain ⟨rfl, -⟩ := Prod.mk.inj (Option.some.inj h)
            exact .list (List.forall_mem_nil _)
          · obtain ⟨⟨items, more⟩, hitems, hv⟩ := Option.bind_eq_some_iff.1 h
            obtain ⟨rfl, -⟩ := Prod.mk.inj (Option.some.inj hv)
            exact .list (ihItems room [] _ items more (List.forall_mem_nil _) hitems)
      case h_4 =>
        cases room with
        | zero => cases h
        | succ room =>
          simp only at h
          split at h
          · obtain ⟨rfl, -⟩ := Prod.mk.inj (Option.some.inj h)
            exact .table (List.forall_mem_nil _)
          · obtain ⟨⟨es, more⟩, hpairs, hv⟩ := Option.bind_eq_some_iff.1 h
            obtain ⟨rfl, -⟩ := Prod.mk.inj (Option.some.inj hv)
            exact (bounded_table_iff .stated).2 (ihPairs room [] _ es more nil hpairs)
      case h_5 | h_6 =>
        obtain ⟨rfl, -⟩ := Prod.mk.inj (Option.some.inj h)
        exact .bool _
      case h_7 =>
        split at h
        · obtain ⟨rfl, -⟩ := Prod.mk.inj (Option.some.inj h)
          exact .moment _
        · exact bounded_readNumber h
    · simp only [readItems, Option.bind_eq_bind, Option.bind_eq_some_iff] at h
      obtain ⟨⟨v, more⟩, hv, filler, -, h⟩ := h
      have hdone : ∀ w ∈ v :: done, Bounded w := List.forall_mem_cons.2 ⟨ihValue room cs v more hv, hdone⟩
      have hback : ∀ w ∈ (v :: done).reverse, Bounded w := fun w hw => hdone w (List.mem_reverse.1 hw)
      split at h
      · obtain ⟨rfl, -⟩ := Prod.mk.inj (Option.some.inj h)
        exact hback
      · obtain ⟨next, -, h⟩ := Option.bind_eq_some_iff.1 h
        split at h
        · obtain ⟨rfl, -⟩ := Prod.mk.inj (Option.some.inj h)
          exact hback
        · exact ihItems room _ _ items rest hdone h
      · cases h
    · simp only [readPairs, Option.bind_eq_bind, Option.bind_eq_some_iff] at h
      obtain ⟨⟨path, last, more⟩, -, h⟩ := h
      split at h
      · obtain ⟨⟨v, behind⟩, hv, h⟩ := Option.bind_eq_some_iff.1 h
        obtain ⟨done', hassign, h⟩ := Option.bind_eq_some_iff.1 h
        have hdone' : BoundedEntries done' :=
          keeps_assign (ihValue room _ v behind hv) last path done done' hdone hassign
        split at h
        · obtain ⟨rfl, -⟩ := Prod.mk.inj (Option.some.inj h)
          exact hdone'
        · exact ihPairs room done' _ es rest hdone' h
        · cases h
      · cases h

/-! ## Statements -/

theorem bounded_readStatement {fuel : Nat} {cs rest : List Char} {st : Statement}
    (h : readStatement fuel cs = some (st, rest)) : BoundedStatement st := by
  unfold readStatement at h
  split at h
  case h_1 | h_2 =>
    simp only [readHeader, Option.bind_eq_bind, Option.bind_eq_some_iff] at h
    obtain ⟨⟨path, last, more⟩, -, h⟩ := h
    split at h
    · obtain ⟨rfl, -⟩ := Prod.mk.inj (Option.some.inj h)
      trivial
    · obtain ⟨rfl, -⟩ := Prod.mk.inj (Option.some.inj h)
      trivial
    · cases h
  case h_3 =>
    simp only [Option.bind_eq_bind, Option.bind_eq_some_iff] at h
    obtain ⟨⟨path, last, more⟩, -, h⟩ := h
    split at h
    · obtain ⟨⟨v, behind⟩, hv, h⟩ := Option.bind_eq_some_iff.1 h
      obtain ⟨rfl, -⟩ := Prod.mk.inj (Option.some.inj h)
      exact (bounded_read fuel).1 maxDepth _ v behind hv
    · cases h

theorem bounded_readStatements {fuel : Nat} {done sts : List Statement} {cs : List Char}
    (hdone : ∀ st ∈ done, BoundedStatement st) (h : readStatements fuel done cs = some sts) :
    ∀ st ∈ sts, BoundedStatement st := by
  induction fuel generalizing done cs with
  | zero => cases h
  | succ fuel ih =>
    simp only [readStatements, Option.bind_eq_bind, Option.bind_eq_some_iff] at h
    obtain ⟨more, -, h⟩ := h
    split at h
    · obtain rfl := Option.some.inj h
      exact fun st hst => hdone st (List.mem_reverse.1 hst)
    · simp only [Option.bind_eq_some_iff] at h
      obtain ⟨⟨st, behind⟩, hst, after, -, h⟩ := h
      exact ih (List.forall_mem_cons.2 ⟨bounded_readStatement hst, hdone⟩) h

/-- **No integer of a document that is read has more than 64 bits.** -/
theorem bounded_of_parse {text : String} {fields : List (String × Value)} (h : parse? text = some fields) :
    Bounded (.table fields) := by
  obtain ⟨sts, hsts, hdocument⟩ := Option.bind_eq_some_iff.1 h
  obtain ⟨d, hd, rfl⟩ := Option.map_eq_some_iff.1 hdocument
  exact (bounded_table_iff .stated).2
    (bounded_foldlM (bounded_readStatements (List.forall_mem_nil _) hsts) nil hd)

end Codemod.Data.Toml
