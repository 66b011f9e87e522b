/-
A document as statements change it. What a header leads to is changed and all else stays, so a document is seen as
a place with entries in it (`place`), and what statements do is said about the entries there (`Goes`): it holds
wherever the place is.
-/
import Codemod.Data.Toml.Document

namespace Codemod.Data.Toml

namespace Entries

variable {es es' root a b : Entries} {key last : String} {m n : Node} {path : List String}

/-! ## Entries -/

theorem get?_append_new (h : es.get? key = none) (n : Node) : Entries.get? key (es ++ [(key, n)]) = some n := by
  rw [get?, Option.map_eq_none_iff] at h
  simp [get?, List.find?_append, h]

theorem put_append_new (h : es.get? key = none) (m n : Node) :
    Entries.put key n (es ++ [(key, m)]) = es ++ [(key, n)] := by
  induction es with
  | nil => simp [put]
  | cons e es ih =>
    obtain ⟨k, x⟩ := e
    by_cases hk : k = key
    · simp [get?, hk] at h
    · have hrest : get? key es = none := by simpa [get?, List.find?_cons, hk] using h
      simpa [put, hk] using ih hrest

theorem get?_put (key : String) (n : Node) (es : Entries) : Entries.get? key (es.put key n) = some n := by
  induction es with
  | nil => simp [put, get?]
  | cons e es ih =>
    obtain ⟨k, x⟩ := e
    by_cases hk : k = key
    · simp [put, get?, hk]
    · simpa [put, get?, List.find?_cons, hk] using ih

theorem put_put (key : String) (m n : Node) (es : Entries) :
    Entries.put key n (es.put key m) = es.put key n := by
  induction es with
  | nil => simp [put]
  | cons e es ih =>
    obtain ⟨k, x⟩ := e
    by_cases hk : k = key
    · simp [put, hk]
    · simpa [put, hk] using ih

theorem get?_eq_none (h : key ∉ es.map Prod.fst) : es.get? key = none := by
  rw [get?, Option.map_eq_none_iff, List.find?_eq_none]
  intro e he
  have hne : e.1 ≠ key := fun hkey => h (List.mem_map.2 ⟨e, he, hkey⟩)
  simpa using hne

/-! ## Places -/

theorem changeLast_changeLast (f g : Entries → Option Entries) (items : List Entries) :
    (changeLast f items).bind (changeLast g) = changeLast (fun a => (f a).bind g) items := by
  cases items with
  | nil => rfl
  | cons es items => cases hf : f es <;> simp [changeLast, hf]

/-- Two changes at one place are a change there. -/
theorem change_change (f g : Entries → Option Entries) (path : List String) (es : Entries) :
    (change f path es).bind (change g path) = change (fun a => (f a).bind g) path es := by
  induction path generalizing es with
  | nil => rfl
  | cons key path ih =>
    have hback (sub : Entries) : (change f path sub).bind (change g path) = change (fun a => (f a).bind g) path sub :=
      ih sub
    rw [change, change]
    cases hkey : es.get? key with
    | none =>
      simp only [Option.bind_map, ← hback, Option.map_bind]
      congr 1
      funext sub
      simp [change, get?_append_new hkey, put_append_new hkey]
    | some node =>
      cases node with
      | value v => rfl
      | table origin sub =>
        simp only [Option.bind_map, ← hback, Option.map_bind]
        congr 1
        funext sub
        simp [change, get?_put, put_put]
      | tables items =>
        have hsame : (fun a => (change f path a).bind (change g path)) = change (fun a => (f a).bind g) path :=
          funext hback
        simp only [Option.bind_map, ← hsame, ← changeLast_changeLast, Option.map_bind]
        congr 1
        funext items
        simp [change, get?_put, put_put]

theorem change_append (f : Entries → Option Entries) (path more : List String) (es : Entries) :
    change f (path ++ more) es = change (change f more) path es := by
  induction path generalizing es with
  | nil => rfl
  | cons key path ih =>
    have hsame : change f (path ++ more) = change (change f more) path := funext ih
    simp only [List.cons_append, change, hsame]

/-- The document in which these are the entries that keys lead to. -/
def place (path : List String) (a : Entries) (root : Entries) : Option Entries := change (fun _ => some a) path root

theorem place_change (h : place path a root = some es) (f : Entries → Option Entries) :
    change f path es = change (fun _ => f a) path root := by
  have hchange := change_change (fun _ => some a) f path root
  rw [← place, h] at hchange
  exact hchange

/-- Whether keys lead anywhere does not depend on what is there. -/
theorem isSome_place (path : List String) (a b root : Entries) :
    (place path a root).isSome = (place path b root).isSome := by
  induction path generalizing root with
  | nil => rfl
  | cons key path ih =>
    have hsub (sub : Entries) : (change (fun _ => some a) path sub).isSome = (change (fun _ => some b) path sub).isSome :=
      ih sub
    rw [place, change, place, change]
    cases root.get? key with
    | none => simp [hsub]
    | some node =>
      cases node with
      | value v => rfl
      | table origin sub => simp [hsub]
      | tables items =>
        cases items with
        | nil => rfl
        | cons sub items => simp [changeLast, hsub]

theorem exists_place (h : place path a root = some es) (b : Entries) : ∃ es', place path b root = some es' := by
  rw [← Option.isSome_iff_exists, ← isSome_place path a b, h]
  rfl

end Entries

open Entries

variable {path : List String} {last : String} {a b c cur : Entries}

/-- Statements that turn one set of entries into another at the place that keys lead to, wherever the place is. -/
def Goes (path : List String) (sts : List Statement) (a b : Entries) : Prop :=
  ∀ root (d : Document), place path a root = some d.entries →
    ∃ d', sts.foldlM Document.add d = some d' ∧ place path b root = some d'.entries

/-- The same for what stands under a header, which stays. -/
def Fills (path : List String) (sts : List Statement) (a b : Entries) : Prop :=
  ∀ root (d : Document), d.heading = path → place path a root = some d.entries →
    ∃ d', sts.foldlM Document.add d = some d' ∧ d'.heading = path ∧ place path b root = some d'.entries

theorem Goes.nil (path : List String) (a : Entries) : Goes path [] a a := fun _ d h => ⟨d, rfl, h⟩

theorem Goes.append {s t : List Statement} (h : Goes path s a b) (h' : Goes path t b c) : Goes path (s ++ t) a c := by
  intro root d hd
  obtain ⟨e, hs, he⟩ := h root d hd
  obtain ⟨f, ht, hf⟩ := h' root e he
  exact ⟨f, by rw [List.foldlM_append, hs]; exact ht, hf⟩

/-- Entries with a place among them to which one more key leads. -/
def Holds (last : String) (hole : Entries → Entries) : Prop := ∀ a b, place [last] b (hole a) = some (hole b)

theorem holds_table (h : cur.get? last = none) (origin : Origin) :
    Holds last fun a => cur ++ [(last, .table origin a)] := by
  intro a b
  simp [place, change, get?_append_new h, put_append_new h]

theorem holds_tables (h : cur.get? last = none) (items : List Entries) :
    Holds last fun a => cur ++ [(last, .tables (a :: items))] := by
  intro a b
  simp [place, change, changeLast, get?_append_new h, put_append_new h]

variable {hole : Entries → Entries} {root es : Entries} {s t : List Statement}

theorem Holds.place (hhole : Holds last hole) (h : Entries.place path (hole a) root = some es) (b : Entries) :
    Entries.place (path ++ [last]) b es = Entries.place path (hole b) root := by
  have hlower : change (fun _ => some b) [last] (hole a) = some (hole b) := hhole a b
  rw [Entries.place, change_append, place_change h, hlower]
  rfl

/-- What is done below a place is done at the place, to the entries that have the lower ones in them. -/
theorem Goes.within (h : Goes (path ++ [last]) s a b) (hhole : Holds last hole) : Goes path s (hole a) (hole b) := by
  intro root d hd
  obtain ⟨d', hrun, hd'⟩ := h d.entries d (by rw [hhole.place hd, hd])
  exact ⟨d', hrun, by rw [← hhole.place hd, hd']⟩

/-- A header and what stands under it. -/
theorem Fills.header {st : Statement} {opening : Entries → Option Entries} (h : Fills (path ++ [last]) s [] a)
    (hhole : Holds last hole) (hopen : opening cur = some (hole []))
    (hadd : ∀ d : Document, d.add st = (change opening path d.entries).map fun es => ⟨es, path ++ [last]⟩) :
    Goes path (st :: s) cur (hole a) := by
  intro root d hd
  obtain ⟨es, hes⟩ := exists_place hd (hole [])
  have hstep : d.add st = some ⟨es, path ++ [last]⟩ := by
    rw [hadd, place_change hd, hopen, ← Entries.place, hes]
    rfl
  obtain ⟨d', hrun, -, hd'⟩ := h es ⟨es, path ++ [last]⟩ rfl (by rw [hhole.place hes, hes])
  refine ⟨d', ?_, by rw [← hhole.place hes, hd']⟩
  rw [List.foldlM_cons, hstep]
  exact hrun

/-- Assignments of fields that are not there yet. -/
theorem fills_assign {fields : List (String × Value)} (hnodup : (fields.map Prod.fst).Nodup)
    (hfresh : ∀ e ∈ fields, a.get? e.1 = none) (path : List String) :
    Fills path (fields.map fun e => .assign [] e.1 e.2) a (a ++ fields.map fun e => (e.1, .value e.2)) := by
  induction fields generalizing a with
  | nil =>
    intro root d hheading hd
    exact ⟨d, rfl, hheading, by simpa using hd⟩
  | cons e fields ih =>
    intro root d hheading hd
    obtain ⟨hnew, hnodup⟩ := List.nodup_cons.1 hnodup
    obtain ⟨he, hfields⟩ := List.forall_mem_cons.1 hfresh
    have hassign : assign e.2 e.1 [] a = some (a ++ [(e.1, .value e.2)]) := by simp [assign, he]
    obtain ⟨es, hes⟩ := exists_place hd (a ++ [(e.1, .value e.2)])
    have hstep : d.add (.assign [] e.1 e.2) = some { d with entries := es } := by
      rw [Document.add, hheading, place_change hd, hassign, ← Entries.place, hes]
      rfl
    have hlater (f : String × Value) (hf : f ∈ fields) : (a ++ [(e.1, Node.value e.2)]).get? f.1 = none := by
      have hne : e.1 ≠ f.1 := fun heq => hnew (List.mem_map.2 ⟨f, hf, heq.symm⟩)
      have hold := hfields f hf
      rw [get?, Option.map_eq_none_iff] at hold ⊢
      simp [List.find?_append, hold, hne]
    obtain ⟨d', hrun, hheading', hd'⟩ := ih hnodup hlater root { d with entries := es } hheading hes
    refine ⟨d', ?_, hheading', by simpa using hd'⟩
    rw [List.map_cons, List.foldlM_cons, hstep]
    exact hrun

/-- A document: the fields before the first header, and the tables behind them. -/
theorem ofStatements?_append (h : Fills [] s [] a) (h' : Goes [] t a b) :
    Document.ofStatements? (s ++ t) = some (toFields b) := by
  obtain ⟨d, hs, -, hd⟩ := h [] {} rfl rfl
  obtain ⟨e, ht, he⟩ := h' [] d hd
  obtain rfl := Option.some.inj he
  rw [Document.ofStatements?, List.foldlM_append, hs]
  exact congrArg (Option.map _) ht

end Codemod.Data.Toml
