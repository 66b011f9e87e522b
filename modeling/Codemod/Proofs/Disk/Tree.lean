/-
What a change to a tree changes. A tree is looked at place by place: `at?` gives what is at a place,
but for the entries of a directory, so that two trees are the same if they agree at every place.
Putting a file at a place, or taking one away, changes nothing at any other place (`at?_alter`). Two
trees in which the directories and the links are the same (`SameWays`) are the same for whoever
follows a path.
-/
import Mathlib.Data.List.Basic
import Codemod.Disk.Node

namespace Codemod.Disk

namespace Entries

variable {name : String} {m n : Node} {es : Entries}

theorem put_put (name : String) (m n : Node) (es : Entries) :
    put name n (put name m es) = put name n es := by
  induction es with
  | nil => simp [put]
  | cons e es ih =>
    obtain ⟨k, a⟩ := e
    by_cases h : k = name
    · simp [put, h]
    · simpa [put, h] using ih

theorem erase_put (name : String) (n : Node) (es : Entries) :
    erase name (put name n es) = erase name es := by
  induction es with
  | nil => simp [put, erase]
  | cons e es ih =>
    obtain ⟨k, a⟩ := e
    by_cases h : k = name
    · simp [put, erase, h]
    · simpa [put, erase, h] using ih

theorem put_of_get? (h : get? name es = some n) : put name n es = es := by
  induction es with
  | nil => simp [get?] at h
  | cons e es ih =>
    obtain ⟨k, a⟩ := e
    by_cases hk : k = name
    · obtain rfl : a = n := by simpa [get?, hk] using h
      simp [put, hk]
    · have hrest : get? name es = some n := by simpa [get?, hk] using h
      simp [put, hk, ih hrest]

theorem erase_of_get? (h : get? name es = none) : erase name es = es := by
  simp only [get?, Option.map_eq_none_iff, List.find?_eq_none] at h
  rw [erase, List.filter_eq_self]
  exact fun e he => by simpa using h e he

theorem mem_names : name ∈ names es ↔ ∃ n, get? name es = some n := by
  induction es with
  | nil => simp [names, get?]
  | cons e es ih =>
    obtain ⟨k, a⟩ := e
    by_cases h : k = name
    · simp [names, get?, h]
    · have hne : name ≠ k := Ne.symm h
      simpa [names, get?, h, hne] using ih

theorem nodup_names (es : Entries) : (names es).Nodup := by
  induction es with
  | nil => exact .nil
  | cons e es ih =>
    rw [names, List.nodup_cons]
    exact ⟨by simp, ih.filter _⟩

end Entries

/-- What there is at a place, but for the entries of a directory. -/
inductive Label where
  | file (content : ByteArray) (mode : Nat)
  | link (target : String)
  | full
  | dir (mode : Nat)

/-- How a path goes on from a place: by its entries, or by the target of a link. -/
inductive Way where
  | entries
  | target (t : String)

def Label.way? : Label → Option Way
  | file .. | full => none
  | link t => some (.target t)
  | dir _ => some .entries

namespace Node

def label : Node → Label
  | file content mode => .file content mode
  | link t => .link t
  | full => .full
  | dir mode _ => .dir mode

/-- What is at a place of a tree. -/
def at? (root : Node) (loc : Location) : Option Label := (root.get? loc).map label

def way? (root : Node) (loc : Location) : Option Way := (root.at? loc).bind Label.way?

theorem at?_eq_none {root : Node} {loc : Location} : root.at? loc = none ↔ root.get? loc = none :=
  Option.map_eq_none_iff

theorem at?_eq_file {root : Node} {loc : Location} {c : ByteArray} {k : Nat} :
    root.at? loc = some (.file c k) ↔ root.get? loc = some (.file c k) := by
  rw [at?]
  cases root.get? loc with
  | none => simp
  | some n => cases n <;> simp [label]

/-- Whether no path goes on from a node. -/
def isLeaf : Node → Bool
  | file .. | full => true
  | link _ | dir .. => false

variable {root r s n : Node} {loc l : Location} {x : String} {mode : Nat} {es : Entries}
  {f g : Option Node → Option Node}

/-! ## Places -/

@[simp] theorem get?_nil (n : Node) : n.get? [] = some n := by cases n <;> rfl

theorem get?_append (root : Node) (a b : Location) :
    root.get? (a ++ b) = (root.get? a).bind (·.get? b) := by
  induction a generalizing root with
  | nil => simp
  | cons k a ih =>
    cases root with
    | dir mode es =>
      simp only [List.cons_append, get?]
      cases Entries.get? k es with
      | none => rfl
      | some m => exact ih m
    | file | link | full => rfl

theorem get?_concat (h : root.get? loc = some (.dir mode es)) (x : String) :
    root.get? (loc ++ [x]) = Entries.get? x es := by
  rw [get?_append, h]
  simp only [Option.bind_some, get?]
  cases Entries.get? x es <;> simp

theorem get?_below_leaf (h : root.get? loc = some n) (hn : n.isDir = false) (x : String)
    (rest : Location) : root.get? (loc ++ x :: rest) = none := by
  rw [get?_append, h]
  cases n <;> simp_all [get?, isDir]

/-- Above what is there, there are directories. -/
theorem exists_dir_above {rest : Location} (h : root.get? (loc ++ x :: rest) = some n) :
    ∃ mode es, root.get? loc = some (.dir mode es) := by
  rw [get?_append] at h
  cases hm : root.get? loc with
  | none => simp [hm] at h
  | some m =>
    cases m with
    | dir mode es => exact ⟨mode, es, rfl⟩
    | file | link | full => simp [hm, get?] at h

/-! ## Changes -/

theorem get?_alter_self (h : root.get? loc = some (.dir mode es)) :
    (root.alter f (loc ++ [x])).get? (loc ++ [x]) = f (Entries.get? x es) := by
  induction loc generalizing root with
  | nil =>
    obtain rfl : root = .dir mode es := by simpa using h
    simp only [List.nil_append, alter]
    cases hf : f (Entries.get? x es) with
    | some n => simp [get?, Entries.get?_put_self]
    | none => simp [get?, Entries.get?_erase_self]
  | cons k loc ih =>
    cases root with
    | dir mode' es' =>
      simp only [get?, Option.bind_eq_some_iff] at h
      obtain ⟨m, hm, h⟩ := h
      obtain ⟨next, rest, hnext⟩ := List.exists_cons_of_ne_nil (l := loc ++ [x]) (by simp)
      have ih := ih h
      rw [hnext] at ih
      simp only [List.cons_append, hnext, alter, hm, get?, Entries.get?_put_self]
      simpa using ih
    | file | link | full => simp [get?] at h

/-- What does not lie at or below the place of a change stays. -/
theorem at?_alter_elsewhere (h : ¬ loc <+: l) : (root.alter f loc).at? l = root.at? l := by
  induction loc generalizing root l with
  | nil => exact absurd List.nil_prefix h
  | cons k loc ih =>
    cases root with
    | file | link | full => cases loc <;> rfl
    | dir mode es =>
      cases l with
      | nil =>
        cases loc with
        | nil => simp only [alter]; split <;> simp [at?, label]
        | cons next rest => simp only [alter]; split <;> simp [at?, label]
      | cons j l =>
        cases loc with
        | nil =>
          have hj : j ≠ k := fun hj => h (by simp [hj])
          simp only [alter]
          split <;> simp [at?, get?, Entries.get?_put_other hj, Entries.get?_erase_other hj]
        | cons next rest =>
          simp only [alter]
          split
          · rename_i m hm
            by_cases hj : j = k
            · subst hj
              have hrest : ¬ next :: rest <+: l := fun hp => h (by simpa using hp)
              have ih : (m.alter f (next :: rest)).at? l = m.at? l := ih hrest
              simpa [at?, get?, Entries.get?_put_self, hm] using ih
            · simp [at?, get?, Entries.get?_put_other hj]
          · rfl

/-- **A change that puts no directory in place of none changes nothing elsewhere.** -/
theorem at?_alter (h : root.get? loc = some (.dir mode es))
    (hold : ∀ n, Entries.get? x es = some n → n.isDir = false)
    (hnew : ∀ n, f (Entries.get? x es) = some n → n.isDir = false) (l : Location) :
    (root.alter f (loc ++ [x])).at? l
      = if l = loc ++ [x] then (f (Entries.get? x es)).map label else root.at? l := by
  by_cases hp : loc ++ [x] <+: l
  · obtain ⟨rest, rfl⟩ := hp
    cases rest with
    | nil => simp [at?, get?_alter_self h]
    | cons y rest =>
      have hbefore : root.get? (loc ++ [x] ++ y :: rest) = none := by
        cases hn : Entries.get? x es with
        | none => rw [get?_append, get?_concat h, hn]; rfl
        | some n => exact get?_below_leaf ((get?_concat h x).trans hn) (hold n hn) y rest
      have hafter : (root.alter f (loc ++ [x])).get? (loc ++ [x] ++ y :: rest) = none := by
        cases hn : f (Entries.get? x es) with
        | none => rw [get?_append, get?_alter_self h, hn]; rfl
        | some n => exact get?_below_leaf ((get?_alter_self h).trans hn) (hnew n hn) y rest
      rw [if_neg (by simp), at?, at?, hbefore, hafter]
  · rw [at?_alter_elsewhere hp, if_neg]
    rintro rfl
    exact hp (List.prefix_refl _)

/-- Of two changes at one place the second counts, if the first leaves something there. -/
theorem alter_alter (hloc : loc ≠ []) (hg : ∀ o, ∃ n, g o = some n) (root : Node) :
    (root.alter g loc).alter f loc = root.alter (fun o => f (g o)) loc := by
  induction loc generalizing root with
  | nil => exact absurd rfl hloc
  | cons k loc ih =>
    cases root with
    | file | link | full => cases loc <;> rfl
    | dir mode es =>
      cases loc with
      | nil =>
        obtain ⟨n, hn⟩ := hg (Entries.get? k es)
        simp only [alter, hn, Entries.get?_put_self]
        cases f (some n) with
        | some m => simp [Entries.put_put]
        | none => simp [Entries.erase_put]
      | cons next rest =>
        cases hm : Entries.get? k es with
        | none => simp [alter, hm]
        | some m => simp [alter, hm, Entries.get?_put_self, Entries.put_put, ih]

theorem put_put (hloc : loc ≠ []) (root m n : Node) :
    (root.put loc m).put loc n = root.put loc n :=
  alter_alter hloc (fun _ => ⟨m, rfl⟩) root

theorem erase_put (hloc : loc ≠ []) (root m : Node) :
    (root.put loc m).erase loc = root.erase loc :=
  alter_alter hloc (fun _ => ⟨m, rfl⟩) root

/-- Taking away what is not there changes nothing. -/
theorem erase_of_get? (h : root.get? loc = none) : root.erase loc = root := by
  simp only [erase]
  induction loc generalizing root with
  | nil => simp at h
  | cons k loc ih =>
    cases root with
    | file | link | full => cases loc <;> rfl
    | dir mode es =>
      simp only [get?, Option.bind_eq_none_iff] at h
      cases loc with
      | nil =>
        have hk : Entries.get? k es = none :=
          Option.eq_none_iff_forall_ne_some.2 fun n hn => by simpa using h n hn
        simp [alter, Entries.erase_of_get? hk]
      | cons next rest =>
        cases hm : Entries.get? k es with
        | none => simp [alter, hm]
        | some m => simp [alter, hm, ih (h m hm), Entries.put_of_get? hm]

/-! ## Ways -/

theorem way?_of_dir (h : root.get? loc = some (.dir mode es)) : root.way? loc = some .entries := by
  simp [way?, at?, h, label, Label.way?]

theorem exists_dir_of_way? (h : root.way? loc = some .entries) :
    ∃ mode es, root.get? loc = some (.dir mode es) := by
  simp only [way?, at?] at h
  cases hn : root.get? loc with
  | none => simp [hn] at h
  | some n =>
    cases n with
    | dir mode es => exact ⟨mode, es, rfl⟩
    | file | link | full => simp [hn, label, Label.way?] at h

theorem way?_eq_target {t : String} :
    root.way? loc = some (.target t) ↔ root.get? loc = some (.link t) := by
  simp only [way?, at?]
  cases hn : root.get? loc with
  | none => simp
  | some n => cases n <;> simp [label, Label.way?]

/-- Two trees with the same directories and the same links. -/
def SameWays (r s : Node) : Prop := ∀ loc, r.way? loc = s.way? loc

namespace SameWays

theorem refl (r : Node) : r.SameWays r := fun _ => rfl

theorem symm (h : r.SameWays s) : s.SameWays r := fun loc => (h loc).symm

theorem trans {t : Node} (h : r.SameWays s) (h' : s.SameWays t) : r.SameWays t := fun loc =>
  (h loc).trans (h' loc)

theorem dir (h : r.SameWays s) (hr : r.get? loc = some (.dir mode es)) :
    ∃ mode es, s.get? loc = some (.dir mode es) :=
  exists_dir_of_way? ((h loc).symm.trans (way?_of_dir hr))

theorem link (h : r.SameWays s) {t : String} (hr : r.get? loc = some (.link t)) :
    s.get? loc = some (.link t) :=
  way?_eq_target.1 ((h loc).symm.trans (way?_eq_target.2 hr))

end SameWays

theorem way?_label (h : n.isLeaf = true) : n.label.way? = none := by
  cases n <;> simp_all [isLeaf, label, Label.way?]

theorem isDir_of_isLeaf (h : n.isLeaf = true) : n.isDir = false := by
  cases n <;> simp_all [isLeaf, isDir]

/-- A change among what no path goes on from leaves all ways as they are. -/
theorem sameWays_alter (h : root.get? loc = some (.dir mode es))
    (hold : ∀ n, Entries.get? x es = some n → n.isLeaf = true)
    (hnew : ∀ n, f (Entries.get? x es) = some n → n.isLeaf = true) :
    root.SameWays (root.alter f (loc ++ [x])) := by
  intro l
  rw [way?, way?, at?_alter h (fun n hn => isDir_of_isLeaf (hold n hn))
    (fun n hn => isDir_of_isLeaf (hnew n hn))]
  split
  · rename_i hl
    rw [hl, at?, get?_concat h]
    cases ho : Entries.get? x es with
    | none =>
      cases hf : f none with
      | none => rfl
      | some n => simp [way?_label (hnew n (by rw [ho, hf]))]
    | some m =>
      cases hf : f (some m) with
      | none => simp [way?_label (hold m ho)]
      | some n => simp [way?_label (hold m ho), way?_label (hnew n (by rw [ho, hf]))]
  · rfl

/-! ## Heights -/

theorem height_of_entry {n : Node} (h : Entries.get? x es = some n) :
    n.height + 1 ≤ (Node.dir mode es).height := by
  induction es with
  | nil => simp [Entries.get?] at h
  | cons e es ih =>
    obtain ⟨k, m⟩ := e
    simp only [height, heightOf] at ih ⊢
    by_cases hk : k = x
    · obtain rfl : m = n := by simpa [Entries.get?, hk] using h
      omega
    · have := ih (by simpa [Entries.get?, hk] using h)
      omega

theorem height_le_of_get? (h : root.get? loc = some n) : n.height ≤ root.height := by
  induction loc generalizing root with
  | nil =>
    obtain rfl : root = n := by simpa using h
    exact Nat.le_refl _
  | cons k loc ih =>
    cases root with
    | dir mode es =>
      simp only [get?, Option.bind_eq_some_iff] at h
      obtain ⟨m, hm, h⟩ := h
      have h1 := ih h
      have h2 : m.height + 1 ≤ (Node.dir mode es).height := height_of_entry hm
      omega
    | file | link | full => simp [get?] at h

end Node

end Codemod.Disk
