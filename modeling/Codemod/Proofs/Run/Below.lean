/-
The files that a walk is meant for, read off the tree: every entry of a directory in the order of the
names, with all that is below it (`namesBelow`). Directory by directory, this is the order of the paths
as a whole (`namesBelow_sorted`), and each file that is wanted is among them (`mem_namesBelow`).
-/
import Codemod.Proofs.Run.Walk
import Codemod.Proofs.Text.Order

namespace Codemod.Walk

open Disk Node Codemod.Path Text

variable {s : Settings} {depth mode k : Nat} {p : Path} {n : Node} {es : Entries} {x : String}
  {names : Location} {c : ByteArray}

/-- One list of names before another: names are compared one by one, and each by its bytes. -/
def Before (a b : Location) : Prop := a.map bytes < b.map bytes

instance : Std.Irrefl Before := ⟨fun a => List.lt_irrefl (a.map bytes)⟩

/-- The names that lead from the node at a path to the files that a walk is meant for. `depth` bounds how
far directories lie below one another. -/
def namesBelow (s : Settings) : Nat → Path → Node → List Location
  | _, p, .file .. => if isCandidate s p then [[]] else []
  | depth + 1, p, .dir _ es => (sortedNames es).flatMap fun x => match Entries.get? x es with
    | some n =>
      if n.isDir && s.excludedDirs.contains x then []
      else (namesBelow s depth (p.join ⟨x⟩) n).map (x :: ·)
    | none => []
  | _, _, _ => []

/-- Those of them that begin with the name of an entry. -/
def namesFrom (s : Settings) (depth : Nat) (p : Path) (es : Entries) (x : String) : List Location :=
  match Entries.get? x es with
  | some n =>
    if n.isDir && s.excludedDirs.contains x then []
    else (namesBelow s depth (p.join ⟨x⟩) n).map (x :: ·)
  | none => []

theorem namesBelow_dir (s : Settings) (depth : Nat) (p : Path) (mode : Nat) (es : Entries) :
    namesBelow s (depth + 1) p (.dir mode es) = (sortedNames es).flatMap (namesFrom s depth p es) :=
  rfl

theorem namesBelow_file (s : Settings) (depth : Nat) (p : Path) (c : ByteArray) (k : Nat) :
    namesBelow s depth p (.file c k) = if isCandidate s p then [[]] else [] := by
  cases depth <;> rfl

theorem namesBelow_other (s : Settings) (depth : Nat) (p : Path) (hdir : n.isDir = false)
    (hfile : n.isFile = false) : namesBelow s depth p n = [] := by
  cases n with
  | dir => simp [Node.isDir] at hdir
  | file => simp [Node.isFile] at hfile
  | link | full => cases depth <;> rfl

theorem namesFrom_other (s : Settings) (depth : Nat) (p : Path) (hn : Entries.get? x es = some n)
    (hdir : n.isDir = false) (hfile : n.isFile = false) : namesFrom s depth p es x = [] := by
  simp [namesFrom, hn, hdir, namesBelow_other s depth _ hdir hfile]

theorem namesFrom_file (s : Settings) (depth : Nat) (p : Path)
    (hn : Entries.get? x es = some (.file c k)) : (namesFrom s depth p es x).map p.down
      = if isCandidate s (p.join ⟨x⟩) then [p.join ⟨x⟩] else [] := by
  simp only [namesFrom, hn, namesBelow_file, Node.isDir, Bool.false_and, Bool.false_eq_true, if_false]
  split <;> rfl

theorem namesFrom_dir (s : Settings) (depth : Nat) (p : Path) {es' : Entries}
    (hn : Entries.get? x es = some (.dir mode es')) : (namesFrom s (depth + 1) p es x).map p.down
      = if s.excludedDirs.contains x then []
        else ((sortedNames es').flatMap (namesFrom s depth (p.join ⟨x⟩) es')).map (p.join ⟨x⟩).down := by
  simp only [namesFrom, hn, Node.isDir, Bool.true_and]
  split
  · rfl
  · rw [namesBelow_dir, List.map_map]
    rfl

theorem mem_namesFrom : names ∈ namesFrom s depth p es x ↔ ∃ n rest, Entries.get? x es = some n
    ∧ ¬ (n.isDir = true ∧ x ∈ s.excludedDirs) ∧ rest ∈ namesBelow s depth (p.join ⟨x⟩) n
    ∧ names = x :: rest := by
  rw [namesFrom]
  cases Entries.get? x es with
  | none => simp
  | some n =>
    by_cases h : n.isDir = true ∧ x ∈ s.excludedDirs
    · simp [h]
    · have hif : (n.isDir && s.excludedDirs.contains x) = false := by
        simpa [not_and] using h
      simp only [hif, Bool.false_eq_true, if_false, List.mem_map, Option.some.injEq]
      constructor
      · intro h
        obtain ⟨rest, hrest, heq⟩ := h
        exact ⟨n, rest, rfl, h, hrest, heq.symm⟩
      · intro h
        obtain ⟨m, rest, hm, _, hrest, heq⟩ := h
        exact ⟨rest, hm ▸ hrest, heq.symm⟩

/-- **The order of the entries, directory by directory, is the order of the paths.** -/
theorem namesBelow_sorted (s : Settings) (depth : Nat) (p : Path) (n : Node) :
    (namesBelow s depth p n).Pairwise Before := by
  induction depth generalizing p n with
  | zero =>
    cases n with
    | file c k => rw [namesBelow_file]; split <;> simp
    | link | full | dir => exact .nil
  | succ depth ih =>
    cases n with
    | file c k => rw [namesBelow_file]; split <;> simp
    | link | full => exact .nil
    | dir mode es =>
      rw [namesBelow_dir, List.pairwise_flatMap]
      constructor
      · intro x _
        rw [namesFrom]
        cases Entries.get? x es with
        | none => exact .nil
        | some n =>
          simp only
          split
          · exact .nil
          · exact (ih (p.join ⟨x⟩) n).map _ fun a b h => .cons h
      · refine (sortedNames_lt es).imp fun {x y} hxy a ha b hb => ?_
        obtain ⟨n, rest, _, _, _, rfl⟩ := mem_namesFrom.1 ha
        obtain ⟨m, rest', _, _, _, rfl⟩ := mem_namesFrom.1 hb
        exact .rel (bytes_lt hxy)

/-- What the names of files are that a walk is meant for, seen from a node: they lead to plain files, by way
of real directories of which none is excluded, and the file is a candidate. -/
def Meant (s : Settings) (p : Path) (n : Node) (names : Location) : Prop :=
  (∃ c k, n.get? names = some (.file c k)) ∧ (∀ y ∈ names.dropLast, y ∉ s.excludedDirs)
    ∧ isCandidate s (p.down names) = true

theorem mem_namesBelow_leaf (hn : n.isDir = false) :
    names ∈ namesBelow s depth p n ↔ Meant s p n names := by
  cases n with
  | dir => simp [Node.isDir] at hn
  | link | full =>
    rw [namesBelow_other s depth p rfl rfl]
    cases names <;> simp [Meant, Node.get?]
  | file c k =>
    rw [namesBelow_file]
    cases names <;> simp [Meant, Node.get?, down]

/-- Seen from a directory, the first name is that of an entry. -/
theorem meant_cons (hn : Entries.get? x es = some n) (rest : Location) :
    Meant s p (.dir mode es) (x :: rest)
      ↔ ¬ (n.isDir = true ∧ x ∈ s.excludedDirs) ∧ Meant s (p.join ⟨x⟩) n rest := by
  have hget : (Node.dir mode es).get? (x :: rest) = n.get? rest := by
    rw [Node.get?, hn, Option.bind_some]
  rw [Meant, Meant, hget, down_cons]
  cases rest with
  | nil =>
    -- A file is the entry itself.
    have hdir : (∃ c k, n.get? [] = some (.file c k)) → n.isDir = false := by
      intro h
      obtain ⟨c, k, hfile⟩ := h
      obtain rfl : n = .file c k := by simpa using hfile
      rfl
    simp only [List.dropLast_singleton, List.dropLast_nil, List.not_mem_nil, false_implies,
      implies_true, true_and]
    constructor
    · intro h
      obtain ⟨hfile, hcandidate⟩ := h
      exact ⟨fun h => by simp [hdir hfile] at h, hfile, hcandidate⟩
    · exact And.right
  | cons y rest =>
    -- There is something below the entry.
    have hdir : (∃ c k, n.get? (y :: rest) = some (.file c k)) → n.isDir = true := by
      intro h
      obtain ⟨c, k, hfile⟩ := h
      cases n with
      | dir => rfl
      | file | link | full => simp [Node.get?] at hfile
    rw [List.dropLast_cons_of_ne_nil (by simp), List.forall_mem_cons]
    constructor
    · intro h
      obtain ⟨hfile, ⟨hx, hrest⟩, hcandidate⟩ := h
      exact ⟨fun h => hx h.2, hfile, hrest, hcandidate⟩
    · intro h
      obtain ⟨hx, hfile, hrest, hcandidate⟩ := h
      exact ⟨hfile, ⟨fun h => hx ⟨hdir hfile, h⟩, hrest⟩, hcandidate⟩

/-- **All files that are meant are found, and no others.** -/
theorem mem_namesBelow (hdepth : n.height ≤ depth) :
    names ∈ namesBelow s depth p n ↔ Meant s p n names := by
  induction depth generalizing p n names with
  | zero =>
    cases n with
    | dir => simp [Node.height] at hdepth
    | file | link | full => exact mem_namesBelow_leaf rfl
  | succ depth ih =>
    cases n with
    | file | link | full => exact mem_namesBelow_leaf rfl
    | dir mode es =>
      rw [namesBelow_dir, List.mem_flatMap]
      constructor
      · intro h
        obtain ⟨x, _, hmem⟩ := h
        obtain ⟨n, rest, hn, hx, hrest, rfl⟩ := mem_namesFrom.1 hmem
        have hlow : n.height + 1 ≤ (Node.dir mode es).height := height_of_entry hn
        exact (meant_cons hn rest).2 ⟨hx, (ih (by omega)).1 hrest⟩
      · intro h
        obtain ⟨c, k, hfile⟩ := h.1
        cases names with
        | nil => simp at hfile
        | cons x rest =>
          rw [Node.get?] at hfile
          obtain ⟨n, hn, _⟩ := Option.bind_eq_some_iff.1 hfile
          have hlow : n.height + 1 ≤ (Node.dir mode es).height := height_of_entry hn
          obtain ⟨hx, hrest⟩ := (meant_cons hn rest).1 h
          exact ⟨x, mem_sortedNames.2 ⟨n, hn⟩,
            mem_namesFrom.2 ⟨n, rest, hn, hx, (ih (by omega)).2 hrest, rfl⟩⟩

end Codemod.Walk
