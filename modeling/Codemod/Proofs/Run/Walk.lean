/-
The walk over the files below a root, told apart from what is done with them. Which files are visited,
and which directories cannot be listed, is a matter of the kinds of nodes alone (`reached`,
`unlisted`): visits that leave those as they are, as replacing a file does, change nothing about it
(`run_eq`). In a tree, what is reached is meant to be (`exists_of_mem_reached`), and what is meant to be
is reached unless a directory on the way cannot be listed (`mem_reached`); nothing is reached twice
(`nodup_reached`).
-/
import Mathlib.Data.List.Sort
import Codemod.Proofs.Disk.Kinds
import Codemod.Run.Walk

namespace Codemod.Walk

open Disk Node Codemod.Path

variable {d e : Disk} {s : Settings} {l loc : Location} {x : String} {n : Node} {mode : Nat}
  {es : Entries} {p : Path} {α : Type} {visit : Visit α} {st : State α}

/-! ## Listings -/

/-- The names in a directory, in the order in which they are visited. -/
def sortedNames (es : Entries) : List String :=
  (Entries.names es).mergeSort fun a b => decide (a ≤ b)

theorem nodup_sortedNames (es : Entries) : (sortedNames es).Nodup :=
  (List.mergeSort_perm _ _).nodup_iff.2 (Entries.nodup_names es)

theorem sortedNames_lt (es : Entries) : (sortedNames es).Pairwise (· < ·) := by
  have hle : (sortedNames es).Pairwise (fun a b => decide (a ≤ b) = true) := by
    refine List.pairwise_mergeSort ?_ ?_ _
    · intro a b c hab hbc
      simp only [decide_eq_true_eq] at hab hbc ⊢
      exact Std.le_trans hab hbc
    · intro a b
      simp only [Bool.or_eq_true, decide_eq_true_eq]
      exact Std.le_total
  exact (hle.and (nodup_sortedNames es)).imp fun ⟨hle, hne⟩ => Std.lt_of_le_of_ne (by simpa using hle) hne

theorem mem_sortedNames : x ∈ sortedNames es ↔ ∃ n, Entries.get? x es = some n :=
  List.mem_mergeSort.trans Entries.mem_names

/-- What a name in a directory adds to its listing. -/
def listed? (dir : Path) (es : Entries) (x : String) : Option Entry :=
  match Entries.get? x es with
  | some (.file ..) => some ⟨dir.join ⟨x⟩, false⟩
  | some (.dir ..) => some ⟨dir.join ⟨x⟩, true⟩
  | _ => none

/-- What a directory with these entries lists. -/
def listing (dir : Path) (es : Entries) : List Entry := (sortedNames es).filterMap (listed? dir es)

/-- Nothing that one name leads to is what another name leads to, nor below it. -/
theorem not_below_other {xs : List String} {had : Location → Prop} (hx : x ∉ xs)
    (hnew : ∀ y ∈ xs, ∀ m, loc ++ [y] <+: m → ¬ had m) :
    ∀ y ∈ xs, ∀ m, loc ++ [y] <+: m → ¬ (had m ∨ loc ++ [x] <+: m) := by
  rintro y hy m hm (h | h)
  · exact hnew y hy m hm h
  · have hsame := (List.prefix_of_prefix_length_le h hm (by simp)).eq_of_length (by simp)
    obtain rfl : x = y := by simpa using hsame
    exact hx hy

theorem entriesOf_eq (d : Disk) (dir : Path) :
    entriesOf d dir = (d.list dir).map (listing dir) := rfl

/-- Listings show which names there are, and which of them are files or directories. -/
theorem listing_congr {es' : Entries} (dir : Path)
    (h : ∀ x, (Entries.get? x es').map (fun n => (n.isFile, n.isDir))
      = (Entries.get? x es).map fun n => (n.isFile, n.isDir)) : listing dir es' = listing dir es := by
  have hnames : sortedNames es' = sortedNames es := by
    refine (sortedNames_lt es').eq_of_mem_iff (sortedNames_lt es) fun x => ?_
    rw [mem_sortedNames, mem_sortedNames, ← Option.isSome_iff_exists, ← Option.isSome_iff_exists,
      ← Option.isSome_map, h, Option.isSome_map]
  have hentry : listed? dir es' = listed? dir es := by
    funext x
    have hx := h x
    rw [listed?, listed?]
    cases hn : Entries.get? x es with
    | none =>
      rw [hn, Option.map_none, Option.map_eq_none_iff] at hx
      rw [hx]
    | some n =>
      rw [hn, Option.map_some, Option.map_eq_some_iff] at hx
      obtain ⟨m, hm, hkind⟩ := hx
      rw [hm]
      cases n <;> cases m <;> simp_all [Node.isDir, Node.isFile]
  rw [listing, listing, hnames, hentry]

theorem entriesOf_dir (hlead : d.LeadsTo p loc) (hdir : d.root.get? loc = some (.dir mode es)) :
    entriesOf d p = .ok (listing p es) := by
  obtain ⟨mode', es', h⟩ := hlead
  have hsame := (get?_of_resolve h).symm.trans hdir
  have hfind : d.find true p = .ok (loc, .dir mode es) := by
    rw [find_eq_ok, h, Option.some.inj hsame]
  rw [entriesOf_eq, Disk.list, stat, hfind]
  rfl

/-- **Replacing files does not change what a directory lists.** -/
theorem entriesOf_congr (h : d.SameShape e) (dir : Path) : entriesOf e dir = entriesOf d dir := by
  rw [entriesOf_eq, entriesOf_eq, Disk.list, Disk.list, stat, stat, find_congr h]
  cases hfind : d.find true dir with
  | error err => rfl
  | ok found =>
    obtain ⟨loc, n⟩ := found
    have hn := get?_of_resolve (find_eq_ok.1 hfind)
    obtain ⟨m, hm, -, hdir, -⟩ := h.kinds.exists_node hn
    cases n with
    | file | link | full =>
      cases m with
      | dir => simp [Node.isDir] at hdir
      | file | link | full => simp [Except.map, bind, Except.bind, hm]
    | dir mode es =>
      cases m with
      | file | link | full => simp [Node.isDir] at hdir
      | dir mode' es' =>
        have hsame : listing dir es' = listing dir es := listing_congr dir fun x => by
          rw [← get?_concat hn, ← get?_concat hm]
          cases hx : d.root.get? (loc ++ [x]) with
          | none => rw [h.kinds.none_iff.1 hx]
          | some a =>
            obtain ⟨b, hb, -, hdir, hfile⟩ := h.kinds.exists_node hx
            rw [hb, Option.map_some, Option.map_some, hdir, hfile]
        simp [Except.map, bind, Except.bind, hm, pure, Except.pure, hsame]

/-! ## What is reached -/

/-- The files at or below an entry, as far as the walk gets. -/
def reached (s : Settings) (d : Disk) : Nat → Entry → List Path
  | depth, e =>
    if e.isDir then
      match depth with
      | 0 => []
      | depth + 1 =>
        if isExcluded s e.path then []
        else match entriesOf d e.path with
          | .ok es => es.flatMap (reached s d depth)
          | .error _ => []
    else if isCandidate s e.path then [e.path] else []

/-- The directories at or below an entry that the walk cannot list. -/
def unlisted (s : Settings) (d : Disk) : Nat → Entry → List SkippedDir
  | depth, e =>
    if e.isDir then
      match depth with
      | 0 => []
      | depth + 1 =>
        if isExcluded s e.path then []
        else match entriesOf d e.path with
          | .ok es => es.flatMap (unlisted s d depth)
          | .error err => [⟨e.path, err.message⟩]
    else []

theorem reached_file (s : Settings) (d : Disk) (depth : Nat) (p : Path) :
    reached s d depth ⟨p, false⟩ = if isCandidate s p then [p] else [] := by
  cases depth <;> rfl

theorem visitEntry_file (s : Settings) (visit : Visit α) (depth : Nat) (st : State α) (p : Path) :
    visitEntry s visit depth st ⟨p, false⟩ = if isCandidate s p then
      { st with value := (visit st.disk st.value p).1, disk := (visit st.disk st.value p).2 }
      else st := by
  cases depth <;> rfl

theorem visitEntry_dir (visit : Visit α) (depth : Nat) (st : State α) {es : List Entry}
    (hes : entriesOf st.disk p = .ok es) : visitEntry s visit (depth + 1) st ⟨p, true⟩ =
      if isExcluded s p then st else es.foldl (visitEntry s visit depth) st := by
  rw [visitEntry, hes]
  rfl

theorem visitEntry_refused (visit : Visit α) (depth : Nat) (st : State α) {err : OsError}
    (hes : entriesOf st.disk p = .error err) : visitEntry s visit (depth + 1) st ⟨p, true⟩ =
      if isExcluded s p then st else { st with skipped := st.skipped ++ [⟨p, err.message⟩] } := by
  rw [visitEntry, hes]
  rfl

theorem reached_dir {es : List Entry} (depth : Nat) (hes : entriesOf d p = .ok es) :
    reached s d (depth + 1) ⟨p, true⟩ =
      if isExcluded s p then [] else es.flatMap (reached s d depth) := by
  rw [reached, hes]
  rfl

theorem reached_refused {err : OsError} (depth : Nat) (hes : entriesOf d p = .error err) :
    reached s d depth ⟨p, true⟩ = [] := by
  cases depth with
  | zero => rfl
  | succ depth =>
    rw [reached, hes]
    exact ite_self []

theorem unlisted_dir {es : List Entry} (depth : Nat) (hes : entriesOf d p = .ok es) :
    unlisted s d (depth + 1) ⟨p, true⟩ =
      if isExcluded s p then [] else es.flatMap (unlisted s d depth) := by
  rw [unlisted, hes]
  rfl

theorem unlisted_refused {err : OsError} (depth : Nat) (hes : entriesOf d p = .error err) :
    unlisted s d (depth + 1) ⟨p, true⟩ =
      if isExcluded s p then [] else [⟨p, err.message⟩] := by
  rw [unlisted, hes]
  rfl

/-- Visits files one after the other. -/
def visitAll (visit : Visit α) (ps : List Path) (w : α × Disk) : α × Disk :=
  ps.foldl (fun w p => visit w.2 w.1 p) w

/-- How far a walk has come with these files visited and these directories not listed. -/
def State.after (visit : Visit α) (ps : List Path) (dirs : List SkippedDir) (st : State α) :
    State α where
  disk := (visitAll visit ps (st.value, st.disk)).2
  value := (visitAll visit ps (st.value, st.disk)).1
  skipped := st.skipped ++ dirs

theorem after_after (visit : Visit α) (ps qs : List Path) (dirs more : List SkippedDir)
    (st : State α) : (st.after visit ps dirs).after visit qs more
      = st.after visit (ps ++ qs) (dirs ++ more) := by
  simp [State.after, visitAll]

@[simp] theorem after_nil (visit : Visit α) (st : State α) : st.after visit [] [] = st := by
  simp [State.after, visitAll]

/-- Visits to a file that leave the kinds of nodes as they are. -/
def Keeps (visit : Visit α) (d : Disk) (p : Path) : Prop :=
  ∀ e value, d.SameShape e → d.SameShape (visit e value p).2

theorem sameShape_visitAll {ps : List Path} (hkeep : ∀ p ∈ ps, Keeps visit d p) {w : α × Disk}
    (hw : d.SameShape w.2) : d.SameShape (visitAll visit ps w).2 := by
  induction ps generalizing w with
  | nil => exact hw
  | cons p ps ih =>
    simp only [List.forall_mem_cons] at hkeep
    exact ih hkeep.2 (hkeep.1 w.2 w.1 hw)

theorem foldl_visitEntry {depth : Nat} {es : List Entry}
    (ih : ∀ e ∈ es, ∀ st : State α, d.SameShape st.disk →
      visitEntry s visit depth st e
        = st.after visit (reached s d depth e) (unlisted s d depth e))
    (hkeep : ∀ p ∈ es.flatMap (reached s d depth), Keeps visit d p) (hst : d.SameShape st.disk) :
    es.foldl (visitEntry s visit depth) st
      = st.after visit (es.flatMap (reached s d depth)) (es.flatMap (unlisted s d depth)) := by
  induction es generalizing st with
  | nil => simp
  | cons e es ihes =>
    simp only [List.forall_mem_cons] at ih
    simp only [List.flatMap_cons, List.mem_append, or_imp, forall_and] at hkeep
    have hshape : d.SameShape (st.after visit (reached s d depth e) (unlisted s d depth e)).disk :=
      sameShape_visitAll hkeep.1 hst
    rw [List.foldl_cons, ih.1 st hst, ihes ih.2 hkeep.2 hshape, after_after,
      List.flatMap_cons, List.flatMap_cons]

/-- **What is done with the files on the way does not change which files are visited**, as long as it
changes files and nothing else. -/
theorem visitEntry_eq {depth : Nat} {e : Entry} (hkeep : ∀ p ∈ reached s d depth e, Keeps visit d p)
    (hst : d.SameShape st.disk) : visitEntry s visit depth st e
      = st.after visit (reached s d depth e) (unlisted s d depth e) := by
  induction depth generalizing e st with
  | zero =>
    rw [visitEntry, reached, unlisted]
    split
    · exact (after_nil visit st).symm
    · split <;> simp [State.after, visitAll]
  | succ depth ih =>
    rw [visitEntry]
    rw [reached] at hkeep ⊢
    rw [unlisted]
    split
    · rename_i hdir
      rw [if_pos hdir] at hkeep
      split
      · simp
      · rename_i hexcluded
        rw [if_neg hexcluded] at hkeep
        rw [entriesOf_congr hst]
        cases hes : entriesOf d e.path with
        | error err => simp [State.after, visitAll]
        | ok es =>
          rw [hes] at hkeep
          exact foldl_visitEntry (fun e he st hst => ih (fun p hp => hkeep p
            (List.mem_flatMap.2 ⟨e, he, hp⟩)) hst) hkeep hst
    · split <;> simp [State.after, visitAll]

/-! ## What is reached, in a tree -/

/-- A file below a directory that a walk is meant for: plain, not excluded by the name of a directory on
the way or by its own, and not left out. -/
structure Eligible (s : Settings) (d : Disk) (l loc names : Location) : Prop where
  file : ∃ c k, d.root.get? (loc ++ names) = some (.file c k)
  unexcluded : ∀ y ∈ names.dropLast, y ∉ s.excludedDirs
  candidate : isCandidate s (pathOf (l ++ names)) = true

theorem Eligible.names {names : Location} (h : Eligible s d l loc names) (hd : d.WellNamed)
    (hl : ∀ s ∈ l, IsName s) : ∀ s ∈ l ++ names, IsName s := by
  obtain ⟨c, k, hfile⟩ := h.file
  exact List.forall_mem_append.2 ⟨hl, (List.forall_mem_append.1 (hd _ _ hfile)).2⟩

theorem Eligible.ne_nil {names : Location} (h : Eligible s d l loc names)
    (hdir : d.root.get? loc = some (.dir mode es)) : names ≠ [] := by
  rintro rfl
  obtain ⟨c, k, hfile⟩ := h.file
  simp [hdir] at hfile

section Tree

variable {depth : Nat} {names : Location}

/-- What a directory lists: its files and directories, under their paths. -/
theorem mem_listing (hl : ∀ s ∈ l, IsName s) (hes : ∀ x n, Entries.get? x es = some n → IsName x)
    {e : Entry} : e ∈ listing (pathOf l) es ↔
      ∃ x n, Entries.get? x es = some n ∧ (n.isFile = true ∨ n.isDir = true)
        ∧ e = ⟨pathOf (l ++ [x]), n.isDir⟩ := by
  rw [listing, List.mem_filterMap]
  constructor
  · rintro ⟨x, -, hx⟩
    rw [listed?] at hx
    cases hn : Entries.get? x es with
    | none => simp [hn] at hx
    | some n =>
      rw [hn] at hx
      refine ⟨x, n, hn, ?_⟩
      cases n <;>
        simp_all [Node.isFile, Node.isDir, ← join_name hl (hes x _ hn), eq_comm]
  · rintro ⟨x, n, hn, hkind, rfl⟩
    refine ⟨x, mem_sortedNames.2 ⟨n, hn⟩, ?_⟩
    rw [listed?, hn, ← join_name hl (hes x n hn)]
    cases n <;> simp_all [Node.isFile, Node.isDir]

/-- A directory in one that is reached is reached too, if its path is not refused. -/
theorem leadsTo_join (hlead : d.LeadsTo p loc) (hx : IsName x)
    (hdir : d.root.get? (loc ++ [x]) = some (.dir mode es)) (hr : refusal? (p.join ⟨x⟩) = none) :
    d.LeadsTo (p.join ⟨x⟩) (loc ++ [x]) := by
  have h := find_join hlead hx hdir rfl true
  rw [hr] at h
  exact ⟨mode, es, find_eq_ok.1 h⟩

theorem entriesOf_join_refused (hlead : d.LeadsTo p loc) (hx : IsName x)
    (hdir : d.root.get? (loc ++ [x]) = some (.dir mode es)) {err : OsError}
    (hr : refusal? (p.join ⟨x⟩) = some err) : entriesOf d (p.join ⟨x⟩) = .error err := by
  have h := find_join hlead hx hdir rfl true
  rw [hr] at h
  rw [entriesOf_eq, Disk.list, stat, h]
  rfl

/-- So is one that can be listed. -/
theorem leadsTo_listed (hlead : d.LeadsTo p loc) (hx : IsName x)
    (hdir : d.root.get? (loc ++ [x]) = some (.dir mode es)) {listed : List Entry}
    (hes : entriesOf d (p.join ⟨x⟩) = .ok listed) : d.LeadsTo (p.join ⟨x⟩) (loc ++ [x]) := by
  cases hr : refusal? (p.join ⟨x⟩) with
  | none => exact leadsTo_join hlead hx hdir hr
  | some err =>
    rw [entriesOf_join_refused hlead hx hdir hr] at hes
    cases hes

theorem leadsTo_entry (hlead : d.LeadsTo (pathOf l) loc) (hl : ∀ s ∈ l, IsName s) (hx : IsName x)
    (hdir : d.root.get? (loc ++ [x]) = some (.dir mode es))
    (hr : refusal? (pathOf (l ++ [x])) = none) : d.LeadsTo (pathOf (l ++ [x])) (loc ++ [x]) := by
  rw [← join_name hl hx] at hr ⊢
  exact leadsTo_join hlead hx hdir hr

theorem entriesOf_refused (hlead : d.LeadsTo (pathOf l) loc) (hl : ∀ s ∈ l, IsName s)
    (hx : IsName x) (hdir : d.root.get? (loc ++ [x]) = some (.dir mode es)) {err : OsError}
    (hr : refusal? (pathOf (l ++ [x])) = some err) :
    entriesOf d (pathOf (l ++ [x])) = .error err := by
  rw [← join_name hl hx] at hr ⊢
  exact entriesOf_join_refused hlead hx hdir hr

theorem isExcluded_pathOf (hl : ∀ s ∈ l, IsName s) (hx : IsName x) :
    isExcluded s (pathOf (l ++ [x])) = s.excludedDirs.contains x := by
  rw [isExcluded, fileName?_pathOf hl hx]

variable (hd : d.WellNamed)

include hd

theorem names_of_wellNamed (hdir : d.root.get? loc = some (.dir mode es)) :
    ∀ x n, Entries.get? x es = some n → IsName x := fun x n hn =>
  hd (loc ++ [x]) n ((get?_concat hdir x).trans hn) x (by simp)

/-- **What is reached is meant to be**, and lies in a directory that its path leads to. -/
theorem exists_of_mem_reached (hlead : d.LeadsTo (pathOf l) loc) (hl : ∀ s ∈ l, IsName s)
    (hdir : d.root.get? loc = some (.dir mode es))
    (hp : p ∈ (listing (pathOf l) es).flatMap (reached s d depth)) :
    ∃ names, p = pathOf (l ++ names) ∧ Eligible s d l loc names
      ∧ d.LeadsTo (pathOf (l ++ names.dropLast)) (loc ++ names.dropLast) := by
  induction depth generalizing l loc mode es with
  | zero =>
    obtain ⟨e, he, hp⟩ := List.mem_flatMap.1 hp
    obtain ⟨x, n, hn, hkind, rfl⟩ := (mem_listing hl (names_of_wellNamed hd hdir)).1 he
    cases n with
    | file c k =>
      simp only [Node.isDir, reached_file, List.mem_ite_nil_right, List.mem_singleton] at hp
      exact ⟨[x], hp.2, ⟨⟨c, k, (get?_concat hdir x).trans hn⟩, by simp, hp.1⟩, by simpa using hlead⟩
    | dir => simp [Node.isDir, reached] at hp
    | link | full => simp [Node.isFile, Node.isDir] at hkind
  | succ depth ih =>
    obtain ⟨e, he, hp⟩ := List.mem_flatMap.1 hp
    obtain ⟨x, n, hn, hkind, rfl⟩ := (mem_listing hl (names_of_wellNamed hd hdir)).1 he
    have hget := (get?_concat hdir x).trans hn
    have hx : IsName x := hd _ _ hget x (by simp)
    cases n with
    | file c k =>
      simp only [Node.isDir, reached_file, List.mem_ite_nil_right, List.mem_singleton] at hp
      exact ⟨[x], hp.2, ⟨⟨c, k, hget⟩, by simp, hp.1⟩, by simpa using hlead⟩
    | dir mode es =>
      have hall : ∀ s ∈ l ++ [x], IsName s := hx.concat hl
      cases hr : refusal? (pathOf (l ++ [x])) with
      | some err =>
        simp [Node.isDir, reached_refused _ (entriesOf_refused hlead hl hx hget hr)] at hp
      | none =>
        have hdeeper := leadsTo_entry hlead hl hx hget hr
        simp only [Node.isDir, reached_dir _ (entriesOf_dir hdeeper hget), List.mem_ite_nil_left,
          isExcluded_pathOf hl hx] at hp
        obtain ⟨rest, rfl, helig, hparent⟩ := ih hdeeper hall hget hp.2
        have hne : rest ≠ [] := by
          rintro rfl
          obtain ⟨c, k, hfile⟩ := helig.file
          simp [hget] at hfile
        refine ⟨x :: rest, by simp, ⟨by simpa using helig.file, ?_, by simpa using helig.candidate⟩,
          by simpa [List.dropLast_cons_of_ne_nil hne] using hparent⟩
        rw [List.dropLast_cons_of_ne_nil hne, List.forall_mem_cons]
        exact ⟨by simpa using hp.1, helig.unexcluded⟩
    | link | full => simp [Node.isFile, Node.isDir] at hkind

/-- **What a walk is meant for is reached**, or lies below a directory that cannot be listed. -/
theorem mem_reached {names : Location} (hlead : d.LeadsTo (pathOf l) loc) (hl : ∀ s ∈ l, IsName s)
    (hdir : d.root.get? loc = some (.dir mode es)) (hdepth : (Node.dir mode es).height ≤ depth + 1)
    (helig : Eligible s d l loc names) :
    pathOf (l ++ names) ∈ (listing (pathOf l) es).flatMap (reached s d depth)
      ∨ ∃ dirs, dirs ≠ [] ∧ dirs <+: names.dropLast ∧ ∃ reason,
        ⟨pathOf (l ++ dirs), reason⟩ ∈ (listing (pathOf l) es).flatMap (unlisted s d depth) := by
  obtain ⟨c, k, hfile⟩ := helig.file
  induction names generalizing l loc mode es depth with
  | nil => simp [hdir] at hfile
  | cons x rest ih =>
    obtain ⟨n, hn⟩ : ∃ n, Entries.get? x es = some n := by
      rw [List.append_cons, get?_append] at hfile
      obtain ⟨n, hn, -⟩ := Option.bind_eq_some_iff.1 hfile
      exact ⟨n, (get?_concat hdir x).symm.trans hn⟩
    have hget : d.root.get? (loc ++ [x]) = some n := (get?_concat hdir x).trans hn
    have hx : IsName x := hd _ _ hget x (by simp)
    have hentry (hkind : n.isFile = true ∨ n.isDir = true) :=
      (mem_listing hl (names_of_wellNamed hd hdir)).2 ⟨x, n, hn, hkind, rfl⟩
    simp only [List.mem_flatMap]
    rcases List.eq_nil_or_concat rest with rfl | ⟨front, y, hrest⟩
    · obtain rfl : n = .file c k := Option.some.inj (hget.symm.trans hfile)
      refine .inl ⟨_, hentry (.inl rfl), ?_⟩
      simp only [Node.isDir, reached_file, List.mem_ite_nil_right]
      exact ⟨helig.candidate, by simp⟩
    · have hne : rest ≠ [] := by simp [hrest]
      have hlast : (x :: rest).dropLast = x :: rest.dropLast := List.dropLast_cons_of_ne_nil hne
      obtain ⟨mode', es', rfl⟩ : ∃ mode es, n = .dir mode es := by
        obtain ⟨z, zs, rfl⟩ := List.exists_cons_of_ne_nil hne
        rw [List.append_cons] at hfile
        obtain ⟨mode, es, hdir⟩ := exists_dir_above hfile
        exact ⟨mode, es, Option.some.inj (hget.symm.trans hdir)⟩
      have hlow : (Node.dir mode' es').height + 1 ≤ (Node.dir mode es).height := height_of_entry hn
      have hpos : 1 ≤ (Node.dir mode' es').height := by simp [Node.height]
      obtain ⟨depth, rfl⟩ : ∃ k, depth = k + 1 := ⟨depth - 1, by omega⟩
      have hexcluded : isExcluded s (pathOf (l ++ [x])) = false := by
        rw [isExcluded_pathOf hl hx]
        simpa using helig.unexcluded x (by simp [hlast])
      rw [hlast]
      cases hr : refusal? (pathOf (l ++ [x])) with
      | some err =>
        refine .inr ⟨[x], by simp, by simp, err.message, _, hentry (.inr rfl), ?_⟩
        simp [Node.isDir, unlisted_refused _ (entriesOf_refused hlead hl hx hget hr), hexcluded]
      | none =>
        have hdeeper := leadsTo_entry hlead hl hx hget hr
        have hall : ∀ s ∈ l ++ [x], IsName s := hx.concat hl
        have hbelow : Eligible s d (l ++ [x]) (loc ++ [x]) rest :=
          ⟨⟨c, k, by simpa using hfile⟩, fun z hz => helig.unexcluded z (by simp [hlast, hz]),
            by simpa using helig.candidate⟩
        have hlow : (Node.dir mode' es').height ≤ depth + 1 := by omega
        rcases ih hdeeper hall hget hlow hbelow (by simpa using hfile) with
          h | ⟨dirs, -, hdirs, reason, h⟩
        · refine .inl ⟨_, hentry (.inr rfl), ?_⟩
          simpa [Node.isDir, reached_dir _ (entriesOf_dir hdeeper hget), hexcluded] using h
        · refine .inr ⟨x :: dirs, by simp, by simpa using hdirs, reason, _, hentry (.inr rfl), ?_⟩
          simpa [Node.isDir, unlisted_dir _ (entriesOf_dir hdeeper hget), hexcluded] using h

theorem pathOf_of_mem_reached (hlead : d.LeadsTo (pathOf l) loc) (hl : ∀ s ∈ l, IsName s)
    (hget : d.root.get? (loc ++ [x]) = some n)
    (hp : p ∈ reached s d depth ⟨pathOf (l ++ [x]), n.isDir⟩) :
    ∃ rest, (∀ s ∈ rest, IsName s) ∧ p = pathOf (l ++ x :: rest) := by
  have hx : IsName x := hd _ _ hget x (by simp)
  have hall : ∀ s ∈ l ++ [x], IsName s := hx.concat hl
  cases n with
  | file | link | full =>
    simp only [Node.isDir, reached_file, List.mem_ite_nil_right, List.mem_singleton] at hp
    exact ⟨[], by simp, hp.2⟩
  | dir mode es =>
    cases depth with
    | zero => simp [Node.isDir, reached] at hp
    | succ depth =>
      cases hr : refusal? (pathOf (l ++ [x])) with
      | some err =>
        simp [Node.isDir, reached_refused _ (entriesOf_refused hlead hl hx hget hr)] at hp
      | none =>
        have hdeeper := leadsTo_entry hlead hl hx hget hr
        simp only [Node.isDir, reached_dir _ (entriesOf_dir hdeeper hget),
          List.mem_ite_nil_left] at hp
        obtain ⟨rest, rfl, helig, -⟩ := exists_of_mem_reached hd hdeeper hall hget hp.2
        obtain ⟨c, k, hfile⟩ := helig.file
        exact ⟨rest, fun s hs => hd _ _ hfile s (by simp [hs]), by simp⟩

/-- What is listed in a directory that a path leads to. -/
theorem eq_of_mem_listed? (hl : ∀ s ∈ l, IsName s) (hdir : d.root.get? loc = some (.dir mode es))
    {e : Entry} (he : e ∈ listed? (pathOf l) es x) :
    ∃ n, d.root.get? (loc ++ [x]) = some n ∧ e = ⟨pathOf (l ++ [x]), n.isDir⟩ := by
  rw [listed?] at he
  cases hn : Entries.get? x es with
  | none => simp [hn] at he
  | some n =>
    have hget := (get?_concat hdir x).trans hn
    refine ⟨n, hget, ?_⟩
    rw [← join_name hl (hd _ _ hget x (by simp))]
    cases n <;> simp_all [Node.isDir]

/-- What is reached by way of different entries is different. -/
theorem pairwise_disjoint_reached (hlead : d.LeadsTo (pathOf l) loc) (hl : ∀ s ∈ l, IsName s)
    (hdir : d.root.get? loc = some (.dir mode es)) :
    (listing (pathOf l) es).Pairwise
      (fun e e' => List.Disjoint (reached s d depth e) (reached s d depth e')) := by
  refine List.pairwise_filterMap.2 ((sortedNames_lt es).imp ?_)
  intro x y hxy e he e' he' p hp hp'
  obtain ⟨n, hget, rfl⟩ := eq_of_mem_listed? hd hl hdir he
  obtain ⟨m, hget', rfl⟩ := eq_of_mem_listed? hd hl hdir he'
  obtain ⟨rest, hrest, rfl⟩ := pathOf_of_mem_reached hd hlead hl hget hp
  obtain ⟨rest', hrest', heq⟩ := pathOf_of_mem_reached hd hlead hl hget' hp'
  have hx : IsName x := hd _ _ hget x (by simp)
  have hy : IsName y := hd _ _ hget' y (by simp)
  have hsame := pathOf_injective
    (List.forall_mem_append.2 ⟨hl, List.forall_mem_cons.2 ⟨hx, hrest⟩⟩)
    (List.forall_mem_append.2 ⟨hl, List.forall_mem_cons.2 ⟨hy, hrest'⟩⟩) heq
  simp only [List.append_cancel_left_eq, List.cons.injEq] at hsame
  rw [hsame.1] at hxy
  exact Std.lt_irrefl hxy

/-- **Nothing is reached twice.** -/
theorem nodup_reached (hlead : d.LeadsTo (pathOf l) loc) (hl : ∀ s ∈ l, IsName s)
    (hdir : d.root.get? loc = some (.dir mode es)) :
    ((listing (pathOf l) es).flatMap (reached s d depth)).Nodup := by
  induction depth generalizing l loc mode es with
  | zero =>
    refine List.nodup_flatMap.2 ⟨fun e _ => ?_, pairwise_disjoint_reached hd hlead hl hdir⟩
    rw [reached]
    split
    · exact List.nodup_nil
    · split <;> simp
  | succ depth ih =>
    refine List.nodup_flatMap.2 ⟨fun e he => ?_, pairwise_disjoint_reached hd hlead hl hdir⟩
    obtain ⟨x, -, he⟩ := List.mem_filterMap.1 he
    obtain ⟨n, hget, rfl⟩ := eq_of_mem_listed? hd hl hdir he
    have hx : IsName x := hd _ _ hget x (by simp)
    have hall : ∀ s ∈ l ++ [x], IsName s := hx.concat hl
    cases n with
    | file | link | full =>
      simp only [Node.isDir, reached_file]
      split <;> simp
    | dir mode es =>
      cases hr : refusal? (pathOf (l ++ [x])) with
      | some err => simp [Node.isDir, reached_refused _ (entriesOf_refused hlead hl hx hget hr)]
      | none =>
        have hdeeper := leadsTo_entry hlead hl hx hget hr
        simp only [Node.isDir, reached_dir _ (entriesOf_dir hdeeper hget)]
        split
        · exact List.nodup_nil
        · exact ih hdeeper hall hget

/-- The names that lead to what is reached, each once. -/
theorem exists_names_reached (s : Settings) (depth : Nat) (hlead : d.LeadsTo (pathOf l) loc)
    (hl : ∀ s ∈ l, IsName s) (hdir : d.root.get? loc = some (.dir mode es)) :
    ∃ all : List Location, (listing (pathOf l) es).flatMap (reached s d depth)
        = all.map (fun names => pathOf (l ++ names))
      ∧ all.Nodup ∧ ∀ names ∈ all, Eligible s d l loc names
        ∧ d.LeadsTo (pathOf (l ++ names.dropLast)) (loc ++ names.dropLast) := by
  have hnodup : ((listing (pathOf l) es).flatMap (reached s d depth)).Nodup :=
    nodup_reached hd hlead hl hdir
  have hall : ∀ p ∈ (listing (pathOf l) es).flatMap (reached s d depth), _ :=
    fun p hp => exists_of_mem_reached hd hlead hl hdir hp
  generalize (listing (pathOf l) es).flatMap (reached s d depth) = ps at hnodup hall
  induction ps with
  | nil => exact ⟨[], by simp⟩
  | cons p ps ih =>
    obtain ⟨all, rfl, hnodup', hps⟩ := ih hnodup.of_cons fun p hp => hall p (by simp [hp])
    obtain ⟨names, rfl, hnames⟩ := hall p (by simp)
    refine ⟨names :: all, rfl, ?_, by simpa using ⟨hnames, hps⟩⟩
    rw [List.nodup_cons] at hnodup ⊢
    exact ⟨fun hmem => hnodup.1 (List.mem_map_of_mem hmem), hnodup'⟩

end Tree

/-! ## A whole walk -/

theorem checkRoot_dir {root : Path} (hlead : d.LeadsTo root loc)
    (hdir : d.root.get? loc = some (.dir mode es)) : checkRoot d root = .ok (listing root es) := by
  obtain ⟨mode', es', h⟩ := hlead
  have hfind : d.find true root = .ok (loc, .dir mode' es') := find_eq_ok.2 h
  rw [checkRoot, stat, hfind, entriesOf_dir ⟨mode', es', h⟩ hdir]
  rfl

/-- **A walk visits what is reached at the start**, whatever it does with files on the way. -/
theorem run_eq {start : α} {es : List Entry} (hes : checkRoot d s.root = .ok es)
    (hkeep : ∀ p ∈ es.flatMap (reached s d d.root.height), Keeps visit d p) :
    run s visit start d = .ok (State.after visit (es.flatMap (reached s d d.root.height))
      (es.flatMap (unlisted s d d.root.height)) { disk := d, value := start }) := by
  rw [run, hes]
  refine congrArg Except.ok (foldl_visitEntry (fun e he st hst => visitEntry_eq (fun p hp =>
    hkeep p (List.mem_flatMap.2 ⟨e, he, hp⟩)) hst) hkeep (.refl d))

end Codemod.Walk
