/-
Walking a tree while files are replaced. A walk that goes on from a list of entries, of which each directory
gives way to what it lists (`next`), comes to its end, and comes to the same as the walk by recursion
(`Goes`). What it has listed is what may have changed (`Beside`): a directory that is listed later lists what
it listed at first, so that the files that are meant are visited, each once and in the order of their paths
(`run_yields`), whatever is done to those visited before.
-/
import Mathlib.Data.List.Induction
import Codemod.Proofs.Run.Below
import Codemod.Proofs.Run.Beside
import Codemod.Proofs.Run.Rounds
import Codemod.Proofs.Run.Tidy

namespace Codemod

open Disk Node Codemod.Path Text

namespace Walk

/-! ## Files that are replaced on the way -/

section Yield

variable {s : Settings} {d : Disk} {listed more : Location → Prop} {touch : Disk → List Path → Disk}
  {st : State (List Path)} {depth mode : Nat} {base dirs loc : Location} {p : Path} {x : String}
  {n : Node} {es : Entries}

/-- Notes each file that is visited, and then does something to the disk. -/
def noting (touch : Disk → List Path → Disk) : Visit (List Path) := fun d ps p =>
  (ps ++ [p], touch d (ps ++ [p]))

/-- What holds of a walk that has listed some directories and has replaced files that it has visited. -/
structure Holds (d : Disk) (listed : Location → Prop) (st : State (List Path)) : Prop where
  beside : Beside listed d st.disk
  within : ∀ p ∈ st.value, Within listed d p

theorem Holds.mono (h : Holds d listed st) (hsub : ∀ m, listed m → more m) : Holds d more st :=
  ⟨h.beside.mono hsub, fun p hp => (h.within p hp).mono hsub⟩

theorem Holds.visit (h : Holds d listed st) (htouch : ∀ e ps, Replaces ps e (touch e ps))
    (hp : Within listed d p) : Holds d listed (st.after (noting touch) [p] []) := by
  have hall : ∀ q ∈ st.value ++ [p], Within listed d q :=
    List.forall_mem_append.2 ⟨h.within, List.forall_mem_singleton.2 hp⟩
  exact ⟨h.beside.replaces hall (htouch _ _), hall⟩

/-- **A directory that is listed now lists what it listed at first.** -/
theorem Holds.entriesOf_eq (h : Holds d listed st) (hlead : d.LeadsTo p loc) (hloc : ¬ listed loc)
    (hdir : d.root.get? loc = some (.dir mode es)) : entriesOf st.disk p = .ok (listing p es) := by
  have hlead' := h.beside.leadsTo hlead
  obtain ⟨mode', es', hdir'⟩ := hlead'.get?
  rw [entriesOf_dir hlead' hdir']
  refine congrArg Except.ok (listing_congr p fun x => ?_)
  have hat := h.beside.at?_eq hloc x
  rw [at?, at?, get?_concat hdir, get?_concat hdir'] at hat
  cases hn : Entries.get? x es with
  | none =>
    rw [hn, Option.map_none, Option.map_eq_none_iff] at hat
    rw [hat]
  | some n =>
    rw [hn, Option.map_some, Option.map_eq_some_iff] at hat
    obtain ⟨m, hm, hlabel⟩ := hat
    rw [hm]
    cases n <;> cases m <;> simp_all [label, Node.isDir, Node.isFile]

/-- From a state in which some directories have been listed, a walk of some entries visits the files with these
names below a path, and lists some more directories. -/
structure Covers (s : Settings) (touch : Disk → List Path → Disk) (d : Disk) (depth : Nat) (p : Path)
    (listed : Location → Prop) (st : State (List Path)) (es : List Entry) (names : List Location)
    (more : Location → Prop) : Prop where
  goes : Goes s (noting touch) depth st (st.after (noting touch) (names.map p.down) []) es
  holds : Holds d (fun m => listed m ∨ more m) (st.after (noting touch) (names.map p.down) [])

namespace Covers

variable {es₁ es₂ : List Entry} {names₁ names₂ : List Location} {more₁ more₂ : Location → Prop}

theorem nil (hst : Holds d listed st) : Covers s touch d depth p listed st [] [] more := by
  constructor
  · rw [List.map_nil, after_nil]
    exact .nil
  · rw [List.map_nil, after_nil]
    exact hst.mono fun m hm => .inl hm

theorem append (h₁ : Covers s touch d depth p listed st es₁ names₁ more₁)
    (h₂ : Covers s touch d depth p (fun m => listed m ∨ more₁ m)
      (st.after (noting touch) (names₁.map p.down) []) es₂ names₂ more₂) :
    Covers s touch d depth p listed st (es₁ ++ es₂) (names₁ ++ names₂) (fun m => more₁ m ∨ more₂ m) := by
  obtain ⟨hgoes, hholds⟩ := h₂
  rw [after_after, ← List.map_append] at hgoes hholds
  exact ⟨h₁.goes.append hgoes, hholds.mono fun m hm => or_assoc.1 hm⟩

theorem mono (h : Covers s touch d depth p listed st es₁ names₁ more₁) (hsub : ∀ m, more₁ m → more₂ m) :
    Covers s touch d depth p listed st es₁ names₁ more₂ :=
  ⟨h.goes, h.holds.mono fun m hm => hm.imp_right (hsub m)⟩

/-- One entry after the other is walked. -/
theorem names {xs : List String} (hst : Holds d listed st) (hlisted : listed loc) (hxs : xs.Nodup)
    (hnew : ∀ x ∈ xs, ∀ m, loc ++ [x] <+: m → ¬ listed m)
    (hentry : ∀ x ∈ xs, ∀ listed st, Holds d listed st → listed loc →
      (∀ m, loc ++ [x] <+: m → ¬ listed m) → Covers s touch d depth p listed st
        (listed? p es x).toList (namesFrom s depth p es x) (loc ++ [x] <+: ·)) :
    Covers s touch d depth p listed st (xs.filterMap (listed? p es))
      (xs.flatMap (namesFrom s depth p es)) (fun m => ∃ x ∈ xs, loc ++ [x] <+: m) := by
  induction xs generalizing listed st with
  | nil => exact .nil hst
  | cons x xs ih =>
    rw [List.forall_mem_cons] at hnew hentry
    rw [List.nodup_cons] at hxs
    have hfirst := hentry.1 listed st hst hlisted hnew.1
    have hothers := not_below_other hxs.1 hnew.2
    have hsplit : (x :: xs).filterMap (listed? p es)
        = (listed? p es x).toList ++ xs.filterMap (listed? p es) := by
      rw [List.filterMap_cons]
      cases listed? p es x <;> rfl
    rw [hsplit, List.flatMap_cons]
    refine (hfirst.append (ih hfirst.holds (.inl hlisted) hxs.2 hothers hentry.2)).mono fun m hm => ?_
    rcases hm with hm | ⟨y, hy, hm⟩
    · exact ⟨x, List.mem_cons_self, hm⟩
    · exact ⟨y, List.mem_cons_of_mem _ hy, hm⟩

/-- A directory that has not been listed counts as listed from here on, and its entries are walked. -/
theorem listing (hst : Holds d listed st) (hnew : ∀ m, loc <+: m → ¬ listed m)
    (hentry : ∀ x n, Entries.get? x es = some n → ∀ listed st, Holds d listed st → listed loc →
      (∀ m, loc ++ [x] <+: m → ¬ listed m) → Covers s touch d depth p listed st
        (listed? p es x).toList (namesFrom s depth p es x) (loc ++ [x] <+: ·)) :
    Covers s touch d depth p listed st (listing p es)
      ((sortedNames es).flatMap (namesFrom s depth p es)) (loc <+: ·) := by
  have hbelow : ∀ x ∈ sortedNames es, ∀ m, loc ++ [x] <+: m → ¬ (listed m ∨ m = loc) := by
    intro x _ m hm hor
    rcases hor with h | rfl
    · exact hnew m ((List.prefix_append _ _).trans hm) h
    · exact absurd hm.length_le (by simp)
  obtain ⟨hgoes, hholds⟩ := names (hst.mono fun m hm => .inl hm) (.inr rfl) (nodup_sortedNames es) hbelow
    fun x hx listed st hst hlisted hnew => by
      obtain ⟨n, hn⟩ := mem_sortedNames.1 hx
      exact hentry x n hn listed st hst hlisted hnew
  refine ⟨hgoes, hholds.mono fun m hm => ?_⟩
  rcases hm with (hm | rfl) | ⟨x, _, hm⟩
  · exact .inl hm
  · exact .inr (List.prefix_refl _)
  · exact .inr ((List.prefix_append _ _).trans hm)

end Covers

theorem isExcluded_join (hp : p.text ≠ "") (hx : IsName x) :
    isExcluded s (p.join ⟨x⟩) = s.excludedDirs.contains x := by
  rw [isExcluded, fileName?_join_name hp hx]

section Tree

variable (hd : d.WellNamed) (htouch : ∀ e ps, Replaces ps e (touch e ps))
  (hreach : ∀ dirs mode es, d.root.get? (base ++ dirs) = some (.dir mode es) →
    d.LeadsTo (s.root.down dirs) (base ++ dirs))
  (htemp : ∀ dirs x c k, (∀ y ∈ dirs, y ∉ s.excludedDirs) →
    d.root.get? (base ++ dirs ++ [x]) = some (.file c k) →
    isCandidate s (s.root.down (dirs ++ [x])) = true →
    ∀ t, d.root.get? (base ++ dirs ++ [tempName x]) ≠ some (.link t))

include hd htouch hreach htemp

/-- A file that is visited is noted, and anything else that is no directory is passed over. -/
theorem covers_leaf (depth : Nat) (hdirs : ∀ y ∈ dirs, y ∉ s.excludedDirs)
    (hdir : d.root.get? (base ++ dirs) = some (.dir mode es)) (hn : Entries.get? x es = some n)
    (hleaf : n.isDir = false) (hst : Holds d listed st) (hlisted : listed (base ++ dirs)) :
    Covers s touch d depth (s.root.down dirs) listed st (listed? (s.root.down dirs) es x).toList
      (namesFrom s depth (s.root.down dirs) es x) more := by
  cases n with
  | dir => simp [Node.isDir] at hleaf
  | link | full =>
    rw [listed?, hn, namesFrom_other s depth _ hn rfl rfl]
    exact .nil hst
  | file c k =>
    have hget := (get?_concat hdir x).trans hn
    have hafter : Holds d listed (st.after (noting touch)
        (if isCandidate s ((s.root.down dirs).join ⟨x⟩) then [(s.root.down dirs).join ⟨x⟩] else [])
        []) := by
      by_cases hp : isCandidate s ((s.root.down dirs).join ⟨x⟩) = true
      · rw [if_pos hp]
        exact hst.visit htouch (.file hlisted (hreach dirs mode es hdir) (hd _ _ hget x (by simp))
          ⟨c, k, hget⟩ (htemp dirs x c k hdirs hget (down_concat s.root dirs x ▸ hp)))
      · rw [if_neg hp, after_nil]
        exact hst
    rw [← namesFrom_file s depth _ hn] at hafter
    rw [listed?, hn]
    refine ⟨?_, hafter.mono fun m hm => .inl hm⟩
    rw [namesFrom_file s depth _ hn]
    exact .file s (noting touch) depth st _

/-- **The walk of one entry** visits the files that are meant, in their order, and all that it changes lies in
directories that it has listed. -/
theorem covers_entry (hdirs : ∀ y ∈ dirs, y ∉ s.excludedDirs)
    (hdir : d.root.get? (base ++ dirs) = some (.dir mode es)) (hn : Entries.get? x es = some n)
    (hdepth : n.height ≤ depth) (hst : Holds d listed st) (hlisted : listed (base ++ dirs))
    (hnew : ∀ m, base ++ dirs ++ [x] <+: m → ¬ listed m) :
    Covers s touch d depth (s.root.down dirs) listed st (listed? (s.root.down dirs) es x).toList
      (namesFrom s depth (s.root.down dirs) es x) (base ++ dirs ++ [x] <+: ·) := by
  induction depth generalizing dirs mode es x n listed st with
  | zero =>
    cases n with
    | dir => simp [Node.height] at hdepth
    | file | link | full =>
      exact covers_leaf hd htouch hreach htemp 0 hdirs hdir hn rfl hst hlisted
  | succ depth ih =>
    cases n with
    | file | link | full =>
      exact covers_leaf hd htouch hreach htemp (depth + 1) hdirs hdir hn rfl hst hlisted
    | dir mode' es' =>
      have hlead := hreach dirs mode es hdir
      have hget := (get?_concat hdir x).trans hn
      have hx : IsName x := hd _ _ hget x (by simp)
      have hex := isExcluded_join (s := s) hlead.text_ne_empty hx
      rw [listed?, hn]
      by_cases hin : isExcluded s ((s.root.down dirs).join ⟨x⟩) = true
      · constructor
        · rw [namesFrom_dir s depth _ hn, ← hex, if_pos hin, after_nil]
          exact .excluded depth hin
        · rw [namesFrom_dir s depth _ hn, ← hex, if_pos hin, after_nil]
          exact hst.mono fun m hm => .inl hm
      · rw [Bool.not_eq_true] at hin
        have hx' : x ∉ s.excludedDirs := by
          rw [hin] at hex
          simpa using hex.symm
        rw [List.append_assoc] at hget hnew ⊢
        have hes := hst.entriesOf_eq (hreach (dirs ++ [x]) mode' es' hget)
          (hnew _ (List.prefix_refl _)) hget
        obtain ⟨hgoes, hholds⟩ := Covers.listing hst hnew fun y m hm listed st hst hlisted hnew => by
          have hlow : m.height + 1 ≤ (Node.dir mode' es').height := height_of_entry hm
          exact ih (List.forall_mem_append.2 ⟨hdirs, List.forall_mem_singleton.2 hx'⟩) hget hm
            (by omega) hst hlisted hnew
        rw [down_concat] at hes hgoes hholds
        constructor
        · rw [namesFrom_dir s depth _ hn, ← hex, hin]
          exact .dir hin hes hgoes
        · rw [namesFrom_dir s depth _ hn, ← hex, hin]
          exact hholds

end Tree

/-! ## A whole walk -/

/-- A file below the root that a walk is meant for: plain, in real directories of which none is excluded, with
a name that one of the extensions ends and none of the excluded suffixes, and not left out. -/
structure Wanted (s : Settings) (d : Disk) (base names : Location) : Prop where
  file : ∃ c k, d.root.get? (base ++ names) = some (.file c k)
  unexcluded : ∀ y ∈ names.dropLast, y ∉ s.excludedDirs
  name : ∃ x, names.getLast? = some x ∧ (∃ t ∈ s.extensions, t.toList <:+ x.toList)
    ∧ ∀ t ∈ s.excludedSuffixes, ¬ t.toList <:+ x.toList
  kept : ∀ q ∈ s.skip, q.components ≠ (s.root.down names).components

theorem isCandidate_down (hp : p.text ≠ "") (hdirs : ∀ y ∈ dirs, IsName y) (hx : IsName x) :
    isCandidate s (p.down (dirs ++ [x])) = true
      ↔ ((∃ t ∈ s.extensions, t.toList <:+ x.toList) ∧ ∀ t ∈ s.excludedSuffixes, ¬ t.toList <:+ x.toList)
        ∧ ∀ q ∈ s.skip, q.components ≠ (p.down (dirs ++ [x])).components := by
  have hname : (p.down (dirs ++ [x])).fileName? = some x := by
    rw [down_concat]
    exact fileName?_join_name (down_ne_empty hp hdirs) hx
  rw [isCandidate, hname]
  simp [endsWith, List.isSuffixOf_iff_suffix]

theorem meant_iff (hd : d.WellNamed) (hroot : s.root.text ≠ "")
    (hdir : d.root.get? base = some (.dir mode es)) (names : Location) :
    Meant s s.root (.dir mode es) names ↔ Wanted s d base names := by
  have hget : (Node.dir mode es).get? names = d.root.get? (base ++ names) := by
    rw [get?_append, hdir, Option.bind_some]
  rw [Meant, hget]
  rcases List.eq_nil_or_concat names with rfl | ⟨front, x, rfl⟩
  · constructor
    · intro h
      obtain ⟨⟨c, k, hfile⟩, _⟩ := h
      simp [hdir] at hfile
    · intro h
      obtain ⟨c, k, hfile⟩ := h.file
      simp [hdir] at hfile
  · rw [List.concat_eq_append]
    have hnames (h : ∃ c k, d.root.get? (base ++ (front ++ [x])) = some (.file c k)) :
        (∀ y ∈ front, IsName y) ∧ IsName x := by
      obtain ⟨c, k, hfile⟩ := h
      exact ⟨fun y hy => hd _ _ hfile y (by simp [hy]), hd _ _ hfile x (by simp)⟩
    constructor
    · intro h
      obtain ⟨hfile, hdirs, hcandidate⟩ := h
      obtain ⟨hfront, hx⟩ := hnames hfile
      obtain ⟨hname, hkept⟩ := (isCandidate_down hroot hfront hx).1 hcandidate
      exact ⟨hfile, hdirs, ⟨x, List.getLast?_concat, hname⟩, hkept⟩
    · intro h
      obtain ⟨hfile, hdirs, ⟨y, hy, hname⟩, hkept⟩ := h
      obtain ⟨hfront, hx⟩ := hnames hfile
      rw [List.getLast?_concat] at hy
      obtain rfl := Option.some.inj hy
      exact ⟨hfile, hdirs, (isCandidate_down hroot hfront hx).2 ⟨hname, hkept⟩⟩

/-- Where all directories can be listed, their paths lead to them. -/
theorem leadsTo_down (hd : d.WellNamed) (hlead : d.LeadsTo s.root base)
    (hlist : ∀ dirs mode es, d.root.get? (base ++ dirs) = some (.dir mode es) →
      ∃ l, entriesOf d (s.root.down dirs) = .ok l) (dirs : Location) :
    ∀ mode es, d.root.get? (base ++ dirs) = some (.dir mode es) →
      d.LeadsTo (s.root.down dirs) (base ++ dirs) := by
  induction dirs using List.reverseRecOn with
  | nil =>
    intro _ _ _
    rw [List.append_nil]
    exact hlead
  | append_singleton dirs x ih =>
    intro mode es hdir
    obtain ⟨l, hl⟩ := hlist _ _ _ hdir
    rw [← List.append_assoc] at hdir ⊢
    obtain ⟨mode', es', habove⟩ := exists_dir_above hdir
    rw [down_concat] at hl ⊢
    exact leadsTo_listed (ih _ _ habove) (hd _ _ hdir x (by simp)) hdir hl

theorem visitAll_noting (touch : Disk → List Path → Disk) (ps : List Path) (w : List Path × Disk) :
    (visitAll (noting touch) ps w).1 = w.1 ++ ps := by
  induction ps generalizing w with
  | nil => simp [visitAll]
  | cons p ps ih =>
    have hnext := ih (noting touch w.2 w.1 p)
    simpa [visitAll, noting] using hnext

/-- **A walk visits the files that are wanted, each once and in the order of their paths**, and comes to its
end round after round, if all directories can be listed. It makes no difference which of the files visited
so far are replaced on the way, and how often, as long as no link has the name of a second file. -/
theorem run_yields (hd : d.WellNamed) (hlead : d.LeadsTo s.root base)
    (hlist : ∀ dirs mode es, d.root.get? (base ++ dirs) = some (.dir mode es) →
      ∃ l, entriesOf d (s.root.down dirs) = .ok l)
    (htemp : ∀ dirs x, Wanted s d base (dirs ++ [x]) →
      ∀ t, d.root.get? (base ++ dirs ++ [tempName x]) ≠ some (.link t))
    (htouch : ∀ e ps, Replaces ps e (touch e ps)) :
    ∃ all : List Location, all.Pairwise Before ∧ (∀ names, names ∈ all ↔ Wanted s d base names)
      ∧ (all.map s.root.down).Nodup
      ∧ ∃ es w, checkRoot d s.root = .ok es
        ∧ (∃ n, (next s (noting touch))^[n] ({ disk := d, value := [] }, es) = (w, []))
        ∧ run s (noting touch) [] d = .ok w
        ∧ w.value = all.map s.root.down ∧ w.skipped = [] := by
  obtain ⟨mode, es, hdir⟩ := hlead.get?
  have hroot := hlead.text_ne_empty
  have hheight := height_le_of_get? hdir
  have hmem (names : Location) : names ∈ namesBelow s (d.root.height + 1) s.root (.dir mode es)
      ↔ Wanted s d base names :=
    (mem_namesBelow (by omega)).trans (meant_iff hd hroot hdir names)
  have hnames : ∀ names, Wanted s d base names → ∀ y ∈ names, IsName y := by
    intro names h y hy
    obtain ⟨c, k, hfile⟩ := h.file
    exact hd _ _ hfile y (by simp [hy])
  -- Nothing has been listed before the root, and nothing has been changed.
  have hstart : Holds d (fun _ => False) (⟨d, [], []⟩ : State (List Path)) := ⟨.refl _ d, by simp⟩
  have htemp' : ∀ dirs x c k, (∀ y ∈ dirs, y ∉ s.excludedDirs) →
      d.root.get? (base ++ dirs ++ [x]) = some (.file c k) →
      isCandidate s (s.root.down (dirs ++ [x])) = true →
      ∀ t, d.root.get? (base ++ dirs ++ [tempName x]) ≠ some (.link t) := by
    intro dirs x c k hdirs hfile hcandidate
    refine htemp dirs x ((meant_iff hd hroot hdir _).1 ⟨⟨c, k, ?_⟩, ?_, hcandidate⟩)
    · rw [List.append_assoc, get?_append, hdir] at hfile
      exact hfile
    · simpa using hdirs
  have hentry : ∀ x n, Entries.get? x es = some n → ∀ listed st, Holds d listed st → listed base →
      (∀ m, base ++ [x] <+: m → ¬ listed m) → Covers s touch d d.root.height s.root listed st
        (listed? s.root es x).toList (namesFrom s d.root.height s.root es x) (base ++ [x] <+: ·) := by
    intro x n hn listed st hst hlisted hnew
    have hlow : n.height + 1 ≤ (Node.dir mode es).height := height_of_entry hn
    rw [← List.append_nil base] at hdir hlisted hnew ⊢
    exact covers_entry hd htouch (leadsTo_down hd hlead hlist) htemp' (by simp) hdir hn (by omega) hst
      hlisted hnew
  obtain ⟨⟨hvisited, hrounds⟩, -⟩ := Covers.listing hstart (fun _ _ => id) hentry
  obtain ⟨n, hrounds⟩ := hrounds []
  rw [List.append_nil] at hrounds
  refine ⟨_, namesBelow_sorted _ _ _ _, hmem, ?_, _, _, checkRoot_dir hlead hdir, ⟨n, hrounds⟩, ?_, ?_, rfl⟩
  · have hnodup := (namesBelow_sorted s (d.root.height + 1) s.root (.dir mode es)).nodup
    exact hnodup.map_on fun a ha b hb =>
      down_injective hroot (hnames a ((hmem a).1 ha)) (hnames b ((hmem b).1 hb))
  · rw [run, checkRoot_dir hlead hdir]
    exact congrArg Except.ok hvisited
  · exact (visitAll_noting touch _ _).trans (List.nil_append _)

end Yield

/-! ## The first file replaced -/

section First

/-- A directory with a file, with something that has the name of its second file, and with a directory that
holds nothing. -/
def tempDisk (temp : Node) : Disk where
  root := .dir 0o755 [("a.ts", .file "A".toUTF8 0o644), (".a.ts.srw-tmp", temp), ("z", .dir 0o755 [])]
  workDir := []

/-- What a run that was cut off has left. -/
def staleTemp : Node := .file "old".toUTF8 0o644

/-- A link to a file that does not exist. -/
def linkTemp : Node := .link "z/new.ts"

def tsFiles : Settings where
  root := ⟨"/"⟩
  extensions := [".ts"]
  excludedDirs := []
  excludedSuffixes := []
  skip := []

/-- Replaces the first file when it has been visited. -/
def replaceFirst (d : Disk) : List Path → Disk
  | [p] => (d.replaceFile p "B".toUTF8).2
  | _ => d

theorem replaces_replaceFirst (e : Disk) (ps : List Path) : Replaces ps e (replaceFirst e ps) := by
  rw [replaceFirst.eq_def]
  split
  · exact .step _ .refl (by simp)
  · exact .refl

variable {temp n : Node} {loc : Location} {b : ByteArray}

theorem get?_tempDisk (htemp : temp.isDir = false) (h : (tempDisk temp).root.get? loc = some n) :
    loc = [] ∨ loc = ["a.ts"] ∧ n = .file "A".toUTF8 0o644 ∨ loc = [".a.ts.srw-tmp"] ∧ n = temp
      ∨ loc = ["z"] ∧ n = .dir 0o755 [] := by
  cases loc with
  | nil => exact .inl rfl
  | cons x rest =>
    obtain ⟨m, hm, h⟩ := Option.bind_eq_some_iff.1 h
    have hmem := mem_of_get? hm
    have hnone : rest ≠ [] → m.get? rest = none := by
      intro hne
      obtain ⟨y, ys, rfl⟩ := List.exists_cons_of_ne_nil hne
      simp only [List.mem_cons, Prod.mk.injEq, List.not_mem_nil, or_false] at hmem
      rcases hmem with ⟨-, rfl⟩ | ⟨-, rfl⟩ | ⟨-, rfl⟩
      · rfl
      · exact get?_below_leaf (get?_nil m) htemp y ys
      · rfl
    by_cases hrest : rest = []
    · obtain rfl : m = n := by simpa [hrest] using h
      simpa [hrest] using hmem
    · rw [hnone hrest] at h
      cases h

theorem wellNamed_tempDisk (htemp : temp.isDir = false) : (tempDisk temp).WellNamed := by
  intro loc n h
  rcases get?_tempDisk htemp h with rfl | ⟨rfl, -⟩ | ⟨rfl, -⟩ | ⟨rfl, -⟩ <;> decide

theorem listed_tempDisk (htemp : temp.isDir = false) (dirs : Location) (mode : Nat) (es : Entries)
    (h : (tempDisk temp).root.get? ([] ++ dirs) = some (.dir mode es)) :
    ∃ l, entriesOf (tempDisk temp) (tsFiles.root.down dirs) = .ok l := by
  rcases get?_tempDisk htemp h with rfl | ⟨-, h⟩ | ⟨-, rfl⟩ | ⟨hdirs, -⟩
  · exact ⟨_, entriesOf_dir (leadsTo_separator rfl) rfl⟩
  · cases h
  · simp [Node.isDir] at htemp
  · obtain rfl : dirs = ["z"] := hdirs
    have hlead := leadsTo_join (leadsTo_separator (d := tempDisk temp) rfl) (show IsName "z" by decide) rfl
      (by decide)
    exact ⟨_, entriesOf_dir hlead rfl⟩

theorem wanted_tempDisk (htemp : temp.isDir = false) (names : Location) :
    Wanted tsFiles (tempDisk temp) [] names ↔ names = ["a.ts"] := by
  constructor
  · intro h
    obtain ⟨c, k, hfile⟩ := h.file
    obtain ⟨x, hx, ⟨t, ht, hend⟩, -⟩ := h.name
    obtain rfl := List.mem_singleton.1 ht
    rcases get?_tempDisk htemp hfile with rfl | ⟨hnames, -⟩ | ⟨rfl, -⟩ | ⟨-, hdir⟩
    · cases hx
    · exact hnames
    · obtain rfl : ".a.ts.srw-tmp" = x := Option.some.inj hx
      exact absurd hend (by decide)
    · cases hdir
  · intro h
    subst h
    exact ⟨⟨_, _, rfl⟩, by simp, ⟨"a.ts", rfl, ⟨".ts", List.mem_singleton.2 rfl, by decide⟩,
      fun _ => (nomatch ·)⟩, fun _ => (nomatch ·)⟩

/-- What is left of an earlier run is no link. -/
theorem run_yields_stale : (tempDisk staleTemp).WellNamed
    ∧ (tempDisk staleTemp).LeadsTo tsFiles.root []
    ∧ (∀ dirs mode es, (tempDisk staleTemp).root.get? ([] ++ dirs) = some (.dir mode es) →
      ∃ l, entriesOf (tempDisk staleTemp) (tsFiles.root.down dirs) = .ok l)
    ∧ (∀ dirs x, Wanted tsFiles (tempDisk staleTemp) [] (dirs ++ [x]) →
      ∀ t, (tempDisk staleTemp).root.get? ([] ++ dirs ++ [tempName x]) ≠ some (.link t))
    ∧ (∀ e ps, Replaces ps e (replaceFirst e ps))
    ∧ ∃ w, run tsFiles (noting replaceFirst) [] (tempDisk staleTemp) = .ok w
      ∧ w.value = [⟨"/a.ts"⟩] ∧ w.skipped = [] := by
  have hlink : ∀ dirs x, Wanted tsFiles (tempDisk staleTemp) [] (dirs ++ [x]) →
      ∀ t, (tempDisk staleTemp).root.get? ([] ++ dirs ++ [tempName x]) ≠ some (.link t) := by
    intro dirs x _ t h
    rcases get?_tempDisk rfl h with h | ⟨_, h⟩ | ⟨_, h⟩ | ⟨_, h⟩
    · simp at h
    all_goals cases h
  obtain ⟨all, hsorted, hall, -, _, w, -, -, hrun, hvalue, hskipped⟩ :=
    run_yields (wellNamed_tempDisk rfl) (leadsTo_separator rfl) (listed_tempDisk rfl) hlink
      replaces_replaceFirst
  have hone : all = [["a.ts"]] := by
    refine List.perm_singleton.1 ((List.perm_ext_iff_of_nodup hsorted.nodup (by simp)).2 fun names => ?_)
    rw [hall, wanted_tempDisk rfl, List.mem_singleton]
  have hpath : tsFiles.root.down ["a.ts"] = ⟨"/a.ts"⟩ := by decide
  rw [hone, List.map_singleton, hpath] at hvalue
  exact ⟨wellNamed_tempDisk rfl, leadsTo_separator rfl, listed_tempDisk rfl, hlink, replaces_replaceFirst,
    w, hrun, hvalue, hskipped⟩

/-- The disk while the second file is being filled, which is the one that the link leads to. -/
def filledDisk (b : ByteArray) : Disk where
  root := .dir 0o755 [("a.ts", .file "A".toUTF8 0o644), (".a.ts.srw-tmp", linkTemp),
    ("z", .dir 0o755 [("new.ts", .file b 0o644)])]
  workDir := []

/-- The disk when the link has got the name of the first file. -/
def swappedDisk (b : ByteArray) : Disk where
  root := .dir 0o755 [("a.ts", linkTemp), ("z", .dir 0o755 [("new.ts", .file b 0o644)])]
  workDir := []

theorem resolve_temp {e : Disk} {spot : Spot} (hlink : e.root.get? [".a.ts.srw-tmp"] = some linkTemp)
    (hz : ∃ es, e.root.get? ["z"] = some (.dir 0o755 es))
    (h : Walks e.root true 39 ["z"] ["new.ts"] spot) :
    e.resolve true ⟨"/.a.ts.srw-tmp"⟩ = .ok spot := by
  have hpieces : pathPieces "/.a.ts.srw-tmp" = [".a.ts.srw-tmp"] := by decide
  have htarget : pathPieces "z/new.ts" ++ [] = ["z", "new.ts"] := by decide
  obtain ⟨es, hz⟩ := hz
  refine resolve_eq_ok.2 ⟨by decide, ?_⟩
  rw [hpieces, if_pos (by decide)]
  refine .follow ⟨by decide, by decide, by decide⟩ hlink (.inr rfl) ?_
  rw [htarget, if_neg (by decide)]
  exact .down ⟨by decide, by decide, by decide⟩ hz rfl h

/-- Opening the second file makes the one that the link leads to. -/
theorem openFile_temp : (tempDisk linkTemp).openFile true ⟨"/.a.ts.srw-tmp"⟩
    = .ok (["z", "new.ts"], filledDisk .empty) := by
  have hz : (tempDisk linkTemp).root.get? ["z"] = some (.dir 0o755 []) := rfl
  have hresolve : (tempDisk linkTemp).resolve true ⟨"/.a.ts.srw-tmp"⟩ = .ok (.free ["z"] "new.ts") :=
    resolve_temp rfl ⟨_, hz⟩ (.free hz ⟨by decide, by decide, by decide⟩ rfl)
  rw [openFile, hresolve]
  rfl

theorem get?_filledDisk (b : ByteArray) :
    (filledDisk b).root.get? ["z", "new.ts"] = some (.file b 0o644) :=
  rfl

theorem append_filledDisk (b : ByteArray) :
    (filledDisk .empty).append ["z", "new.ts"] b = .ok (filledDisk b) := by
  rw [append_file (get?_filledDisk .empty), ByteArray.empty_append]
  rfl

theorem setMode_filledDisk (b : ByteArray) :
    (filledDisk b).setMode ⟨"/.a.ts.srw-tmp"⟩ 0o644 = .ok (filledDisk b) := by
  have hresolve : (filledDisk b).resolve true ⟨"/.a.ts.srw-tmp"⟩
      = .ok (.node ["z", "new.ts"] (.file b 0o644)) :=
    resolve_temp rfl ⟨_, rfl⟩
      (.down ⟨by decide, by decide, by decide⟩ (get?_filledDisk b) rfl (.stop (get?_filledDisk b)))
  rw [setMode, find_eq_ok.2 hresolve]
  rfl

/-- It is the link that is renamed. -/
theorem rename_filledDisk (b : ByteArray) :
    (filledDisk b).rename ⟨"/.a.ts.srw-tmp"⟩ ⟨"/a.ts"⟩ = .ok (swappedDisk b) := by
  have hfrom : (filledDisk b).find false ⟨"/.a.ts.srw-tmp"⟩ = .ok ([".a.ts.srw-tmp"], linkTemp) := by
    have hpieces : pathPieces "/.a.ts.srw-tmp" = [".a.ts.srw-tmp"] := by decide
    refine find_eq_ok.2 (resolve_eq_ok.2 ⟨by decide, ?_⟩)
    rw [hpieces, if_pos (by decide)]
    exact .link ⟨by decide, by decide, by decide⟩ rfl rfl
  have hto : (filledDisk b).resolve false ⟨"/a.ts"⟩ = .ok (.node ["a.ts"] (.file "A".toUTF8 0o644)) := by
    have hpieces : pathPieces "/a.ts" = ["a.ts"] := by decide
    refine resolve_eq_ok.2 ⟨by decide, ?_⟩
    rw [hpieces, if_pos (by decide)]
    exact .down ⟨by decide, by decide, by decide⟩ rfl rfl (.stop rfl)
  rw [rename, hfrom]
  simp only [bind, Except.bind, hto]
  rfl

theorem replaceFile_linkTemp (b : ByteArray) :
    ((tempDisk linkTemp).replaceFile ⟨"/a.ts"⟩ b).2 = swappedDisk b := by
  have hjoin : (⟨"/"⟩ : Path).join ⟨"a.ts"⟩ = ⟨"/a.ts"⟩ := by decide
  have hstat : (tempDisk linkTemp).stat ⟨"/a.ts"⟩ = .ok (.file "A".toUTF8 0o644) :=
    hjoin ▸ stat_entry (leadsTo_separator rfl) (show IsName "a.ts" by decide) rfl rfl
  have hname : (⟨"/a.ts"⟩ : Path).fileName? = some "a.ts" := by decide
  have htemp : (⟨"/a.ts"⟩ : Path).withFileName (tempName "a.ts") = ⟨"/.a.ts.srw-tmp"⟩ := by decide
  rw [replaceFile, hstat]
  simp only [hname, htemp, fillAndSwap, openFile_temp, append_filledDisk, sync_file (get?_filledDisk b),
    Node.mode, setMode_filledDisk, rename_filledDisk]
  rfl

theorem checkRoot_linkTemp : checkRoot (tempDisk linkTemp) tsFiles.root
    = .ok [⟨⟨"/a.ts"⟩, false⟩, ⟨⟨"/z"⟩, true⟩] := by
  have hnames : sortedNames [("a.ts", .file "A".toUTF8 0o644), (".a.ts.srw-tmp", linkTemp),
      ("z", .dir 0o755 [])] = [".a.ts.srw-tmp", "a.ts", "z"] := by
    refine (sortedNames_lt _).eq_of_mem_iff (by decide) fun x => ?_
    rw [sortedNames, List.mem_mergeSort]
    simp [Entries.names]
    tauto
  have hlead : (tempDisk linkTemp).LeadsTo tsFiles.root [] := leadsTo_separator rfl
  rw [checkRoot_dir hlead rfl, listing, hnames]
  rfl

theorem entriesOf_swappedDisk (b : ByteArray) :
    entriesOf (swappedDisk b) ⟨"/z"⟩ = .ok [⟨⟨"/z/new.ts"⟩, false⟩] := by
  have hjoin : (⟨"/"⟩ : Path).join ⟨"z"⟩ = ⟨"/z"⟩ := by decide
  have hlead : (swappedDisk b).LeadsTo ⟨"/z"⟩ ["z"] :=
    hjoin ▸ leadsTo_join (leadsTo_separator rfl) (show IsName "z" by decide) rfl (by decide)
  have hnames : sortedNames [("new.ts", .file b 0o644)] = ["new.ts"] := by
    simp [sortedNames, Entries.names]
  rw [entriesOf_dir hlead rfl, listing, hnames]
  rfl

/-- A second file that is a link leads to a file that was not there, and that is visited later. -/
theorem run_yields_new_file : (tempDisk linkTemp).WellNamed
    ∧ (tempDisk linkTemp).LeadsTo tsFiles.root []
    ∧ (∀ dirs mode es, (tempDisk linkTemp).root.get? ([] ++ dirs) = some (.dir mode es) →
      ∃ l, entriesOf (tempDisk linkTemp) (tsFiles.root.down dirs) = .ok l)
    ∧ (∀ e ps, Replaces ps e (replaceFirst e ps))
    ∧ (∀ names, Wanted tsFiles (tempDisk linkTemp) [] names ↔ names = ["a.ts"])
    ∧ run tsFiles (noting replaceFirst) [] (tempDisk linkTemp)
      = .ok ⟨swappedDisk "B".toUTF8, [⟨"/a.ts"⟩, ⟨"/z/new.ts"⟩], []⟩ := by
  refine ⟨wellNamed_tempDisk rfl, leadsTo_separator rfl, listed_tempDisk rfl, replaces_replaceFirst,
    wanted_tempDisk rfl, ?_⟩
  have hheight : (tempDisk linkTemp).root.height = 1 + 1 := rfl
  have hfirst : visitEntry tsFiles (noting replaceFirst) (1 + 1) ⟨tempDisk linkTemp, [], []⟩
      ⟨⟨"/a.ts"⟩, false⟩ = ⟨swappedDisk "B".toUTF8, [⟨"/a.ts"⟩], []⟩ := by
    rw [visitEntry_file, if_pos (by decide)]
    simp only [noting, List.nil_append, replaceFirst, replaceFile_linkTemp]
  have hsecond : visitEntry tsFiles (noting replaceFirst) (1 + 1)
      ⟨swappedDisk "B".toUTF8, [⟨"/a.ts"⟩], []⟩ ⟨⟨"/z"⟩, true⟩
        = ⟨swappedDisk "B".toUTF8, [⟨"/a.ts"⟩, ⟨"/z/new.ts"⟩], []⟩ := by
    rw [visitEntry_dir (noting replaceFirst) 1 ⟨swappedDisk "B".toUTF8, [⟨"/a.ts"⟩], []⟩
      (entriesOf_swappedDisk _), if_neg (by decide), List.foldl_cons, List.foldl_nil, visitEntry_file,
      if_pos (by decide)]
    rfl
  simp only [run, checkRoot_linkTemp, hheight, Except.map, List.foldl_cons, List.foldl_nil, hfirst,
    hsecond]

end First

end Walk

end Codemod
