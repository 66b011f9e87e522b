/-
Ways past an entry. How many links may be followed decides whether there is a way, never where it leads
(`Walks.unique`). A way to a directory is still there in a tree that has lost a link, if by that link
one came to no directory (`Walks.past`): so a path leads to its entry as before when the entry has been
replaced, unless it was the way there (`Names.past`).
-/
import Codemod.Proofs.Disk.FileName

namespace Codemod.Disk

open Node Codemod.Path

variable {root r s : Node} {follow : Bool} {links links' : Nat} {here loc : Location} {ps : List String}
  {spot spot' : Spot} {mode : Nat} {es : Entries} {n m : Node} {x : String}

namespace Walks

/-- Nothing is lost if more links may be followed. -/
theorem mono (h : Walks root follow links here ps spot) (hle : links ≤ links') :
    Walks root follow links' here ps spot := by
  induction h generalizing links' with
  | stop h => exact .stop h
  | stay h _ ih => exact .stay h (ih hle)
  | up h _ ih => exact .up h (ih hle)
  | free h hx hn => exact .free h hx hn
  | link hx h hf => exact .link hx h hf
  | down hx h hn _ ih => exact .down hx h hn (ih hle)
  | follow hx h hrest _ ih =>
    obtain ⟨links', rfl⟩ := Nat.exists_eq_succ_of_ne_zero (Nat.ne_zero_of_lt hle)
    exact .follow hx h hrest (ih (Nat.le_of_succ_le_succ hle))

/-- **There is one way at most**, however many links may be followed. -/
theorem unique (h : Walks root follow links here ps spot) (h' : Walks root follow links' here ps spot') :
    spot = spot' := by
  have h := walk_eq_ok.2 (h.mono (Nat.le_max_left links links'))
  have h' := walk_eq_ok.2 (h'.mono (Nat.le_max_right links links'))
  exact Except.ok.inj (h.symm.trans h')

/-- A way to a directory starts at one. -/
theorem exists_dir_start (h : Walks root true links here ps (.node loc (.dir mode es))) :
    ∃ mode es, root.get? here = some (.dir mode es) := by
  cases ps with
  | nil =>
    cases h with
    | stop h => exact ⟨mode, es, h⟩
  | cons x ps => exact h.exists_dir

/-- **A way to a directory is still there** where there are the same directories, and the same links but for
some by which one comes to no directory. -/
theorem past (h : Walks r true links here ps (.node loc (.dir mode es)))
    (hdirs : ∀ l, r.way? l = some .entries → s.way? l = some .entries)
    (hlinks : ∀ l x t, r.get? (l ++ [x]) = some (.link t) → s.get? (l ++ [x]) = some (.link t)
      ∨ ∀ links found mode es, ¬ Walks r true links l [x] (.node found (.dir mode es))) :
    ∃ mode es, Walks s true links here ps (.node loc (.dir mode es)) := by
  have hdir {l : Location} {mode : Nat} {es : Entries} (h : r.get? l = some (.dir mode es)) :
      ∃ mode es, s.get? l = some (.dir mode es) := exists_dir_of_way? (hdirs l (way?_of_dir h))
  generalize hspot : Spot.node loc (.dir mode es) = spot at h
  induction h with
  | stop h =>
    cases hspot
    obtain ⟨mode', es', h⟩ := hdir h
    exact ⟨mode', es', .stop h⟩
  | free => cases hspot
  | link _ _ hf => cases hf
  | stay h _ ih =>
    obtain ⟨_, _, h⟩ := hdir h
    obtain ⟨mode', es', ih⟩ := ih hspot
    exact ⟨mode', es', .stay h ih⟩
  | up h _ ih =>
    obtain ⟨_, _, h⟩ := hdir h
    obtain ⟨mode', es', ih⟩ := ih hspot
    exact ⟨mode', es', .up h ih⟩
  | @follow links here x t rest spot hx h _ hway ih =>
    subst hspot
    rcases hlinks here x t h with hsame | hno
    · obtain ⟨mode', es', ih⟩ := ih rfl
      exact ⟨mode', es', .follow hx hsame (.inr rfl) ih⟩
    · -- What is behind the link is gone on from, so that one has come to a directory.
      have hfront : ∃ found mode es, Walks r true links (if startsAtRoot t then [] else here) (pathPieces t)
          (.node found (.dir mode es)) := by
        cases rest with
        | nil => exact ⟨_, _, _, by simpa using hway⟩
        | cons y rest => exact hway.front
      obtain ⟨found, mode', es', hfront⟩ := hfront
      exact absurd (.follow hx h (.inr rfl) (by simpa using hfront)) (hno (links + 1) found mode' es')
  | down hx _ _ hway ih =>
    subst hspot
    obtain ⟨_, _, hhere⟩ := hway.exists_dir_start
    obtain ⟨_, _, hhere⟩ := hdir hhere
    obtain ⟨mode', es', ih⟩ := ih rfl
    exact ⟨mode', es', .down hx hhere rfl ih⟩

end Walks

variable {d e : Disk} {p : Path} {l loc' : Location} {x' : String}

/-- What is found when links are followed is named by the path, as a link perhaps. -/
theorem exists_find_unfollowed (h : d.find true p = .ok (l, n)) : ∃ l' m, d.find false p = .ok (l', m) := by
  obtain ⟨hr, hway⟩ := resolve_eq_ok.1 (find_eq_ok.1 h)
  obtain ⟨l', m, hway⟩ := hway.unfollowed ⟨l, n, rfl⟩
  exact ⟨l', m, find_eq_ok.2 (resolve_eq_ok.2 ⟨hr, hway⟩)⟩

namespace Names

theorem unique (h : d.Names p loc x) (h' : d.Names p loc' x') : loc = loc' ∧ x = x' := by
  obtain ⟨-, ps, hpieces, mode, es, hway⟩ := h
  obtain ⟨-, qs, hpieces', mode', es', hway'⟩ := h'
  obtain ⟨rfl, hx⟩ := List.append_inj' (hpieces.symm.trans hpieces') rfl
  exact ⟨(Spot.node.inj (hway.unique hway')).1, List.singleton_inj.1 hx⟩

/-- What a path names is the entry of its directory. -/
theorem entry (h : d.Names p loc x) (hfind : d.find false p = .ok (l, m)) :
    refusal? p = none ∧ l = loc ++ [x] ∧ d.root.get? (loc ++ [x]) = some m := by
  have hresolve := find_eq_ok.1 hfind
  rw [h.resolve false (absurd · Bool.false_ne_true)] at hresolve
  cases hr : refusal? p with
  | some err => simp [hr] at hresolve
  | none =>
    cases hget : d.root.get? (loc ++ [x]) with
    | none => simp [hr, hget] at hresolve
    | some m' =>
      simp only [hr, hget, Except.ok.injEq, Spot.node.injEq] at hresolve
      exact ⟨rfl, hresolve.1.symm, by rw [hresolve.2]⟩

theorem find_unfollowed (h : d.Names p loc x) (hr : refusal? p = none)
    (hm : d.root.get? (loc ++ [x]) = some m) : d.find false p = .ok (loc ++ [x], m) := by
  rw [find_eq_ok, h.resolve false (absurd · Bool.false_ne_true), hr, hm]

/-- **A path leads to its entry** where there are the same directories, and the same links but for some by
which one comes to no directory. -/
theorem past (h : d.Names p loc x) (hwork : e.workDir = d.workDir)
    (hdirs : ∀ l, d.root.way? l = some .entries → e.root.way? l = some .entries)
    (hlinks : ∀ l x t, d.root.get? (l ++ [x]) = some (.link t) → e.root.get? (l ++ [x]) = some (.link t)
      ∨ ∀ links found mode es, ¬ Walks d.root true links l [x] (.node found (.dir mode es))) :
    e.Names p loc x := by
  obtain ⟨hx, ps, hpieces, mode, es, hway⟩ := h
  exact ⟨hx, ps, hpieces, hwork ▸ hway.past hdirs hlinks⟩

/-- What a path leads to in a tree with fewer directories and links, it leads to. -/
theorem of_fewer (h : e.Names p loc x) (hwork : e.workDir = d.workDir)
    (hfewer : ∀ l w, e.root.way? l = some w → d.root.way? l = some w) : d.Names p loc x :=
  h.past hwork.symm (fun l => hfewer l _) fun _ _ _ hlink =>
    .inl (way?_eq_target.1 (hfewer _ _ (way?_eq_target.2 hlink)))

/-- Where a path leads to something, it leads to an entry. -/
theorem of_find (h : d.Names p loc x) (hfind : e.find follow p = .ok (l, n)) : ∃ loc, e.Names p loc x := by
  obtain ⟨hx, ps, hpieces, -⟩ := h
  have hway := (resolve_eq_ok.1 (find_eq_ok.1 hfind)).2
  rw [hpieces] at hway
  obtain ⟨loc', mode, es, hfront⟩ := hway.front
  exact ⟨loc', hx, ps, hpieces, mode, es, hfront⟩

/-- If a path leads to something else, one comes to no directory by its entry. -/
theorem no_dir_behind (h : d.Names p loc x) (hfind : d.find true p = .ok (l, n)) (hn : n.isDir = false)
    (links : Nat) (found : Location) (mode : Nat) (es : Entries) :
    ¬ Walks d.root true links loc [x] (.node found (.dir mode es)) := by
  intro hbehind
  obtain ⟨-, ps, hpieces, _, _, hway⟩ := h
  have hfound := (resolve_eq_ok.1 (find_eq_ok.1 hfind)).2
  obtain ⟨links', hgo⟩ := hway.append
  rw [hpieces, ← walk_eq_ok, hgo true [x] (by simp), walk_eq_ok] at hfound
  rw [(Spot.node.inj (hfound.unique hbehind)).2] at hn
  cases hn

end Names

end Codemod.Disk
