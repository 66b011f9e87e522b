/-
Files that a walk leaves out need not be there. A walk over a tree from which such files are gone reaches
what it reached before, and cannot list what it could not list before (`reached_without`); how deep it may
go does not matter, if that is deep enough in both trees.
-/
import Codemod.Proofs.Run.Replace
import Codemod.Proofs.Run.Walk

namespace Codemod.Walk

open Disk Node Codemod.Path

/-- Of a list, nothing is missing if what is left out adds nothing. -/
theorem flatMap_filterMap_filter {α β γ : Type} {xs : List α} {keep : α → Bool} {h h' : α → Option β}
    {f g : β → List γ}
    (hkeep : ∀ x ∈ xs, keep x = true → (h' x).toList.flatMap f = (h x).toList.flatMap g)
    (hdrop : ∀ x ∈ xs, keep x = false → (h x).toList.flatMap g = []) :
    ((xs.filter keep).filterMap h').flatMap f = (xs.filterMap h).flatMap g := by
  induction xs with
  | nil => rfl
  | cons x xs ih =>
    rw [List.forall_mem_cons] at hkeep hdrop
    have ih := ih hkeep.2 hdrop.2
    have hcons (h : β → List γ) (k : α → Option β) (x : α) (xs : List α) :
        ((x :: xs).filterMap k).flatMap h = (k x).toList.flatMap h ++ (xs.filterMap k).flatMap h := by
      cases hk : k x <;> simp [hk]
    cases hx : keep x with
    | true => rw [List.filter_cons_of_pos hx, hcons, hcons, hkeep.1 hx, ih]
    | false => rw [List.filter_cons_of_neg (by simp [hx]), hcons, hdrop.1 hx, ih, List.nil_append]

variable {d e : Disk} {s : Settings} {l base front loc : Location} {x : String} {mode mode' : Nat}
  {es es' : Entries} {places : List Location}

/-- The second disk is the first one without some files, and a walk leaves these out. -/
structure LeavesOut (s : Settings) (d e : Disk) (l base : Location) (places : List Location) :
    Prop where
  agree : d.AgreeBut e places
  gone : ∀ loc ∈ places, e.root.at? loc = none
  file : ∀ loc ∈ places, ∃ c k, d.root.get? loc = some (.file c k)
  skipped : ∀ names, base ++ names ∈ places → isCandidate s (pathOf (l ++ names)) = false

section LeavesOut

variable (h : LeavesOut s d e l base places)

include h

/-- What is left is as before, and what is not is gone. -/
theorem LeavesOut.label_eq {m n : Node} (hm : e.root.get? loc = some m)
    (hn : d.root.get? loc = some n) : m.label = n.label := by
  have hmem : loc ∉ places := fun hmem => by
    have := h.gone loc hmem
    rw [at?, hm] at this
    cases this
  have hat := h.agree.at?_eq loc hmem
  rw [at?, at?, hm, hn] at hat
  exact Option.some.inj hat

theorem LeavesOut.sortedNames_eq (hdir : d.root.get? loc = some (.dir mode es))
    (hdir' : e.root.get? loc = some (.dir mode' es')) :
    sortedNames es' = (sortedNames es).filter fun x => (Entries.get? x es').isSome := by
  refine (sortedNames_lt es').eq_of_mem_iff ((sortedNames_lt es).filter _) fun x => ?_
  rw [List.mem_filter, mem_sortedNames, mem_sortedNames, Option.isSome_iff_exists]
  refine ⟨fun hx => ⟨?_, hx⟩, And.right⟩
  obtain ⟨m, hm⟩ := hx
  rw [← get?_concat hdir'] at hm
  rw [← get?_concat hdir]
  by_cases hmem : loc ++ [x] ∈ places
  · obtain ⟨c, k, hfile⟩ := h.file _ hmem
    exact ⟨_, hfile⟩
  · have hat := h.agree.at?_eq _ hmem
    rw [at?, at?, hm] at hat
    obtain ⟨n, hn, -⟩ := Option.map_eq_some_iff.1 hat.symm
    exact ⟨n, hn⟩

/-- **What the entries of a directory come to** is the same in both trees, if each entry comes to the same
and a file that is gone came to nothing. -/
theorem LeavesOut.flatMap_listing {β : Type} {f g : Entry → List β} (hd : d.WellNamed)
    (hl : ∀ s ∈ l ++ front, IsName s) (hdir : d.root.get? (base ++ front) = some (.dir mode es))
    (hdir' : e.root.get? (base ++ front) = some (.dir mode' es'))
    (hsame : ∀ x m n, e.root.get? (base ++ front ++ [x]) = some m →
      d.root.get? (base ++ front ++ [x]) = some n → n.isFile = true ∨ n.isDir = true →
      f ⟨pathOf (l ++ front ++ [x]), n.isDir⟩ = g ⟨pathOf (l ++ front ++ [x]), n.isDir⟩)
    (hnone : ∀ x, isCandidate s (pathOf (l ++ front ++ [x])) = false →
      g ⟨pathOf (l ++ front ++ [x]), false⟩ = []) :
    (listing (pathOf (l ++ front)) es').flatMap f = (listing (pathOf (l ++ front)) es).flatMap g := by
  have hentry {x : String} {n : Node} (hn : Entries.get? x es = some n) :
      (pathOf (l ++ front)).join ⟨x⟩ = pathOf (l ++ front ++ [x]) :=
    join_name hl (names_of_wellNamed hd hdir x n hn)
  rw [listing, listing, h.sortedNames_eq hdir hdir']
  refine flatMap_filterMap_filter (fun x hx hkeep => ?_) fun x hx hdrop => ?_
  · obtain ⟨n, hn⟩ := mem_sortedNames.1 hx
    obtain ⟨m, hm⟩ := Option.isSome_iff_exists.1 hkeep
    have hsame := hsame x m n ((get?_concat hdir' x).trans hm) ((get?_concat hdir x).trans hn)
    have hlabel := h.label_eq ((get?_concat hdir' x).trans hm) ((get?_concat hdir x).trans hn)
    rw [listed?, listed?, hm, hn, hentry hn]
    cases n <;> cases m <;> simp_all [label, Node.isFile, Node.isDir]
  · obtain ⟨n, hn⟩ := mem_sortedNames.1 hx
    have hnone' : e.root.get? (base ++ front ++ [x]) = none := by
      rw [get?_concat hdir']
      exact Option.not_isSome_iff_eq_none.1 (by simpa using hdrop)
    have hmem : base ++ front ++ [x] ∈ places := by
      by_contra hmem
      have hat := h.agree.at?_eq _ hmem
      rw [at?_eq_none.2 hnone', at?, get?_concat hdir, hn] at hat
      cases hat
    obtain ⟨c, k, hfile⟩ := h.file _ hmem
    rw [get?_concat hdir] at hfile
    rw [listed?, hfile, hentry hfile]
    rw [List.append_assoc] at hmem
    have hskip := h.skipped _ hmem
    rw [← List.append_assoc] at hskip
    simpa using hnone x hskip

/-- One directory: what is reached is the same if it is the same by way of each directory in it. -/
theorem LeavesOut.reached_listing {depth depth' : Nat} (hd : d.WellNamed)
    (hl : ∀ s ∈ l ++ front, IsName s) (hdir : d.root.get? (base ++ front) = some (.dir mode es))
    (hdir' : e.root.get? (base ++ front) = some (.dir mode' es'))
    (hdirs : ∀ x k ds k' ds', e.root.get? (base ++ front ++ [x]) = some (.dir k' ds') →
      d.root.get? (base ++ front ++ [x]) = some (.dir k ds) →
      reached s e depth' ⟨pathOf (l ++ front ++ [x]), true⟩
          = reached s d depth ⟨pathOf (l ++ front ++ [x]), true⟩
        ∧ unlisted s e depth' ⟨pathOf (l ++ front ++ [x]), true⟩
          = unlisted s d depth ⟨pathOf (l ++ front ++ [x]), true⟩) :
    (listing (pathOf (l ++ front)) es').flatMap (reached s e depth')
        = (listing (pathOf (l ++ front)) es).flatMap (reached s d depth)
      ∧ (listing (pathOf (l ++ front)) es').flatMap (unlisted s e depth')
        = (listing (pathOf (l ++ front)) es).flatMap (unlisted s d depth) := by
  have hfile (d : Disk) (depth : Nat) (p : Path) : unlisted s d depth ⟨p, false⟩ = [] := by
    cases depth <;> rfl
  have hentry : ∀ x m n, e.root.get? (base ++ front ++ [x]) = some m →
      d.root.get? (base ++ front ++ [x]) = some n → n.isFile = true ∨ n.isDir = true →
      reached s e depth' ⟨pathOf (l ++ front ++ [x]), n.isDir⟩
          = reached s d depth ⟨pathOf (l ++ front ++ [x]), n.isDir⟩
        ∧ unlisted s e depth' ⟨pathOf (l ++ front ++ [x]), n.isDir⟩
          = unlisted s d depth ⟨pathOf (l ++ front ++ [x]), n.isDir⟩ := by
    intro x m n hm hn hkind
    have hlabel := h.label_eq hm hn
    cases n with
    | file | link | full => simp only [Node.isDir, reached_file, hfile, and_self]
    | dir k ds =>
      cases m with
      | file | link | full => simp [label] at hlabel
      | dir k' ds' => exact hdirs x k ds k' ds' hm hn
  exact ⟨h.flatMap_listing hd hl hdir hdir' (fun x m n hm hn hk => (hentry x m n hm hn hk).1)
      fun x hx => by rw [reached_file, hx]; rfl,
    h.flatMap_listing hd hl hdir hdir' (fun x m n hm hn hk => (hentry x m n hm hn hk).2)
      fun x _ => hfile d depth _⟩

/-- **A walk does not miss what it leaves out.** -/
theorem reached_without {depth depth' : Nat} (hd : d.WellNamed) (hl : ∀ s ∈ l ++ front, IsName s)
    (hlead : d.LeadsTo (pathOf (l ++ front)) (base ++ front))
    (hdir : d.root.get? (base ++ front) = some (.dir mode es))
    (hdir' : e.root.get? (base ++ front) = some (.dir mode' es'))
    (hdepth : (Node.dir mode es).height ≤ depth + 1)
    (hdepth' : (Node.dir mode' es').height ≤ depth' + 1) :
    (listing (pathOf (l ++ front)) es').flatMap (reached s e depth')
        = (listing (pathOf (l ++ front)) es).flatMap (reached s d depth)
      ∧ (listing (pathOf (l ++ front)) es').flatMap (unlisted s e depth')
        = (listing (pathOf (l ++ front)) es).flatMap (unlisted s d depth) := by
  induction depth generalizing depth' front mode es mode' es' with
  | zero =>
    refine h.reached_listing hd hl hdir hdir' fun x k ds k' ds' hm hn => ?_
    rw [get?_concat hdir] at hn
    have hlow : (Node.dir k ds).height + 1 ≤ (Node.dir mode es).height := height_of_entry hn
    simp only [Node.height] at hlow hdepth
    omega
  | succ depth ih =>
    refine h.reached_listing hd hl hdir hdir' fun x k ds k' ds' hm hn => ?_
    obtain ⟨hpath, hx⟩ : (∀ s ∈ l ++ front ++ [x], IsName s) ∧ IsName x := by
      have hx : IsName x := hd _ _ hn x (by simp)
      exact ⟨hx.concat hl, hx⟩
    have hlow : (Node.dir k ds).height + 1 ≤ (Node.dir mode es).height :=
      height_of_entry ((get?_concat hdir x).symm.trans hn)
    have hlow' : (Node.dir k' ds').height + 1 ≤ (Node.dir mode' es').height :=
      height_of_entry ((get?_concat hdir' x).symm.trans hm)
    have hpos : 1 ≤ (Node.dir k' ds').height := by simp [Node.height]
    obtain ⟨depth', rfl⟩ : ∃ n, depth' = n + 1 := ⟨depth' - 1, by omega⟩
    have hlead' := h.agree.leadsTo hlead
    -- The directory lists its entries on both disks, or is refused by its text on both.
    cases hr : refusal? (pathOf (l ++ front ++ [x])) with
    | some err =>
      have hes := entriesOf_refused hlead hl hx hn hr
      have hes' := entriesOf_refused hlead' hl hx hm hr
      rw [reached_refused _ hes, reached_refused _ hes', unlisted_refused _ hes,
        unlisted_refused _ hes']
      exact ⟨rfl, rfl⟩
    | none =>
      have hdeeper := leadsTo_entry hlead hl hx hn hr
      have hes := entriesOf_dir hdeeper hn
      have hes' := entriesOf_dir (leadsTo_entry hlead' hl hx hm hr) hm
      rw [reached_dir _ hes, reached_dir _ hes', unlisted_dir _ hes, unlisted_dir _ hes']
      simp only [List.append_assoc] at hpath hdeeper hn hm ⊢
      have hdepth' : (Node.dir k' ds').height ≤ depth' + 1 := by omega
      obtain ⟨hreached, hunlisted⟩ := ih hpath hdeeper hn hm (by omega) hdepth'
      rw [hreached, hunlisted]
      exact ⟨rfl, rfl⟩

end LeavesOut

end Codemod.Walk
