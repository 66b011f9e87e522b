/-
Where a path leads. A way through a tree is a chain of steps (`Walks`), one for each piece that is
taken, and `walk` finds it if there is one (`walk_eq_ok`). A way that ends in a directory can be
gone on from (`Walks.append`), and it is still there in every tree with the same directories and links
(`Walks.of_sameWays`): files that change, come or go do not matter to it.
-/
import Codemod.Proofs.Disk.Tree
import Codemod.Disk.Resolve

namespace Codemod.Disk

open Node

/-- What can be looked up in a directory. -/
structure IsEntryName (x : String) : Prop where
  ne_here : x ≠ "."
  ne_up : x ≠ ".."
  short : x.utf8ByteSize ≤ maxName

/-- The ways through a tree. Links are counted down as they are followed. -/
inductive Walks (root : Node) (follow : Bool) : Nat → Location → List String → Spot → Prop
  | stop {links : Nat} {here : Location} {n : Node} : root.get? here = some n →
      Walks root follow links here [] (.node here n)
  | stay {links : Nat} {here : Location} {rest : List String} {spot : Spot} {mode : Nat}
      {es : Entries} : root.get? here = some (.dir mode es) →
      Walks root follow links here rest spot → Walks root follow links here ("." :: rest) spot
  | up {links : Nat} {here : Location} {rest : List String} {spot : Spot} {mode : Nat}
      {es : Entries} : root.get? here = some (.dir mode es) →
      Walks root follow links here.dropLast rest spot →
      Walks root follow links here (".." :: rest) spot
  | free {links : Nat} {here : Location} {x : String} {mode : Nat} {es : Entries} :
      root.get? here = some (.dir mode es) → IsEntryName x → Entries.get? x es = none →
      Walks root follow links here [x] (.free here x)
  | link {links : Nat} {here : Location} {x t : String} : IsEntryName x →
      root.get? (here ++ [x]) = some (.link t) → follow = false →
      Walks root follow links here [x] (.node (here ++ [x]) (.link t))
  | follow {links : Nat} {here : Location} {x t : String} {rest : List String} {spot : Spot} :
      IsEntryName x → root.get? (here ++ [x]) = some (.link t) → rest ≠ [] ∨ follow = true →
      Walks root follow links (if startsAtRoot t then [] else here) (pathPieces t ++ rest) spot →
      Walks root follow (links + 1) here (x :: rest) spot
  | down {links : Nat} {here : Location} {x : String} {rest : List String} {spot : Spot}
      {n : Node} : IsEntryName x → root.get? (here ++ [x]) = some n → n.isLink = false →
      Walks root follow links (here ++ [x]) rest spot → Walks root follow links here (x :: rest) spot

variable {root r s : Node} {follow : Bool} {links : Nat} {here loc : Location}
  {ps qs rest : List String} {n : Node} {x : String} {spot : Spot} {mode : Nat} {es : Entries}

/-! ## Steps -/

/-- Above a directory there is one, or it is the root. -/
theorem exists_dir_dropLast (h : root.get? here = some (.dir mode es)) :
    ∃ mode es, root.get? here.dropLast = some (.dir mode es) := by
  rcases List.eq_nil_or_concat here with rfl | ⟨front, x, rfl⟩
  · exact ⟨mode, es, h⟩
  · rw [List.concat_eq_append] at h ⊢
    rw [List.dropLast_concat]
    exact exists_dir_above h

theorem walk_stop (h : root.get? here = some n) :
    walk root follow links here [] = .ok (.node here n) := by
  rw [walk, h]

theorem walk_stay (h : root.get? here = some (.dir mode es)) :
    walk root follow links here ("." :: rest) = walk root follow links here rest := by
  rw [walk, h]
  rfl

theorem walk_up (h : root.get? here = some (.dir mode es)) :
    walk root follow links here (".." :: rest) = walk root follow links here.dropLast rest := by
  rw [walk, h]
  rfl

theorem walk_name (h : root.get? here = some (.dir mode es)) (h1 : x ≠ ".") (h2 : x ≠ "..") :
    walk root follow links here (x :: rest) =
      if x.utf8ByteSize > maxName then .error .nameTooLong
      else match Entries.get? x es with
        | none => if rest.isEmpty then .ok (.free here x) else .error .notFound
        | some (.link t) =>
          if rest.isEmpty && !follow then .ok (.node (here ++ [x]) (.link t))
          else match links with
            | 0 => .error .linkLoop
            | links + 1 =>
              walk root follow links (if startsAtRoot t then [] else here) (pathPieces t ++ rest)
        | some _ => walk root follow links (here ++ [x]) rest := by
  have hhere : ¬ (x == ".") = true := by simpa using h1
  have hup : ¬ (x == "..") = true := by simpa using h2
  rw [walk, h]
  exact (if_neg hhere).trans (if_neg hup)

theorem walk_free (h : root.get? here = some (.dir mode es)) (hx : IsEntryName x)
    (hn : Entries.get? x es = none) : walk root follow links here [x] = .ok (.free here x) := by
  rw [walk_name h hx.ne_here hx.ne_up, if_neg (Nat.not_lt.2 hx.short), hn]
  rfl

theorem walk_follow {t : String} (hx : IsEntryName x)
    (h : root.get? (here ++ [x]) = some (.link t)) (hrest : rest ≠ [] ∨ follow = true) :
    walk root follow (links + 1) here (x :: rest) =
      walk root follow links (if startsAtRoot t then [] else here) (pathPieces t ++ rest) := by
  obtain ⟨mode, es, hdir⟩ := exists_dir_above h
  rw [get?_concat hdir] at h
  have hgo : (rest.isEmpty && !follow) = false := by
    rcases hrest with hne | hf
    · simp [List.isEmpty_eq_false_iff.2 hne]
    · simp [hf]
  rw [walk_name hdir hx.ne_here hx.ne_up, if_neg (Nat.not_lt.2 hx.short), h]
  simp only [hgo, Bool.false_eq_true, if_false]

theorem walk_down (hx : IsEntryName x) (h : root.get? (here ++ [x]) = some n)
    (hn : n.isLink = false) :
    walk root follow links here (x :: rest) = walk root follow links (here ++ [x]) rest := by
  obtain ⟨mode, es, hdir⟩ := exists_dir_above h
  rw [get?_concat hdir] at h
  rw [walk_name hdir hx.ne_here hx.ne_up, if_neg (Nat.not_lt.2 hx.short), h]
  cases n with
  | link t => simp [isLink] at hn
  | file | full | dir => rfl

/-- A link to its own directory leads on as often as links may be followed. -/
theorem walk_self_links (hx : IsEntryName x) (h : root.get? (here ++ [x]) = some (.link ".")) (n : Nat)
    (hrest : rest ≠ [] ∨ follow = true) :
    walk root follow (links + n) here (List.replicate n x ++ rest)
      = walk root follow links here rest := by
  obtain ⟨mode, es, hdir⟩ := exists_dir_above h
  induction n with
  | zero => rfl
  | succ n ih =>
    have hmore : List.replicate n x ++ rest ≠ [] ∨ follow = true :=
      hrest.imp_left fun hne => by simp [hne]
    have hpieces : pathPieces "." = ["."] := by decide
    rw [List.replicate_succ, List.cons_append, ← Nat.add_assoc, walk_follow hx h hmore,
      if_neg (by decide), hpieces, List.singleton_append, walk_stay hdir, ih]

/-! ## Ways -/

/-- **What is found is where a way leads.** -/
theorem walk_eq_ok :
    walk root follow links here ps = .ok spot ↔ Walks root follow links here ps spot := by
  constructor
  · intro h
    fun_induction walk root follow links here ps
    case case1 hn => exact Except.ok.inj h ▸ .stop hn
    case case4 hdir hpiece ih => exact (beq_iff_eq.1 hpiece) ▸ .stay hdir (ih h)
    case case5 hdir _ hpiece ih => exact (beq_iff_eq.1 hpiece) ▸ .up hdir (ih h)
    case case7 rest _ _ hdir h1 h2 hlen hn hrest =>
      obtain rfl : rest = [] := List.isEmpty_iff.1 hrest
      exact Except.ok.inj h ▸ .free hdir ⟨by simpa using h1, by simpa using h2, by omega⟩ hn
    case case9 rest _ _ hdir h1 h2 hlen t hn hrest =>
      obtain ⟨hrest, hf⟩ : rest = [] ∧ follow = false := by simpa using hrest
      subst hrest
      exact Except.ok.inj h ▸ .link ⟨by simpa using h1, by simpa using h2, by omega⟩
        ((get?_concat hdir _).trans hn) hf
    case case11 rest _ _ hdir h1 h2 hlen t hn hrest links ih =>
      refine .follow ⟨by simpa using h1, by simpa using h2, by omega⟩
        ((get?_concat hdir _).trans hn) ?_ (by simpa using ih h)
      simp only [Bool.and_eq_true, List.isEmpty_iff, Bool.not_eq_true', not_and] at hrest
      by_cases hne : rest = []
      · exact .inr (by simpa using hrest hne)
      · exact .inl hne
    case case12 hdir h1 h2 hlen m hlink hm ih =>
      refine .down ⟨by simpa using h1, by simpa using h2, by omega⟩
        ((get?_concat hdir _).trans hm) ?_ (ih h)
      cases m with
      | link t => exact (hlink t rfl).elim
      | file | full | dir => rfl
    all_goals cases h
  · intro h
    induction h with
    | stop h => exact walk_stop h
    | stay h _ ih => rw [walk_stay h, ih]
    | up h _ ih => rw [walk_up h, ih]
    | free h hx hn => exact walk_free h hx hn
    | @link links here x t hx h hf =>
      obtain ⟨mode, es, hdir⟩ := exists_dir_above h
      rw [get?_concat hdir] at h
      rw [walk_name hdir hx.ne_here hx.ne_up, if_neg (Nat.not_lt.2 hx.short), h]
      simp [hf]
    | follow hx h hrest _ ih => rw [walk_follow hx h hrest, ih]
    | down hx h hn _ ih => rw [walk_down hx h hn, ih]

namespace Walks

/-- At the end of a way there is what it leads to. -/
theorem get? (h : Walks root follow links here ps (.node loc n)) : root.get? loc = some n := by
  generalize hs : Spot.node loc n = spot at h
  induction h with
  | stop h => cases hs; exact h
  | free => cases hs
  | link _ h => cases hs; exact h
  | stay _ _ ih | up _ _ ih | follow _ _ _ _ ih | down _ _ _ _ ih => exact ih hs

/-- A way starts at something that is there. -/
theorem exists_start (h : Walks root follow links here ps spot) : ∃ n, root.get? here = some n := by
  cases h with
  | stop h | stay h | up h | free h => exact ⟨_, h⟩
  | link _ h | follow _ h | down _ h =>
    obtain ⟨mode, es, h⟩ := exists_dir_above h
    exact ⟨_, h⟩

/-- A way to a directory can be gone on from. -/
theorem append (h : Walks root true links here ps (.node loc (.dir mode es))) :
    ∃ links', ∀ follow qs, qs ≠ [] →
      walk root follow links here (ps ++ qs) = walk root follow links' loc qs := by
  generalize hs : Spot.node loc (.dir mode es) = spot at h
  induction h with
  | @stop links here n h =>
    cases hs
    exact ⟨links, fun _ _ _ => rfl⟩
  | free => cases hs
  | link _ _ hf => cases hf
  | stay h _ ih =>
    obtain ⟨links', ih⟩ := ih hs
    exact ⟨links', fun follow qs hqs => by rw [List.cons_append, walk_stay h, ih follow qs hqs]⟩
  | up h _ ih =>
    obtain ⟨links', ih⟩ := ih hs
    exact ⟨links', fun follow qs hqs => by rw [List.cons_append, walk_up h, ih follow qs hqs]⟩
  | follow hx h _ _ ih =>
    obtain ⟨links', ih⟩ := ih hs
    refine ⟨links', fun follow qs hqs => ?_⟩
    rw [List.cons_append, walk_follow hx h (.inl (by simp [hqs])), ← List.append_assoc,
      ih follow qs hqs]
  | down hx h hn _ ih =>
    obtain ⟨links', ih⟩ := ih hs
    exact ⟨links', fun follow qs hqs => by
      rw [List.cons_append, walk_down hx h hn, ih follow qs hqs]⟩

theorem concat_here (h : Walks root true links here ps (.node loc (.dir mode es))) :
    Walks root true links here (ps ++ ["."]) (.node loc (.dir mode es)) := by
  obtain ⟨links', hgo⟩ := h.append
  rw [← walk_eq_ok, hgo true _ (by simp), walk_stay h.get?, walk_stop h.get?]

/-- There is no going on from what is no directory. -/
theorem stuck (h : Walks root true links here ps (.node loc n)) (hn : n.isDir = false) (x : String)
    (qs : List String) (follow : Bool) :
    ∃ e, walk root follow links here (ps ++ x :: qs) = .error e := by
  generalize hs : Spot.node loc n = spot at h
  induction h with
  | stop h =>
    cases hs
    refine ⟨.notDirectory, ?_⟩
    rw [List.nil_append, walk, h]
    cases n with
    | dir => simp [Node.isDir] at hn
    | file | link | full => rfl
  | free => cases hs
  | link _ _ hf => cases hf
  | stay h _ ih => rw [List.cons_append, walk_stay h]; exact ih hs
  | up h _ ih => rw [List.cons_append, walk_up h]; exact ih hs
  | follow hx h _ _ ih =>
    rw [List.cons_append, walk_follow hx h (.inl (by simp)), ← List.append_assoc]
    exact ih hs
  | down hx h ha _ ih => rw [List.cons_append, walk_down hx h ha]; exact ih hs

/-- **A way does not depend on files.** In a tree with the same directories and links it leads to the
same place, if there is anything there. -/
theorem of_sameWays (h : Walks r follow links here ps (.node loc n)) (hrs : r.SameWays s)
    {m : Node} (hm : s.get? loc = some m) : Walks s follow links here ps (.node loc m) := by
  generalize hs : Spot.node loc n = spot at h
  induction h with
  | stop h =>
    cases hs
    exact .stop hm
  | free => cases hs
  | link hx h hf =>
    cases hs
    obtain rfl : m = .link _ := Option.some.inj (hm.symm.trans (hrs.link h))
    exact .link hx (hrs.link h) hf
  | stay h _ ih =>
    obtain ⟨mode, es, h⟩ := hrs.dir h
    exact .stay h (ih hs)
  | up h _ ih =>
    obtain ⟨mode, es, h⟩ := hrs.dir h
    exact .up h (ih hs)
  | follow hx h hrest _ ih => exact .follow hx (hrs.link h) hrest (ih hs)
  | @down links here x rest spot a hx h ha hway ih =>
    obtain ⟨b, hb⟩ := (ih hs).exists_start
    refine .down hx hb ?_ (ih hs)
    cases b with
    | link t =>
      obtain rfl : a = .link t := Option.some.inj (h.symm.trans (hrs.symm.link hb))
      exact ha
    | file | full | dir => rfl

/-- Where real directories lead on to something that is no link, names lead to it, whatever `.` stand
between them. -/
theorem eq_of_names (h : Walks root follow links here ps spot)
    (hn : root.get? (here ++ ps.filter (· != ".")) = some n) (hlink : n.isLink = false)
    (hup : ".." ∉ ps) : spot = .node (here ++ ps.filter (· != ".")) n := by
  induction h with
  | stop h =>
    simp only [List.filter_nil, List.append_nil] at hn ⊢
    rw [Option.some.inj (h.symm.trans hn)]
  | stay _ _ ih => exact ih (by simpa using hn) (fun h => hup (by simp [h]))
  | up => simp at hup
  | free hdir hx hnone =>
    rw [List.filter_cons_of_pos (by simpa using hx.ne_here), List.filter_nil, get?_concat hdir,
      hnone] at hn
    cases hn
  | link hx h =>
    rw [List.filter_cons_of_pos (by simpa using hx.ne_here), List.filter_nil, h] at hn
    cases hn
    simp [isLink] at hlink
  | @follow links here x t rest spot hx h _ _ _ =>
    rw [List.filter_cons_of_pos (by simpa using hx.ne_here)] at hn
    cases hrest : rest.filter (· != ".") with
    | nil =>
      rw [hrest, h] at hn
      cases hn
      simp [isLink] at hlink
    | cons y ys =>
      rw [hrest, List.append_cons here x] at hn
      obtain ⟨mode, es, hdir⟩ := exists_dir_above hn
      simp [h] at hdir
  | @down links here x rest spot a hx h _ _ ih =>
    rw [List.filter_cons_of_pos (by simpa using hx.ne_here)] at hn ⊢
    rw [List.append_cons] at hn ⊢
    exact ih hn (fun h => hup (by simp [h]))

/-- Without links, names lead where they say. -/
theorem eq_of_unlinked (h : Walks root follow links here ps (.node loc n))
    (hnone : ∀ loc t, root.get? loc ≠ some (.link t)) (hup : ".." ∉ ps) :
    loc = here ++ ps.filter (· != ".") := by
  generalize hs : Spot.node loc n = spot at h
  induction h with
  | stop => cases hs; simp
  | stay _ _ ih => simpa using ih (fun h => hup (by simp [h])) hs
  | up => simp at hup
  | free => cases hs
  | link _ h => exact absurd h (hnone _ _)
  | follow _ h => exact absurd h (hnone _ _)
  | @down links here x rest spot a hx h _ _ ih =>
    rw [List.filter_cons_of_pos (by simpa using hx.ne_here), List.append_cons]
    exact ih (fun h => hup (by simp [h])) hs

/-- A way that goes on starts at a directory. -/
theorem exists_dir (h : Walks root follow links here (x :: ps) spot) :
    ∃ mode es, root.get? here = some (.dir mode es) := by
  generalize hqs : x :: ps = qs at h
  cases h with
  | stop => cases hqs
  | stay h | up h | free h => exact ⟨_, _, h⟩
  | link _ h | follow _ h | down _ h => exact exists_dir_above h

/-- A way that goes on has come by a directory, links followed. -/
theorem front (h : Walks root follow links here (ps ++ x :: qs) spot) :
    ∃ loc mode es, Walks root true links here ps (.node loc (.dir mode es)) := by
  generalize hrest : ps ++ x :: qs = rest at h
  -- What is left where one more piece is taken.
  have hsplit {y : String} {ps rest : List String} (hrest : ps ++ x :: qs = y :: rest) :
      ps = [] ∨ ∃ ps', ps = y :: ps' ∧ ps' ++ x :: qs = rest :=
    (List.append_eq_cons_iff.1 hrest).imp (·.1) fun ⟨ps', h⟩ => ⟨ps', h.1, h.2.symm⟩
  have hstart {links : Nat} {here : Location} {y : String} {rest : List String} {spot : Spot}
      (h : Walks root follow links here (y :: rest) spot) :
      ∃ loc mode es, Walks root true links here [] (.node loc (.dir mode es)) := by
    obtain ⟨mode, es, h⟩ := h.exists_dir
    exact ⟨_, mode, es, .stop h⟩
  induction h generalizing ps with
  | stop => simp at hrest
  | stay hdir hway ih =>
    obtain rfl | ⟨ps', rfl, hnext⟩ := hsplit hrest
    · exact hstart (.stay hdir hway)
    · obtain ⟨loc, mode, es, h⟩ := ih hnext
      exact ⟨loc, mode, es, .stay hdir h⟩
  | up hdir hway ih =>
    obtain rfl | ⟨ps', rfl, hnext⟩ := hsplit hrest
    · exact hstart (.up hdir hway)
    · obtain ⟨loc, mode, es, h⟩ := ih hnext
      exact ⟨loc, mode, es, .up hdir h⟩
  | free hdir hx hnone =>
    obtain rfl | ⟨ps', rfl, hnext⟩ := hsplit hrest
    · exact hstart (.free hdir hx hnone)
    · simp at hrest
  | link hx hlink hf =>
    obtain rfl | ⟨ps', rfl, hnext⟩ := hsplit hrest
    · exact hstart (.link hx hlink hf)
    · simp at hrest
  | follow hx hlink hgo hway ih =>
    obtain rfl | ⟨ps', rfl, hnext⟩ := hsplit hrest
    · exact hstart (.follow hx hlink hgo hway)
    · obtain ⟨loc, mode, es, h⟩ := ih ((List.append_assoc _ _ _).trans (congrArg _ hnext))
      exact ⟨loc, mode, es, .follow hx hlink (.inr rfl) h⟩
  | down hx hn hlink hway ih =>
    obtain rfl | ⟨ps', rfl, hnext⟩ := hsplit hrest
    · exact hstart (.down hx hn hlink hway)
    · obtain ⟨loc, mode, es, h⟩ := ih hnext
      exact ⟨loc, mode, es, .down hx hn hlink h⟩

/-- A `.` leads nowhere. -/
theorem of_here (h : Walks root follow links here ("." :: ps) spot) :
    Walks root follow links here ps spot := by
  generalize hqs : "." :: ps = qs at h
  cases h with
  | stop => cases hqs
  | stay _ h => exact (List.cons_eq_cons.1 hqs).2 ▸ h
  | up => exact absurd (List.cons_eq_cons.1 hqs).1 (by decide)
  | free _ hx | link hx | follow hx | down hx =>
    exact absurd (List.cons_eq_cons.1 hqs).1 hx.ne_here.symm

/-- A `.` at the end asks for a directory. -/
theorem isDir_of_here (h : Walks root follow links here (ps ++ ["."]) (.node loc n)) :
    n.isDir = true := by
  generalize hs : Spot.node loc n = spot at h
  generalize hqs : ps ++ ["."] = qs at h
  -- A piece that is not this `.` stands before it.
  have hbefore {ps rest : List String} {x : String} (hqs : ps ++ ["."] = x :: rest) (hx : x ≠ ".") :
      ∃ ps', ps' ++ ["."] = rest := by
    rcases List.append_eq_cons_iff.1 hqs with ⟨-, h⟩ | ⟨ps', -, h⟩
    · exact absurd (List.cons_eq_cons.1 h).1 hx.symm
    · exact ⟨ps', h.symm⟩
  induction h generalizing ps with
  | stop => simp at hqs
  | free => cases hs
  | link hx =>
    obtain ⟨ps', h⟩ := hbefore hqs hx.ne_here
    simp at h
  | stay hdir hway ih =>
    cases ps with
    | nil =>
      obtain rfl := (List.cons_eq_cons.1 hqs).2
      subst hs
      cases hway with
      | stop hn =>
        rw [Option.some.inj (hn.symm.trans hdir)]
        rfl
    | cons _ ps => exact ih hs (List.cons_eq_cons.1 hqs).2
  | up _ _ ih =>
    obtain ⟨ps', h⟩ := hbefore hqs (by decide)
    exact ih hs h
  | follow hx _ _ _ ih =>
    obtain ⟨ps', rfl⟩ := hbefore hqs hx.ne_here
    exact ih hs (List.append_assoc _ _ _)
  | down hx _ _ _ ih =>
    obtain ⟨ps', h⟩ := hbefore hqs hx.ne_here
    exact ih hs h

/-- A `.` at the end leads no further. -/
theorem of_concat_here (h : Walks root true links here (ps ++ ["."]) spot) :
    Walks root true links here ps spot := by
  obtain ⟨loc, mode, es, hfront⟩ := h.front
  have hsame := (walk_eq_ok.2 h).symm.trans (walk_eq_ok.2 hfront.concat_here)
  exact Except.ok.inj hsame ▸ hfront

/-- What is no directory is the entry of the name that leads to it. -/
theorem eq_of_entry {i j : Nat} (h : Walks root false links here
    (List.replicate i "." ++ x :: List.replicate j ".") (.node loc n)) (hn : n.isDir = false) :
    loc = here ++ [x] := by
  cases j with
  | succ j =>
    rw [List.replicate_succ', ← List.cons_append, ← List.append_assoc] at h
    simp [h.isDir_of_here] at hn
  | zero =>
    induction i with
    | succ i ih =>
      rw [List.replicate_succ, List.cons_append] at h
      exact ih h.of_here
    | zero =>
      cases h with
      | stay hdir h =>
        cases h with
        | stop h =>
          rw [Option.some.inj (h.symm.trans hdir)] at hn
          cases hn
      | up hdir h =>
        cases h with
        | stop h =>
          obtain ⟨mode, es, hup⟩ := exists_dir_dropLast hdir
          rw [Option.some.inj (h.symm.trans hup)] at hn
          cases hn
      | link => rfl
      | follow _ _ hrest => simp at hrest
      | down _ _ _ h =>
        cases h
        rfl

end Walks

end Codemod.Disk
