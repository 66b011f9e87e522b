/-
A walk round after round. It goes on from a list of the entries that are still to be visited, of which each
directory gives way to what it lists (`next`), and needs no bound on how far directories lie below one
another. Where the walk by recursion gets to the end, so does this one, and in the same state (`Goes`).
-/
import Mathlib.Logic.Function.Iterate
import Codemod.Proofs.Run.Walk

namespace Codemod.Walk

variable {α : Type} {s : Settings} {visit : Visit α} {depth : Nat} {st st' st'' : State α} {p : Path}
  {es es' : List Entry}

/-- One round of a walk: the first entry that is left is visited if it is a file, and gives way to what it
lists if it is a directory. -/
def next (s : Settings) (visit : Visit α) : State α × List Entry → State α × List Entry
  | (st, []) => (st, [])
  | (st, e :: left) =>
    if e.isDir then
      if isExcluded s e.path then (st, left)
      else match entriesOf st.disk e.path with
        | .ok es => (st, es ++ left)
        | .error err => ({ st with skipped := st.skipped ++ [⟨e.path, err.message⟩] }, left)
    else if isCandidate s e.path then
      let (value, disk) := visit st.disk st.value e.path
      ({ st with disk, value }, left)
    else (st, left)

/-- From one state a walk comes to another by way of some entries, one below the other or round after
round. -/
structure Goes (s : Settings) (visit : Visit α) (depth : Nat) (st st' : State α) (es : List Entry) :
    Prop where
  visited : es.foldl (visitEntry s visit depth) st = st'
  rounds : ∀ left, ∃ n, (next s visit)^[n] (st, es ++ left) = (st', left)

namespace Goes

theorem nil : Goes s visit depth st st [] := ⟨rfl, fun _ => ⟨0, rfl⟩⟩

theorem append (h : Goes s visit depth st st' es) (h' : Goes s visit depth st' st'' es') :
    Goes s visit depth st st'' (es ++ es') := by
  refine ⟨by rw [List.foldl_append, h.visited, h'.visited], fun left => ?_⟩
  obtain ⟨n, hn⟩ := h.rounds (es' ++ left)
  obtain ⟨m, hm⟩ := h'.rounds left
  exact ⟨m + n, by rw [Function.iterate_add_apply, List.append_assoc, hn, hm]⟩

theorem file (s : Settings) (visit : Visit α) (depth : Nat) (st : State α) (p : Path) :
    Goes s visit depth st (st.after visit (if isCandidate s p then [p] else []) []) [⟨p, false⟩] := by
  constructor
  · rw [List.foldl_cons, List.foldl_nil, visitEntry_file]
    split <;> simp [State.after, visitAll]
  · intro left
    refine ⟨1, ?_⟩
    by_cases hp : isCandidate s p = true
    · simp [next, hp, State.after, visitAll]
    · simp [next, hp]

theorem excluded (depth : Nat) (h : isExcluded s p = true) :
    Goes s visit (depth + 1) st st [⟨p, true⟩] := by
  constructor
  · simp [visitEntry, h]
  · intro left
    exact ⟨1, by simp [next, h]⟩

theorem dir (hp : isExcluded s p = false) (hes : entriesOf st.disk p = .ok es)
    (h : Goes s visit depth st st' es) : Goes s visit (depth + 1) st st' [⟨p, true⟩] := by
  constructor
  · rw [List.foldl_cons, List.foldl_nil, visitEntry_dir visit depth st hes, if_neg (by simp [hp]),
      h.visited]
  · intro left
    obtain ⟨n, hn⟩ := h.rounds left
    refine ⟨n + 1, ?_⟩
    rw [Function.iterate_succ_apply, ← hn]
    simp [next, hp, hes]

end Goes

end Codemod.Walk
