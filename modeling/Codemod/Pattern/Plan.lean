/-
How a pattern goes over one text. A plan is a pattern with the places noted from which each of its
choices leads to a match, so that a match need not be searched for: it is there to be walked.
-/
import Codemod.Pattern.Course

namespace Codemod.Pattern

open Text Unicode

/-- A pattern with the places where its choices lead on to a match of the whole. A choice that is
marked is not to be met twice at one place. -/
inductive Plan where
  | empty
  | word (cs : List Char)
  | chars (s : CharSet)
  | look (l : Look)
  | group (index : Nat) (x : Plan)
  | seq (x y : Plan)
  /-- The first of two where it leads on, and else the second. Where choices are marked, the first can
  still be a dead end, and `second` then tells where the other leads on. -/
  | alt (mark : Option Nat) (first : Places.Index) (second : Option Places.Index) (x y : Plan)
  /-- Rounds that can start from `again`, and an end at `leave`. -/
  | loop (once : Bool) (entry turn : Option Nat) (again leave : Places.Index) (greedy : Bool)
    (x : Plan)
  deriving Inhabited

/-- A plan, the places where it can start, and the number of the next mark. -/
structure Draft where
  plan : Plan
  start : Places
  next : Nat

namespace Draft

/-- Puts a part before a draft. -/
def prepend (d : Draft) (x : Places → Nat → Draft) : Draft :=
  let e := x d.start d.next
  ⟨.seq e.plan d.plan, e.start, e.next⟩

/-- Puts so many copies of a part before a draft. -/
def copies (x : Places → Nat → Draft) : Nat → Draft → Draft
  | 0, d => d
  | n + 1, d => copies x n (d.prepend x)

/-- Makes a draft optional; without it, the pattern goes on at `k`. -/
def optional (d : Draft) (marked greedy : Bool) (k : Places) (leave : Places.Index) : Draft :=
  let mark := if marked then some d.next else none
  let plan := if greedy then .alt mark d.start.index leave d.plan .empty
    else .alt mark leave (if marked then some d.start.index else none) .empty d.plan
  ⟨plan, d.start.union k, d.next + 1⟩

/-- So many copies of a part, each optional together with those behind it. -/
def optionals (x : Places → Nat → Draft) (marked greedy : Bool) (k : Places)
    (leave : Places.Index) : Nat → Draft → Draft
  | 0, d => d
  | n + 1, d => optionals x marked greedy k leave n ((d.prepend x).optional marked greedy k leave)

end Draft

/-- Plans a course that goes on at `k`. Inside a loop whose rounds can be empty, choices are
marked. -/
def Course.plan (size : Nat) (marked : Bool) : Course → Places → Nat → Draft
  | .empty, k, n => ⟨.empty, k, n⟩
  | .word cs behind, k, n => ⟨.word cs, behind.foldr before k, n⟩
  | .chars s behind, k, n => ⟨.chars s, before behind k, n⟩
  | .look l here, k, n => ⟨.look l, k.inter here, n⟩
  | .group i x, k, n =>
    let d := x.plan size marked k n
    ⟨.group i d.plan, d.start, d.next⟩
  | .seq x y, k, n => (y.plan size marked k n).prepend (x.plan size marked)
  | .alt x y, k, n =>
    let e := y.plan size marked k n
    let d := x.plan size marked k e.next
    let mark := if marked then some d.next else none
    let second := if marked then some e.start.index else none
    ⟨.alt mark d.start.index second d.plan e.plan, d.start.union e.start, d.next + 1⟩
  | .loop x low high greedy, k, n =>
    let leave := k.index
    match high with
    | some high =>
      Draft.copies (x.plan size marked) low
        (Draft.optionals (x.plan size marked) marked greedy k leave (high - low) ⟨.empty, k, n⟩)
    | none =>
      let places := rounds size x.singles (x.ways size true) k
      let loop (once : Bool) (entry turn : Option Nat) (d : Draft) : Plan :=
        .loop once entry turn d.start.index leave greedy d.plan
      if x.nullable then
        -- A round that leads nowhere is the last one, and only the first one can be such.
        let d := x.plan size true places (n + 2)
        let d := { d with plan := loop true (some n) (some (n + 1)) d }
        if low == 0 then d.optional marked greedy k leave
        else Draft.copies (x.plan size marked) (low - 1) d
      else
        let d := x.plan size marked places (n + 1)
        let turn := if marked then some n else none
        if low == 0 then { d with plan := loop false none turn d, start := places }
        else Draft.copies (x.plan size marked) (low - 1) { d with plan := loop true none turn d }

end Codemod.Pattern
