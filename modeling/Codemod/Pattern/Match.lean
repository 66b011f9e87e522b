/-
Matching along a plan. A plan knows at every choice which alternatives lead to a match, so that the
walk goes forward only: what it has stepped over, it need not take back. At one place, a loop whose
rounds can be empty may lead to the same choice again; the marks tell, and the walk then takes the
next alternative. A search takes the leftmost place from which a match starts.
-/
import Codemod.Text.Cursor
import Codemod.Pattern.Plan

namespace Codemod.Pattern

open Text

/-- Where a walk is. -/
structure Trail where
  place : Cursor
  /-- The groups closed so far with their bounds, the latest first. -/
  groups : List (Nat × Cursor × Cursor)

/-- The choices met since the last character. -/
abbrev Marks := List Nat

/-- What comes of a part of a walk. Behind a character there is no way back, and so the rest of the
walk is left for later. -/
inductive Outcome where
  | dead (marks : Marks)
  | moved (rest : Unit → Outcome)
  | done (t : Trail)

namespace Outcome

/-- Tries another way where the first is a dead end; the marks that were met stay. -/
def orElse (o : Outcome) (other : Marks → Outcome) : Outcome :=
  match o with
  | dead marks => other marks
  | o => o

def finish : Outcome → Option Trail
  | dead _ => none
  | moved rest => (rest ()).finish
  | done t => some t

end Outcome

/-- Meets a mark, which is a dead end the second time. -/
def pass (mark : Option Nat) (marks : Marks) (go : Marks → Outcome) : Outcome :=
  match mark with
  | none => go marks
  | some m => if marks.contains m then .dead marks else go (m :: marks)

/-- Goes on only from one of the places, if there are any given. -/
def within (live : Option Places.Index) (t : Trail) (go : Marks → Outcome) (marks : Marks) :
    Outcome :=
  if live.all (·.contains t.place.left) then go marks else .dead marks

/-- Between two rounds of a loop: goes round again or leaves. Only a round that moves on is followed
by another. -/
def between (turn : Option Nat) (again leave : Places.Index) (greedy : Bool)
    (round : Trail → Marks → (Trail → Marks → Outcome) → Outcome)
    (out : Trail → Marks → Outcome) (t : Trail) (marks : Marks) : Outcome :=
  pass turn marks fun marks =>
    let on := within again t fun marks =>
      round t marks fun u marks =>
        if u.place.left < t.place.left then between turn again leave greedy round out u marks
        else .dead marks
    let off := within leave t (out t)
    if greedy then (on marks).orElse off else (off marks).orElse on
termination_by t.place.left

/-- Walks along a plan and goes on with `out`. -/
def walk : Plan → Trail → Marks → (Trail → Marks → Outcome) → Outcome
  | .empty, t, marks, out => out t marks
  | .word cs, t, marks, out =>
    if cs.isPrefixOf t.place.ahead then
      .moved fun _ => out { t with place := t.place.advance cs.length } []
    else .dead marks
  | .chars s, t, marks, out =>
    match t.place.next? with
    | some (c, d) =>
      if s.contains c then .moved fun _ => out { t with place := d } [] else .dead marks
    | none => .dead marks
  | .look l, t, marks, out =>
    if l.holds t.place.before t.place.ahead.head? then out t marks else .dead marks
  | .group i x, t, marks, out =>
    walk x t marks fun u marks =>
      out { u with groups := (i, t.place, u.place) :: u.groups } marks
  | .seq x y, t, marks, out => walk x t marks fun u marks => walk y u marks out
  | .alt mark first second x y, t, marks, out =>
    pass mark marks fun marks =>
      (within first t (fun marks => walk x t marks out) marks).orElse
        (within second t fun marks => walk y t marks out)
  | .loop once entry turn again leave greedy x, t, marks, out =>
    let round (t : Trail) (marks : Marks) (out : Trail → Marks → Outcome) : Outcome :=
      pass entry marks fun marks => walk x t marks out
    let next := between turn again leave greedy round out
    if once then round t marks next else next t marks

/-- A piece of text that a pattern matched, with the pieces that its groups matched. -/
structure Match where
  start : Cursor
  stop : Cursor
  groups : List (Nat × Cursor × Cursor)

namespace Match

def text (m : Match) : String := String.ofList (m.start.upTo m.stop)

def isEmpty (m : Match) : Bool := m.start.left == m.stop.left

/-- The text of a numbered group; the whole match has number zero. -/
def group? (m : Match) (i : Nat) : Option String :=
  if i == 0 then some m.text
  else (m.groups.find? fun g => g.1 == i).map fun g => String.ofList (g.2.1.upTo g.2.2)

end Match

/-- A pattern ready to go over one text. -/
structure Scan where
  plan : Plan
  /-- The places where a match starts. -/
  starts : Places.Index

/-- Prepares a pattern for a text. -/
def Node.scan (x : Node) (text : List Char) : Scan :=
  let size := text.length + 2
  let d := ((Sheet.ofText text x).lay x).plan size false (.upTo text.length) 0
  ⟨d.plan, d.start.index⟩

namespace Scan

def matchAt? (s : Scan) (c : Cursor) : Option Match :=
  (walk s.plan ⟨c, []⟩ [] fun t _ => .done t).finish.map fun t => ⟨c, t.place, t.groups⟩

/-- The leftmost match from a place on. A place from which the walk is a dead end is passed over. -/
def find? (s : Scan) (c : Cursor) : Option Match :=
  match s.starts.first? c.left with
  | none => none
  | some left =>
    let d := c.advance (c.left - left)
    match s.matchAt? d with
    | some m => some m
    | none => match _h : d.next? with
      | some (_, e) => s.find? e
      | none => none
termination_by c.left
decreasing_by exact Nat.lt_of_lt_of_le (Cursor.left_lt_of_next? _h) (Cursor.left_advance_le _ _)

/-- The leftmost match from a place on. Where `barred` is set, an empty match at the place itself
does not count. -/
def search? (s : Scan) (c : Cursor) (barred : Bool) : Option Match :=
  match s.find? c with
  | some m =>
    if barred && m.isEmpty && m.start.left == c.left then
      c.next?.bind fun (_, d) => s.find? d
    else some m
  | none => none

/-- All matches from a place on, each search starting where the match before it ends. An empty match
right behind another match does not count. -/
def searchAll (s : Scan) (c : Cursor) (barred : Bool) : List Match :=
  match s.search? c barred with
  | none => []
  | some m =>
    if m.stop.left < c.left then m :: searchAll s m.stop true
    else if barred then [m] else m :: searchAll s c true
termination_by (c.left, if barred then 0 else 1)
decreasing_by
  · exact Prod.Lex.left _ _ ‹_›
  · exact Prod.Lex.right _ (by simp_all)

/-- All matches from a place on, from left to right and none overlapping another. -/
def findAll (s : Scan) (c : Cursor) : List Match := s.searchAll c false

end Scan

end Codemod.Pattern
