/-
Tidying an edit script: insertions slide over equal lines towards other edits, so that neighbouring
edits merge. A deletion only changes places with insertions.
-/
import Codemod.Diff.Script

namespace Codemod.Diff

/-- A script opened at one edit; what comes before has the nearest edit first. -/
structure Opened where
  before : List Edit
  this : Edit
  after : List Edit

namespace Edit

def newSpan (e : Edit) : Span := ⟨e.new, if e.kind == .delete then e.new else e.new + e.len⟩

def oldSpan (e : Edit) : Span := ⟨e.old, if e.kind == .insert then e.old else e.old + e.len⟩

def slideUp (e : Edit) (n : Nat) : Edit := { e with old := e.old - n, new := e.new - n }

def slideDown (e : Edit) (n : Nat) : Edit := { e with old := e.old + n, new := e.new + n }

end Edit

def weight (l : List Edit) : Nat := l.foldr (fun e n => e.len + 1 + n) 0

/-- Slides an edit towards the start as far as it goes. -/
def slideUp (s : Sides) (o : Opened) : Opened :=
  match _h : o.before with
  | [] => o
  | prev :: before =>
    match prev.kind with
    | .equal =>
      let n := s.tailLength prev.oldSpan o.this.newSpan
      if _hn : 0 < n ∧ n ≤ prev.len then
        let after := match o.after with
          | next :: rest =>
            if next.kind == .equal then { next.slideUp n with len := next.len + n } :: rest
            else ⟨.equal, prev.old + prev.len - n, o.this.newSpan.stop - n, n⟩ :: o.after
          | [] => [⟨.equal, prev.old + prev.len - n, o.this.newSpan.stop - n, n⟩]
        let this := o.this.slideUp n
        if prev.len == n then slideUp s ⟨before, this, after⟩
        else slideUp s ⟨{ prev with len := prev.len - n } :: before, this, after⟩
      else if prev.len == 0 then slideUp s ⟨before, o.this, o.after⟩
      else o
    | kind =>
      if kind == o.this.kind then
        slideUp s ⟨before, { prev with len := prev.len + o.this.len }, o.after⟩
      else slideUp s ⟨before, o.this, prev :: o.after⟩
termination_by weight o.before
decreasing_by all_goals simp [weight, _h] <;> omega

/-- Slides an edit towards the end as far as it goes. -/
def slideDown (s : Sides) (o : Opened) : Opened :=
  match _h : o.after with
  | [] => o
  | next :: after =>
    match next.kind with
    | .equal =>
      let n := s.headLength next.oldSpan o.this.newSpan
      if _hn : 0 < n ∧ n ≤ next.len then
        let before := match o.before with
          | prev :: rest =>
            if prev.kind == .equal then { prev with len := prev.len + n } :: rest
            else ⟨.equal, next.old, o.this.new, n⟩ :: o.before
          | [] => [⟨.equal, next.old, o.this.new, n⟩]
        let this := o.this.slideDown n
        if next.len == n then slideDown s ⟨before, this, after⟩
        else slideDown s ⟨before, this, { next.slideDown n with len := next.len - n } :: after⟩
      else if next.len == 0 then slideDown s ⟨o.before, o.this, after⟩
      else o
    | kind =>
      if kind == o.this.kind then
        slideDown s ⟨o.before, { o.this with len := o.this.len + next.len }, after⟩
      else slideDown s ⟨next :: o.before, o.this, after⟩
termination_by weight o.after
decreasing_by all_goals simp [weight, _h, Edit.slideDown] <;> omega

/-- Slides every edit of one kind, from the start on. The fuel bounds the number of edits met. -/
def tidyKind (s : Sides) (kind : EditKind) : Nat → List Edit → List Edit → List Edit
  | 0, before, after => before.reverse ++ after
  | _ + 1, before, [] => before.reverse
  | fuel + 1, before, e :: after =>
    if e.kind == kind then
      let o := slideDown s (slideUp s ⟨before, e, after⟩)
      tidyKind s kind fuel (o.this :: o.before) o.after
    else tidyKind s kind fuel (e :: before) after

def tidy (s : Sides) (edits : List Edit) : List Edit :=
  let fuel := s.old.size + s.new.size + edits.length + 1
  let edits := tidyKind s .delete fuel [] edits
  tidyKind s .insert fuel [] edits

end Codemod.Diff
