/-
The switches of a pattern. They hold from where they are set to the end of the group around them.
-/
namespace Codemod.Pattern

structure Flags where
  ignoreCase : Bool := false
  multiLine : Bool := false
  dotAll : Bool := false
  swapGreed : Bool := false
  unicode : Bool := true
  crlf : Bool := false
  /-- Blanks and comments in the pattern do not count. -/
  verbose : Bool := false
  deriving DecidableEq, Repr

namespace Flags

def set? (f : Flags) (letter : Char) (on : Bool) : Option Flags :=
  match letter with
  | 'i' => some { f with ignoreCase := on }
  | 'm' => some { f with multiLine := on }
  | 's' => some { f with dotAll := on }
  | 'U' => some { f with swapGreed := on }
  | 'u' => some { f with unicode := on }
  | 'R' => some { f with crlf := on }
  | 'x' => some { f with verbose := on }
  | _ => none

/-- Reads letters up to the closing `:` or `)`, none of them twice and at most one hyphen, which
turns off what comes after it. Gives the new switches, whether any letter stood there, what closed
them and the rest. -/
def read (f : Flags) (on : Bool) (seen : List Char) :
    List Char → Option (Flags × Bool × Char × List Char)
  | [] => none
  | c :: rest =>
    if c == ':' || c == ')' then
      if seen.head? == some '-' then none else some (f, !seen.isEmpty, c, rest)
    else if seen.contains c then none
    else if c == '-' then f.read false (c :: seen) rest
    else match f.set? c on with
      | some g => g.read on (c :: seen) rest
      | none => none

end Flags

end Codemod.Pattern
