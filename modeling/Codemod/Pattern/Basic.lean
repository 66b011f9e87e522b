/-
Patterns ready for use: compiling a text, and searching with the result.
-/
import Codemod.Pattern.Match
import Codemod.Pattern.Parser

namespace Codemod

open Text Pattern

/-- A compiled pattern, with the text it was compiled from. -/
structure Pattern where
  source : String
  node : Node
  /-- The numbers of the named groups. -/
  names : List (String × Nat)

namespace Pattern

def compile (flags : Flags) (source : String) : Except PatternError Pattern := do
  let (node, names) ← parse flags source.toList
  return ⟨source, node, names⟩

/-- Prepares a pattern for a text. -/
def scan (p : Pattern) (text : List Char) : Scan := p.node.scan text

def isMatch (p : Pattern) (text : List Char) : Bool := ((p.scan text).find? (.start text)).isSome

/-- The number of a named group. -/
def index? (p : Pattern) (name : String) : Option Nat :=
  (p.names.find? fun n => n.1 == name).map (·.2)

/-- Characters that have a meaning of their own in a pattern. -/
def isMeta (c : Char) : Bool :=
  ['\\', '.', '+', '*', '?', '(', ')', '|', '[', ']', '{', '}', '^', '$', '#', '&', '-',
    '~'].contains c

/-- The pattern that matches just the given text. -/
def escape (s : String) : String :=
  String.ofList (s.toList.flatMap fun c => if isMeta c then ['\\', c] else [c])

end Pattern

end Codemod
