/-
Templates: texts that refer to the groups of a match. A reference is `$` and a number or a name, which
may stand in braces; `$$` is a dollar sign, and a dollar sign that starts no reference stands for
itself.
-/
import Codemod.Rule.Matcher

namespace Codemod.Template

inductive Part where
  | char (c : Char)
  | group (i : Nat)
  | named (name : String)
  deriving DecidableEq, Repr

/-- The number that a text writes in full: digits, with a plus sign allowed before them. -/
def number? (cs : List Char) : Option Nat :=
  let ds := match cs with
    | '+' :: ds => ds
    | ds => ds
  if ds.isEmpty || !ds.all Char.isDigit then none
  else
    let n := ds.foldl (fun n c => 10 * n + (c.toNat - 48)) 0
    if n < 0x10000000000000000 then some n else none

def reference (cs : List Char) : Part :=
  match number? cs with
  | some n => .group n
  | none => .named (String.ofList cs)

def isNameChar (c : Char) : Bool := c.isAlphanum || c == '_'

/-- Reads a reference behind its dollar sign; gives the characters it takes as well. -/
def readReference (cs : List Char) : Option (Part × Nat) :=
  match cs with
  | '{' :: inner =>
    let name := inner.takeWhile (· != '}')
    if name.length < inner.length then some (reference name, name.length + 2) else none
  | cs =>
    let name := cs.takeWhile isNameChar
    if name.isEmpty then none else some (reference name, name.length)

/-- The parts of a template; `skip` characters belong to a reference already read. -/
def parts : Nat → List Char → List Part
  | _, [] => []
  | skip + 1, _ :: rest => parts skip rest
  | 0, c :: rest =>
    if c != '$' then .char c :: parts 0 rest
    else match rest with
      | '$' :: _ => .char '$' :: parts 1 rest
      | _ => match readReference rest with
        | some (part, used) => part :: parts used rest
        | none => .char '$' :: parts 0 rest

/-- A group that took no part in the match, or does not exist, stands for nothing. -/
def Part.render (c : Captures) : Part → List Char
  | .char a => [a]
  | .group i => ((c.group? i).getD "").toList
  | .named name => ((c.named? name).getD "").toList

def expand (template : String) (c : Captures) : String :=
  String.ofList ((parts 0 template.toList).flatMap (Part.render c))

end Codemod.Template
