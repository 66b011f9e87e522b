/-
Rules: a matcher, what its hits are replaced with, and a name for both. A rule that refuses to work on
a text leaves the text as it was.
-/
import Codemod.Error
import Codemod.Rule.Replacement

namespace Codemod

open Text

structure Rule where
  id : String
  description : String
  matcher : Matcher
  replacement : Replacement

namespace Rule

/-- A rule needs an id that is more than blanks, and a template needs a matcher that captures. -/
def create (id : String) (matcher : Matcher) (replacement : Replacement) (description : String) :
    Except Refusal Rule :=
  if isBlankText id then .error .emptyId
  else if replacement.needsCaptures && !matcher.hasCaptures then
    .error (.templateNeedsCapturing matcher.kind)
  else .ok ⟨id, description, matcher, replacement⟩

/-- The text from `c` on with the hits replaced. -/
def splice (replacement : Replacement) (c : Cursor) : List Hit → Except Refusal (List Char)
  | [] => .ok c.ahead
  | h :: hits => do
    let text ← replacement.render h
    let rest ← splice replacement h.stop hits
    return c.upTo h.start ++ text.toList ++ rest

/-- Replaces every hit in a text and counts them. -/
def apply (r : Rule) (content : String) : Except Refusal (Option (String × Nat)) := do
  let hits ← r.matcher.findAll content.toList
  if hits.isEmpty then return none
  let text ← splice r.replacement (.start content.toList) hits
  return some (String.ofList text, hits.length)

end Rule

end Codemod
