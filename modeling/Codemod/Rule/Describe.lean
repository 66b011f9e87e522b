/-
Rules in words, for inspection: each matcher and replacement with the texts it was made from.
-/
import Codemod.Rule.Basic

namespace Codemod

open Text

/-- A pattern by its text. -/
def Pattern.describe (p : Pattern) : String := "Regex(" ++ quoted p.source ++ ")"

/-- Fields in braces. -/
def describeFields (name : String) (fields : List (String × String)) : String :=
  name ++ " \x7b " ++ ", ".intercalate (fields.map fun f => f.1 ++ ": " ++ f.2) ++ " \x7d"

namespace Matcher

def describe : Matcher → String
  | literal needle => "Literal(LiteralMatcher \x7b needle: " ++ quoted needle ++ ", .. \x7d)"
  | regex p => "Regex(" ++ p.describe ++ ")"
  | block start opening closing =>
    "Block(" ++ describeFields "BlockMatcher" [("start", start.describe),
      ("open", quotedChar opening), ("close", quotedChar closing)] ++ ")"
  | marked start stop =>
    "Marked(" ++ describeFields "MarkedMatcher" [("start", start.describe), ("end", stop.describe)]
      ++ ")"

end Matcher

namespace Replacement

def describe : Replacement → String
  | literal text => "Literal(" ++ quoted text ++ ")"
  | template text => "Template(" ++ quoted text ++ ")"
  | strip needles => "Strip([" ++ ", ".intercalate (needles.map quoted) ++ "])"
  | computed _ => "Transform(..)"

end Replacement

end Codemod
