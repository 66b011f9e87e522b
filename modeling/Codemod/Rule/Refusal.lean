/-
Why a rule cannot be built, or cannot be carried out on a text.
-/
import Codemod.Pattern.Parser
import Codemod.Text.Quoted

namespace Codemod

open Text Pattern

inductive Refusal where
  | emptyNeedle
  | badPattern (e : PatternError)
  /-- The pattern would match everywhere. -/
  | matchesEmpty (pattern : String)
  | sameDelimiters (c : Char)
  | badDelimiters (delimiters : String)
  /-- The pattern matched the empty text at a place, given in bytes. -/
  | emptyMatch (pattern : String) (offset : Nat)
  | unterminatedBlock (opening : Char) (line : Nat) (closing : Char)
  /-- The search stands still and goes on for ever. -/
  | endless
  | emptyId
  | templateNeedsCapturing (kind : String)
  | noCaptures
  | noCall
  | noValues
  | contextWithoutDefault
  | notLiteral (element call : String)
  | listEmptied (text : String)
  | noSource
  | noTarget
  /-- A computed replacement gave up. -/
  | declined (reason : String)
  deriving DecidableEq, Repr

namespace Refusal

def message : Refusal → String
  | emptyNeedle => "literal needle must not be empty"
  | badPattern e => e.message
  | matchesEmpty pattern => "pattern " ++ quoted pattern ++ " matches the empty string"
  | sameDelimiters c => "block delimiters must differ, got " ++ quotedChar c ++ " for both"
  | badDelimiters s => "delimiters must be exactly two characters, got " ++ quoted s
  | emptyMatch pattern offset =>
    "pattern " ++ quoted pattern ++ " matched the empty string at byte " ++ toString offset
  | unterminatedBlock opening line closing =>
    "unterminated block: " ++ quotedChar opening ++ " opened on line " ++ toString line
      ++ " has no matching " ++ quotedChar closing
  | endless => "the search stands still on an empty piece"
  | emptyId => "rule id must not be empty"
  | templateNeedsCapturing kind =>
    "template replacement needs a capturing matcher, got " ++ kind
  | noCaptures => "template replacement needs capture groups"
  | noCall => "closed-set rewrite needs a `call`"
  | noValues => "closed-set rewrite needs non-empty values to remove"
  | contextWithoutDefault => "closed-set `fallback_context` needs a `default`"
  | notLiteral element call => "non-literal element " ++ quoted element ++ " in " ++ call ++ " list"
  | listEmptied text =>
    "every value of " ++ quoted text ++ " was removed and no empty_replacement is set"
  | noSource => "import relocation needs a non-empty `from`"
  | noTarget => "import relocation needs a non-empty `to`"
  | declined reason => reason

end Refusal

end Codemod
