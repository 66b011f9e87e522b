/-
Replacements: what a rule puts in the place of a hit.
-/
import Codemod.Rule.Template

namespace Codemod

open Text

inductive Replacement where
  | literal (text : String)
  /-- A text that refers to the groups of the hit. -/
  | template (text : String)
  /-- The hit itself without any of these texts. -/
  | strip (needles : List String)
  | computed (f : Hit → Except Refusal String)

namespace Replacement

def needsCaptures : Replacement → Bool
  | template _ => true
  | _ => false

/-- Takes every occurrence of a text away; `skip` characters belong to one already found. -/
def without (needle : List Char) : Nat → List Char → List Char
  | _, [] => []
  | skip + 1, _ :: rest => without needle skip rest
  | 0, c :: rest =>
    if needle.isPrefixOf (c :: rest) then without needle (needle.length - 1) rest
    else c :: without needle 0 rest

def render (r : Replacement) (h : Hit) : Except Refusal String :=
  match r with
  | literal text => .ok text
  | template text => match h.captures with
    | some c => .ok (Template.expand text c)
    | none => .error .noCaptures
  | strip needles =>
    .ok (String.ofList ((needles.filter (!·.isEmpty)).foldl
      (fun cs needle => without needle.toList 0 cs) h.chars))
  | computed f => f h

end Replacement

/-- A replacement as a rule file writes it. -/
inductive ReplacementSpec where
  | text (s : String)
  | strip (needles : List String)
  deriving DecidableEq, Repr

namespace ReplacementSpec

/-- With `expand` a text is a template. -/
def build (r : ReplacementSpec) (expand : Bool) : Replacement :=
  match r with
  | text s => if expand then .template s else .literal s
  | strip needles => .strip needles

end ReplacementSpec

end Codemod
