/-
Relocations: a module that is imported by a relative path has moved. The spacing and the quotes of
each occurrence are kept. A relocation moves one module, or everything below a directory.
-/
import Codemod.Rule.Replacement

namespace Codemod

structure Relocation where
  source : String
  target : String
  /-- How many directories up an import may start; none given means any relative path. -/
  depths : List Nat := []
  /-- How many directories up the new path starts, if not as many as before. -/
  targetDepth : Option Nat := none
  /-- Whether the source is a directory. -/
  isDirectory : Bool := false
  deriving DecidableEq, Repr

namespace Relocation

def withoutSlashes (s : String) : List Char :=
  (s.toList.reverse.dropWhile (· == '/')).reverse

def depthPattern (depth : Nat) : String :=
  if depth == 0 then "\\./" else "(?:\\.\\./)\x7b" ++ toString depth ++ "\x7d"

def dotsPattern (r : Relocation) : String :=
  if r.depths.isEmpty then "(?:\\./|(?:\\.\\./)+)"
  else "(?:" ++ "|".intercalate (r.depths.map depthPattern) ++ ")"

def pattern (r : Relocation) : String :=
  "(?P<kw>\\bfrom\\s*)(?P<q>[\"'])(?P<dots>" ++ r.dotsPattern ++ ")"
    ++ Pattern.escape (String.ofList (withoutSlashes r.source))
    ++ if r.isDirectory then "(?P<end>/)" else "(?P<end>[\"'])"

/-- The template of the new import. Dollar signs of the target stand for themselves. -/
def template (r : Relocation) : String :=
  let dots := match r.targetDepth with
    | some 0 => "./"
    | some depth => String.ofList (List.replicate depth ['.', '.', '/']).flatten
    | none => "$\x7bdots\x7d"
  let target := (withoutSlashes r.target).flatMap fun c => if c == '$' then ['$', '$'] else [c]
  "$\x7bkw\x7d$\x7bq\x7d" ++ dots ++ String.ofList target ++ "$\x7bend\x7d"

def build (r : Relocation) : Except Refusal (Matcher × Replacement) := do
  if (withoutSlashes r.source).isEmpty then throw .noSource
  if (withoutSlashes r.target).isEmpty then throw .noTarget
  return (← Matcher.regex? r.pattern {}, .template r.template)

end Relocation

end Codemod
