/-
Closed sets: taking values out of lists such as `z.enum(['a', 'b'])`. Only a list that mentions a
removed value is touched, and it must hold quoted literals alone; what stays keeps its text and its
separators. With a default, a fallback `|| 'value'` to a removed value falls back to the default
instead.
-/
import Codemod.Rule.Replacement

namespace Codemod

open Text Unicode

structure ClosedSet where
  /-- What is written before the list. -/
  call : String
  remove : List String
  /-- What a fallback to a removed value becomes. -/
  default : Option String := none
  /-- What the whole call becomes when no value is left. -/
  emptyReplacement : Option String := none
  /-- A pattern for what has to stand before the `||` of a fallback. -/
  fallbackContext : Option String := none
  deriving DecidableEq, Repr

namespace ClosedSet

def removedPattern (s : ClosedSet) : String :=
  "|".intercalate (s.remove.map Pattern.escape)

/-- The pattern for a list that mentions a removed value. A call that starts with a letter has to
start a word. -/
def listPattern (s : ClosedSet) : String :=
  let anchor := match s.call.toList with
    | c :: _ => if alphanumeric.contains c || c == '_' then "\\b" else ""
    | [] => ""
  anchor ++ "(?P<call>" ++ Pattern.escape s.call ++ ")\\(\\s*\\[(?P<items>[^\\[\\]]*['\"](?:"
    ++ s.removedPattern ++ ")['\"][^\\[\\]]*)\\](?P<rest>[^()]*)\\)"

/-- The pattern for a list, or for a fallback where there is a default. -/
def pattern (s : ClosedSet) : String :=
  match s.default with
  | none => s.listPattern
  | some _ =>
    let context := match s.fallbackContext with
      | some c => "(?:" ++ c ++ ")\\s*"
      | none => ""
    s.listPattern ++ "|(?P<or>" ++ context ++ "\\|\\|\\s*)(?P<dq>['\"])(?:"
      ++ s.removedPattern ++ ")['\"]"

/-- The pieces between commas. -/
def splitItems : List Char → List (List Char)
  | [] => [[]]
  | c :: rest =>
    if c == ',' then [] :: splitItems rest
    else match splitItems rest with
      | piece :: pieces => (c :: piece) :: pieces
      | [] => [[c]]

/-- What stands between the quotes of a literal. -/
def quotedValue? (element : List Char) : Option (List Char) :=
  match element with
  | q :: rest =>
    if q != '\'' && q != '"' then none
    else if rest.getLast? == some q && !rest.dropLast.contains q then some rest.dropLast
    else none
  | [] => none

/-- The pieces of a list that stay: those whose value is not removed. Empty pieces go. -/
def kept (s : ClosedSet) : List (List Char) → Except Refusal (List (List Char))
  | [] => .ok []
  | piece :: pieces =>
    let element := trim piece
    if element.isEmpty then s.kept pieces
    else match quotedValue? element with
      | none => .error (.notLiteral (String.ofList element) s.call)
      | some value =>
        if s.remove.contains (String.ofList value) then s.kept pieces
        else (s.kept pieces).map (piece :: ·)

/-- What follows a trailing comma, if the list ends in one. -/
def trailing? (pieces : List (List Char)) : Option (List Char) :=
  if pieces.length > 1 then pieces.getLast?.filter (·.all isBlank) else none

/-- Puts the pieces that stay together again. The first takes over the blanks that the list began
with. -/
def joinItems (lead : List Char) (kept : List (List Char)) (trailing : Option (List Char)) :
    List Char :=
  let body := match kept with
    | [] => []
    | first :: others => lead ++ trimStart first ++ others.flatMap (',' :: ·)
  match trailing with
  | some t => body ++ ',' :: t
  | none => body

def rewriteList (s : ClosedSet) (h : Hit) (items : String) : Except Refusal String := do
  let pieces := splitItems items.toList
  let trailing := trailing? pieces
  let pieces := if trailing.isSome then pieces.dropLast else pieces
  let lead := (pieces.head?.getD []).takeWhile isBlank
  let kept ← s.kept pieces
  if kept.isEmpty then
    match s.emptyReplacement with
    | some text => return text
    | none => .error (.listEmptied h.text)
  else
    return (h.named? "call").getD s.call ++ "([" ++ String.ofList (joinItems lead kept trailing)
      ++ "]" ++ (h.named? "rest").getD "" ++ ")"

/-- A list loses the removed values, and a fallback turns to the default. -/
def rewrite (s : ClosedSet) (h : Hit) : Except Refusal String :=
  match h.named? "items" with
  | some items => s.rewriteList h items
  | none =>
    match s.default, h.named? "or", h.named? "dq" with
    | some value, some or, some quote => .ok (or ++ quote ++ value ++ quote)
    | _, _, _ => .ok h.text

def build (s : ClosedSet) : Except Refusal (Matcher × Replacement) := do
  if isBlankText s.call then throw .noCall
  if s.remove.isEmpty || s.remove.any (·.isEmpty) then throw .noValues
  if s.fallbackContext.isSome && s.default.isNone then throw .contextWithoutDefault
  return (← Matcher.regex? s.pattern {}, .computed s.rewrite)

end ClosedSet

end Codemod
