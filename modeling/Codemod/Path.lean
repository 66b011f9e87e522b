/-
Paths as they are written. A path keeps its text; what it means is read off its components, among
which repeated separators and inner `.` do not count.
-/
namespace Codemod

inductive Component where
  | root
  /-- A `.` at the start of a path. -/
  | here
  | up
  | name (s : String)
  deriving DecidableEq, Repr

structure Path where
  text : String
  deriving DecidableEq, Repr, Inhabited

namespace Path

/-- The pieces between separators. -/
def pieces : List Char → List Char → List (List Char)
  | [], piece => [piece.reverse]
  | c :: rest, piece =>
    if c == '/' then piece.reverse :: pieces rest [] else pieces rest (c :: piece)

def component? (piece : List Char) : Option Component :=
  if piece == [] || piece == ['.'] then none
  else if piece == ['.', '.'] then some .up
  else some (.name (String.ofList piece))

/-- Whether the text starts with a `.` that is a component of its own. -/
def startsHere : List Char → Bool
  | ['.'] => true
  | '.' :: '/' :: _ => true
  | _ => false

def isAbsolute (p : Path) : Bool := p.text.toList.head? == some '/'

def components (p : Path) : List Component :=
  let cs := p.text.toList
  let first := if p.isAbsolute then [.root] else if startsHere cs then [.here] else []
  first ++ (pieces cs []).filterMap component?

/-- Drops separators and `.` from the start of what follows the first component. -/
def trimBody : List Char → List Char
  | '/' :: rest => trimBody rest
  | '.' :: '/' :: rest => trimBody rest
  | ['.'] => []
  | cs => cs

/-- Drops separators and `.` from the end; the text is reversed. -/
def trimBack : List Char → List Char
  | '/' :: rest => trimBack rest
  | '.' :: '/' :: rest => trimBack rest
  | cs => cs

/-- The text without the separators and `.` at its end; a first component stays. -/
def trimmed (cs : List Char) : List Char :=
  match trimBack cs.reverse with
  | [] => if cs.head? == some '/' then ['/'] else []
  | ['.'] => ['.']
  | back => back.reverse

/-- Behind the first component, a lone `.` is none. -/
def trimmedBody (cs : List Char) : List Char :=
  let cs := trimmed (trimBody cs)
  if cs == ['.'] then [] else cs

/-- Drops so many components; the first of them may be the root or a leading `.`. -/
def dropComponents : Nat → Bool → List Char → List Char
  | 0, _, cs => cs
  | n + 1, first, cs =>
    if first && (cs.head? == some '/' || startsHere cs) then dropComponents n false (cs.drop 1)
    else dropComponents n false ((trimBody cs).dropWhile (· != '/'))

/-- What is left of the path below `base`, if it is below. -/
def below? (p base : Path) : Option Path :=
  let heads := base.components
  if heads.isPrefixOf p.components then
    if heads.isEmpty then some ⟨String.ofList (trimmed p.text.toList)⟩
    else some ⟨String.ofList (trimmedBody (dropComponents heads.length true p.text.toList))⟩
  else none

/-- The path relative to `root` where it is below it, for display. -/
def relativeTo (p root : Path) : String := ((p.below? root).getD p).text

/-- The second path as seen from the first: an absolute one stands for itself. -/
def join (p q : Path) : Path :=
  if q.isAbsolute then q
  else if p.text.isEmpty || p.text.toList.getLast? == some '/' then ⟨p.text ++ q.text⟩
  else ⟨p.text ++ "/" ++ q.text⟩

/-- The last component, if it is a name. -/
def fileName? (p : Path) : Option String :=
  match p.components.getLast? with
  | some (.name s) => some s
  | _ => none

/-- The path of the directory that holds the last component. -/
def parent? (p : Path) : Option Path :=
  match p.components.reverse with
  | [] | .root :: _ => none
  | .here :: _ => some ⟨""⟩
  | _ :: _ =>
    let cs := trimmed p.text.toList
    let head := cs.reverse.dropWhile (· != '/')
    let cs := trimmed head.reverse
    some ⟨String.ofList cs⟩

def withFileName (p : Path) (name : String) : Path :=
  match p.fileName? with
  | some _ => ((p.parent?).getD ⟨""⟩).join ⟨name⟩
  | none => p.join ⟨name⟩

/-- Puts one more component behind a path. -/
def push (p : Path) : Component → Path
  | .root => ⟨"/"⟩
  | .here => p.join ⟨"."⟩
  | .up => p.join ⟨".."⟩
  | .name s => p.join ⟨s⟩

/-- A path with the given components. -/
def ofComponents (l : List Component) : Path := l.foldl push ⟨""⟩

/-- Goes on to one more component; above the root there is nothing to go up to. -/
def goOn (done : List Component) : Component → List Component
  | .here => done
  | .up => match done.getLast? with
    | some (.name _) => done.dropLast
    | _ => done
  | c => done ++ [c]

/-- Resolves `.` and `..` on the text alone. -/
def normalize (p : Path) : Path := ofComponents (p.components.foldl goOn [])

/-- Why an entry does not name something inside the root it is meant for. -/
inductive NotBelow where
  | empty
  | goesUp
  | absolute
  | noFile
  deriving DecidableEq, Repr

def NotBelow.message : NotBelow → String
  | empty => "path is empty"
  | goesUp => "path must not contain '..'"
  | absolute => "path must be relative to the run root"
  | noFile => "path names no file"

/-- Checks that a path stays below whatever directory it is joined to. The first component that is
not allowed decides. -/
def checkBelow (p : Path) : Option NotBelow :=
  if p.text.isEmpty then some .empty
  else match p.components.find? fun c => c == .up || c == .root with
    | some .up => some .goesUp
    | some _ => some .absolute
    | none => if p.components.all (· == .here) then some .noFile else none

/-- The first directory on the way to the file whose name is excluded. -/
def excludedAncestor? (p : Path) (excluded : List String) : Option String :=
  p.components.dropLast.findSome? fun c => match c with
    | .name s => if excluded.contains s then some s else none
    | _ => none

end Path

end Codemod
