/-
A tree of directories and files. A directory lists what it holds by name; of two entries with one
name only the first is ever seen.
-/
namespace Codemod.Disk

inductive Node where
  | file (content : ByteArray) (mode : Nat)
  | link (target : String)
  /-- A device that takes no data. -/
  | full
  | dir (mode : Nat) (entries : List (String × Node))

/-- The names that lead to a place from the root of a tree. -/
abbrev Location := List String

abbrev Entries := List (String × Node)

namespace Entries

def get? (name : String) (es : Entries) : Option Node := (es.find? fun e => e.1 == name).map (·.2)

/-- Replaces what has a name, or adds it behind the others. -/
def put (name : String) (n : Node) : Entries → Entries
  | [] => [(name, n)]
  | (k, m) :: es => if k == name then (name, n) :: es else (k, m) :: put name n es

def erase (name : String) (es : Entries) : Entries := es.filter fun e => e.1 != name

/-- The names that are seen, each once. -/
def names : Entries → List String
  | [] => []
  | (k, _) :: es => k :: (names es).filter (· != k)

theorem get?_put_self (name : String) (n : Node) (es : Entries) :
    get? name (put name n es) = some n := by
  induction es with
  | nil => simp [put, get?]
  | cons e es ih =>
    obtain ⟨k, m⟩ := e
    by_cases h : k = name
    · simp [put, get?, h]
    · simpa [put, get?, h] using ih

theorem get?_put_other {name other : String} (hne : other ≠ name) (n : Node) (es : Entries) :
    get? other (put name n es) = get? other es := by
  induction es with
  | nil => simp [put, get?, hne.symm]
  | cons e es ih =>
    obtain ⟨k, m⟩ := e
    by_cases h : k = name
    · subst h
      simp [put, get?, hne.symm]
    · by_cases ho : k = other
      · subst ho
        simp [put, get?, h]
      · simpa [put, get?, h, ho] using ih

theorem get?_erase_self (name : String) (es : Entries) : get? name (erase name es) = none := by
  simp [get?, erase, List.find?_eq_none]

theorem get?_erase_other {name other : String} (hne : other ≠ name) (es : Entries) :
    get? other (erase name es) = get? other es := by
  induction es with
  | nil => rfl
  | cons e es ih =>
    obtain ⟨k, m⟩ := e
    by_cases h : k = name
    · subst h
      simpa [erase, get?, hne.symm] using ih
    · by_cases ho : k = other
      · subst ho
        simp [erase, get?, h]
      · simpa [erase, get?, h, ho] using ih

end Entries

namespace Node

def isFile : Node → Bool
  | file .. => true
  | _ => false

def isDir : Node → Bool
  | dir .. => true
  | _ => false

def isLink : Node → Bool
  | link _ => true
  | _ => false

/-- The permissions; a link has none of its own. -/
def mode : Node → Nat
  | file _ mode => mode
  | dir mode _ => mode
  | link _ => 0o777
  | full => 0o666

/-- Nobody may write: no write bit is set. -/
def isReadOnly (n : Node) : Bool := n.mode &&& 0o222 == 0

def withMode (mode : Nat) : Node → Node
  | file content _ => file content mode
  | dir _ es => dir mode es
  | n => n

/-- What is at a location, links not followed. -/
def get? : Node → Location → Option Node
  | n, [] => some n
  | dir _ es, name :: rest => (Entries.get? name es).bind fun n => n.get? rest
  | _, _ :: _ => none

/-- Changes what is at a location, its absence included; the directory above has to be there. -/
def alter (f : Option Node → Option Node) : Location → Node → Node
  | [], n => (f (some n)).getD n
  | [name], dir mode es =>
    match f (Entries.get? name es) with
    | some n => dir mode (Entries.put name n es)
    | none => dir mode (Entries.erase name es)
  | name :: next :: rest, dir mode es =>
    match Entries.get? name es with
    | some n => dir mode (Entries.put name (n.alter f (next :: rest)) es)
    | none => dir mode es
  | _ :: _, n => n

def put (root : Node) (loc : Location) (n : Node) : Node := root.alter (fun _ => some n) loc

def erase (root : Node) (loc : Location) : Node := root.alter (fun _ => none) loc

mutual

/-- How many directories can lie below one another. -/
def height : Node → Nat
  | dir _ es => heightOf es + 1
  | _ => 0

def heightOf : List (String × Node) → Nat
  | [] => 0
  | (_, n) :: es => max (height n) (heightOf es)

end

end Node

end Codemod.Disk
