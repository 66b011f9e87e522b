/-
Matchers find the pieces of a text that a rule replaces. The hits of a matcher come in the order of
the text and do not overlap. A block ends at the delimiter that balances its first one, and a marked
piece at the nearest end mark.
-/
import Codemod.Pattern.Basic
import Codemod.Rule.Refusal

namespace Codemod

open Text Pattern

/-- What the pattern that located a hit has captured. -/
structure Captures where
  found : Match
  names : List (String × Nat)

namespace Captures

def group? (c : Captures) (i : Nat) : Option String := c.found.group? i

def named? (c : Captures) (name : String) : Option String :=
  (c.names.find? fun n => n.1 == name).bind fun n => c.group? n.2

end Captures

/-- A piece of a text that a matcher found. -/
structure Hit where
  start : Cursor
  stop : Cursor
  captures : Option Captures

namespace Hit

def chars (h : Hit) : List Char := h.start.upTo h.stop

def text (h : Hit) : String := String.ofList h.chars

def group? (h : Hit) (i : Nat) : Option String := h.captures.bind (·.group? i)

def named? (h : Hit) (name : String) : Option String := h.captures.bind (·.named? name)

/-- The match of a pattern as a hit. -/
def ofMatch (p : Pattern) (m : Match) : Hit := ⟨m.start, m.stop, some ⟨m, p.names⟩⟩

/-- A hit that a pattern located and that reaches beyond its match. -/
def extending (p : Pattern) (m : Match) (stop : Cursor) : Hit := ⟨m.start, stop, some ⟨m, p.names⟩⟩

end Hit

/-- The switches that a rule may set for its patterns. -/
structure MatchFlags where
  caseInsensitive : Bool := false
  multiLine : Bool := false
  dotMatchesNewLine : Bool := false
  deriving DecidableEq, Repr

namespace MatchFlags

def toFlags (f : MatchFlags) : Flags :=
  { ignoreCase := f.caseInsensitive, multiLine := f.multiLine, dotAll := f.dotMatchesNewLine }

/-- Compiles a pattern. One that matches the empty text is refused, since it would match at every
place of every text; one that is empty only at some places is found out when it matches there. -/
def compile (f : MatchFlags) (source : String) : Except Refusal Pattern :=
  match Pattern.compile f.toFlags source with
  | .error e => .error (.badPattern e)
  | .ok p => if p.isMatch [] then .error (.matchesEmpty source) else .ok p

end MatchFlags

inductive Matcher where
  | literal (needle : String)
  | regex (pattern : Pattern)
  /-- What `start` matches, then blanks, then a balanced pair of delimiters. -/
  | block (start : Pattern) (opening closing : Char)
  /-- From what `start` matches to what `stop` matches next. -/
  | marked (start stop : Pattern)

namespace Matcher

def literal? (needle : String) : Except Refusal Matcher :=
  if needle.isEmpty then .error .emptyNeedle else .ok (.literal needle)

def regex? (source : String) (flags : MatchFlags) : Except Refusal Matcher :=
  (flags.compile source).map .regex

def block? (start : String) (flags : MatchFlags) (opening closing : Char) :
    Except Refusal Matcher :=
  if opening == closing then .error (.sameDelimiters opening)
  else (flags.compile start).map fun p => .block p opening closing

def marked? (start stop : String) (flags : MatchFlags) : Except Refusal Matcher := do
  return .marked (← flags.compile start) (← flags.compile stop)

/-- The name of the kind, for listings. -/
def kind : Matcher → String
  | literal _ => "literal"
  | regex _ => "regex"
  | block .. => "block"
  | marked .. => "marked"

/-- Whether the hits carry groups that a template can refer to. -/
def hasCaptures : Matcher → Bool
  | literal _ => false
  | _ => true

/-- The occurrences of a text, each search starting behind the occurrence before. -/
def occurrences (needle : List Char) (c : Cursor) : List Hit :=
  if needle.isPrefixOf c.ahead then
    let stop := c.advance needle.length
    if stop.left < c.left then ⟨c, stop, none⟩ :: occurrences needle stop else []
  else match _h : c.next? with
    | some (_, d) => occurrences needle d
    | none => []
termination_by c.left
decreasing_by
  · assumption
  · exact Cursor.left_lt_of_next? _h

/-- The place behind the delimiter that closes as many as are open. -/
def balancedEnd (opening closing : Char) (depth : Nat) (c : Cursor) : Option Cursor :=
  match _h : c.next? with
  | none => none
  | some (a, d) =>
    if a == opening then balancedEnd opening closing (depth + 1) d
    else if a == closing then
      if depth ≤ 1 then (if depth == 1 then some d else none)
      else balancedEnd opening closing (depth - 1) d
    else balancedEnd opening closing depth d
termination_by c.left
decreasing_by all_goals exact Cursor.left_lt_of_next? _h

/-- The number of the line on which a place lies, the first being one. -/
def lineOf (whole c : Cursor) : Nat := (whole.upTo c).count '\n' + 1

/-- The blocks from a place on. A start without a delimiter behind it is passed over. -/
def blocks (start : Pattern) (scan : Scan) (opening closing : Char) (whole c : Cursor) :
    Except Refusal (List Hit) :=
  match scan.find? c with
  | none => .ok []
  | some m =>
    let body := m.stop.skipWhile isBlank
    if body.ahead.head? == some opening then
      match balancedEnd opening closing 0 body with
      | none => .error (.unterminatedBlock opening (lineOf whole body) closing)
      | some stop =>
        if stop.left < c.left then
          (blocks start scan opening closing whole stop).map (Hit.extending start m stop :: ·)
        else .ok []
    else
      let behind := if m.isEmpty then m.stop.next?.map (·.2) else some m.stop
      match behind with
      | none => .ok []
      | some d => if d.left < c.left then blocks start scan opening closing whole d else .ok []
termination_by c.left

/-- The next marked piece: from what `start` matches next to what `stop` matches next behind it. -/
def nextMarked? (start : Pattern) (starts stops : Scan) (c : Cursor) : Option Hit :=
  (starts.find? c).bind fun m =>
    (stops.find? m.stop).map fun tail => Hit.extending start m tail.stop

/-- The marked pieces from a place on. Without an end mark behind a start, there is none behind a
later start either. A search that stands still on an empty piece has no end. -/
def markedPieces (start : Pattern) (starts stops : Scan) (c : Cursor) :
    Except Refusal (List Hit) :=
  match nextMarked? start starts stops c with
  | none => .ok []
  | some h =>
    if h.stop.left < c.left then (markedPieces start starts stops h.stop).map (h :: ·)
    else .error .endless
termination_by c.left

/-- The matches of a pattern as hits, unless one of them is empty: it would come again in every
pass. -/
def regexHits (p : Pattern) (text : List Char) : Except Refusal (List Hit) :=
  let found := (p.scan text).findAll (.start text)
  match found.find? (·.isEmpty) with
  | some m => .error (.emptyMatch p.source m.start.offset)
  | none => .ok (found.map (Hit.ofMatch p))

/-- All hits in a text. A refusal means that the matcher could not delimit a hit it had begun, or that
its search has no end. -/
def findAll (m : Matcher) (text : List Char) : Except Refusal (List Hit) :=
  let c := Cursor.start text
  match m with
  | literal needle => .ok (occurrences needle.toList c)
  | regex p => regexHits p text
  | block start opening closing => blocks start (start.scan text) opening closing c c
  | marked start stop => markedPieces start (start.scan text) (stop.scan text) c

end Matcher

end Codemod
