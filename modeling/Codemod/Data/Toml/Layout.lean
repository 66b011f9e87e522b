/-
What stands between the parts of a TOML text: blanks, line breaks and comments. Every reader here and
in the modules beside it gives what it has read together with the characters that are left, or
nothing where the text is not well formed.
-/
namespace Codemod.Data.Toml

def isGap (c : Char) : Bool := c == ' ' || c == '\t'

def skipGap (cs : List Char) : List Char := cs.dropWhile isGap

/-- Everything but control characters; a tab is allowed. -/
def isPlain (c : Char) : Bool := c == '\t' || (c.toNat ≥ 0x20 && c.toNat != 0x7F)

def lineBreak? : List Char → Option (List Char)
  | '\n' :: rest => some rest
  | '\r' :: '\n' :: rest => some rest
  | _ => none

def skipBreak (cs : List Char) : List Char := (lineBreak? cs).getD cs

/-- Skips blanks and line breaks. -/
def skipLines : List Char → List Char
  | '\n' :: rest => skipLines rest
  | '\r' :: '\n' :: rest => skipLines rest
  | c :: rest => if isGap c then skipLines rest else c :: rest
  | [] => []

/-- What may stand behind a statement: blanks, a comment, and the end of the line or of the text. -/
def lineEnd? (cs : List Char) : Option (List Char) :=
  match skipGap cs with
  | '#' :: rest => match rest.dropWhile isPlain with
    | [] => some []
    | rest => lineBreak? rest
  | [] => some []
  | rest => lineBreak? rest

/-- Skips blanks, line breaks and comments. -/
def skipFiller (inComment : Bool) : List Char → Option (List Char)
  | '\n' :: rest => skipFiller false rest
  | '\r' :: '\n' :: rest => skipFiller false rest
  | c :: rest =>
    if inComment then if isPlain c then skipFiller true rest else none
    else if isGap c then skipFiller false rest
    else if c == '#' then skipFiller true rest
    else some (c :: rest)
  | [] => some []

end Codemod.Data.Toml
