/-
Texts and characters in quotes, as messages show them: what cannot be printed, and marks that would
join the character before them, are written as code points in base sixteen.
-/
import Codemod.Unicode.Latest

namespace Codemod.Text

open Unicode

def isShown (c : Char) : Bool :=
  if c.toNat < 0x7F then c.toNat ≥ 0x20 else printable.contains c && !extenders.contains c

def hexText (n : Nat) : List Char := Nat.toDigits 16 n

/-- One character inside the given quotes. -/
def quoteChar (mark : Char) (c : Char) : List Char :=
  if c == mark || c == '\\' then ['\\', c]
  else if c == '\x00' then ['\\', '0']
  else if c == '\t' then ['\\', 't']
  else if c == '\r' then ['\\', 'r']
  else if c == '\n' then ['\\', 'n']
  else if isShown c then [c]
  else ['\\', 'u', '{'] ++ hexText c.toNat ++ ['}']

def quoted (s : String) : String :=
  String.ofList ('"' :: s.toList.flatMap (quoteChar '"') ++ ['"'])

def quotedChar (c : Char) : String :=
  String.ofList ('\'' :: quoteChar '\'' c ++ ['\''])

end Codemod.Text
