/-
The classes of characters that patterns abbreviate: digits, blanks and the characters of words.
-/
import Codemod.Unicode.Property

namespace Codemod.Unicode

def asciiDigits : CharSet := .range 0x30 0x39

def asciiSpaces : CharSet := .ofRanges [(0x09, 0x0D), (0x20, 0x20)]

def asciiWords : CharSet := .ofRanges [(0x30, 0x39), (0x41, 0x5A), (0x5F, 0x5F), (0x61, 0x7A)]

def digits : CharSet := joinCategories ["nd"]

def spaces : CharSet := (property? "whitespace").getD .empty

/-- Letters and what is written like them, marks, digits, connectors and joiners. -/
def words : CharSet :=
  .unions [(property? "alphabetic").getD .empty, joinCategories ["mn", "mc", "me", "nd", "pc"],
    (property? "joincontrol").getD .empty]

end Codemod.Unicode
