/-
Characters that the latest edition of the standard adds to the one that the tables of categories and
properties hold. Texts in quotes and the names of groups follow the latest edition.
-/
import Codemod.Unicode.Property

namespace Codemod.Unicode

/-- New letters, and marks that count as part of them. -/
def newAlphabetic : CharSet := .ofTable
  "88F C5C CDC A7CE-A7CF A7D2 A7D4 A7F1 10940-10959 10EC5-10EC7 10EFA-10EFB 11B60-11B67
  11DB0-11DDB 16EA0-16EB8 16EBB-16ED3 16FF2-16FF6 187F8-187FF 18D09-18D1E 18D80-18DF2
  1E6C0-1E6DE 1E6E0-1E6F5 1E6FE-1E6FF 2B73A-2B73F 2CEA2-2CEAD 323B0-33479"

/-- New digits and numbers. -/
def newNumeric : CharSet := .ofTable "11DE0-11DE9 16FF4-16FF6"

/-- New marks that join the character before them. -/
def newExtenders : CharSet := .ofTable
  "1ACF-1ADD 1AE0-1AEB 10EFA-10EFB 11B60 11B62-11B64 11B66 1E6E3 1E6E6 1E6EE-1E6EF 1E6F5"

/-- New characters that are none of these. -/
def newSymbols : CharSet := .ofTable
  "20C1 2B96 FBC3-FBD2 FD90-FD91 FDC8-FDCE 10ED0-10ED8 1CCFA-1CCFC 1CEBA-1CED0 1CEE0-1CEF0 1F6D8
  1F777-1F77A 1F8D0-1F8D8 1FA54-1FA57 1FA8A 1FA8E 1FAC8 1FACD 1FAEA 1FAEF 1FBFA"

def newPrintable : CharSet := .unions [newAlphabetic, newNumeric, newExtenders, newSymbols]

def alphabetic : CharSet := .union ((property? "alphabetic").getD .empty) newAlphabetic

def alphanumeric : CharSet :=
  .unions [alphabetic, joinCategories ["nd", "nl", "no"], newNumeric]

/-- Everything but controls, formats, unassigned characters and separators. Characters that are shown
as nothing at all do not count either. -/
def printable : CharSet :=
  (CharSet.unions [newPrintable, joinCategories ["lu", "ll", "lt", "lm", "lo", "mn", "mc", "me",
    "nd", "nl", "no", "pc", "pd", "ps", "pe", "pi", "pf", "po", "sm", "sc", "sk", "so"]]).diff
      ((property? "defaultignorablecodepoint").getD .empty)

/-- The two halfwidth sound marks join the character before them for historical reasons only. -/
def soundMarks : CharSet := .range 0xFF9E 0xFF9F

/-- Marks that join the character before them. -/
def extenders : CharSet :=
  (CharSet.union ((property? "graphemeextend").getD .empty) newExtenders).diff soundMarks

end Codemod.Unicode
