/-
Numbers in TOML. Single underscores may stand between digits, a leading zero may not be there, and
an integer has 64 bits.
-/
import Codemod.Data.Value
import Codemod.Text.Hex

namespace Codemod.Data.Toml

open Text

/-- Reads the digits behind the first one of a run. -/
def readMoreDigits (ok : Char → Bool) : List Char → Option (List Char × List Char)
  | '_' :: c :: rest =>
    if ok c then (readMoreDigits ok rest).map fun (ds, rest) => (c :: ds, rest) else none
  | c :: rest =>
    if c == '_' then none
    else if ok c then (readMoreDigits ok rest).map fun (ds, rest) => (c :: ds, rest)
    else some ([], c :: rest)
  | [] => some ([], [])

/-- Reads a run of digits, which has one at least. -/
def readDigits (ok : Char → Bool) : List Char → Option (List Char × List Char)
  | c :: rest =>
    if ok c then (readMoreDigits ok rest).map fun (ds, rest) => (c :: ds, rest) else none
  | [] => none

def readSign : List Char → Option Char × List Char
  | '+' :: rest => (some '+', rest)
  | '-' :: rest => (some '-', rest)
  | cs => (none, cs)

/-- Reads decimal digits without a leading zero. -/
def readWhole : List Char → Option (List Char × List Char)
  | '0' :: rest => some (['0'], rest)
  | cs => readDigits Char.isDigit cs

/-- The number that digits of a base up to sixteen write. -/
def digitsValue (base : Nat) (cs : List Char) : Nat :=
  cs.foldl (fun n c => base * n + (Hex.value? c).getD 0) 0

def isOctal (c : Char) : Bool := '0' ≤ c && c ≤ '7'

def isBinary (c : Char) : Bool := c == '0' || c == '1'

def readBased (base : Nat) (ok : Char → Bool) (cs : List Char) : Option (Value × List Char) := do
  let (ds, rest) ← readDigits ok cs
  let n := digitsValue base ds
  if n < 0x8000000000000000 then return (.int n, rest) else none

/-- Whether a decimal is too large for a number of 64 bits, so that it would be read as infinite:
that starts halfway between the largest number and the next power of two. -/
def overflows (digits : List Char) (exponent : Int) : Bool :=
  let n := digitsValue 10 digits
  let size := (digits.dropWhile (· == '0')).length + exponent
  if n == 0 || size < 300 then false
  else if size > 320 then true
  else
    let bound := (Nat.pow 2 54 - 1) * Nat.pow 2 970
    if exponent ≥ 0 then decide (n * Nat.pow 10 exponent.toNat ≥ bound)
    else decide (n ≥ bound * Nat.pow 10 (-exponent).toNat)

/-- Reads a fraction or an exponent behind its mark. -/
def readFraction : List Char → Option (Option (List Char) × List Char)
  | '.' :: rest => (readDigits Char.isDigit rest).map fun (ds, rest) => (some ds, rest)
  | cs => some (none, cs)

def readExponent (cs : List Char) : Option (Option Int × List Char) :=
  match cs with
  | c :: rest =>
    if c == 'e' || c == 'E' then do
      let (sign, rest) := readSign rest
      let (ds, rest) ← readDigits Char.isDigit rest
      let n : Int := digitsValue 10 ds
      return (some (if sign == some '-' then -n else n), rest)
    else some (none, cs)
  | [] => some (none, [])

/-- Reads a decimal number; with a fraction or an exponent it is not an integer. -/
def readDecimal (cs : List Char) : Option (Value × List Char) := do
  let (sign, body) := readSign cs
  let (whole, rest) ← readWhole body
  let (fraction, rest) ← readFraction rest
  let (exponent, rest) ← readExponent rest
  if fraction.isNone && exponent.isNone then
    let n : Int := digitsValue 10 whole
    let n := if sign == some '-' then -n else n
    if -0x8000000000000000 ≤ n ∧ n < 0x8000000000000000 then return (.int n, rest) else none
  else
    let places := fraction.getD []
    if sign != some '-' && overflows (whole ++ places) (exponent.getD 0 - places.length) then none
    else return (.float (String.ofList (cs.take (cs.length - rest.length))), rest)

def readNumber (cs : List Char) : Option (Value × List Char) :=
  match cs with
  | '0' :: 'x' :: rest => readBased 16 Hex.isDigit rest
  | '0' :: 'o' :: rest => readBased 8 isOctal rest
  | '0' :: 'b' :: rest => readBased 2 isBinary rest
  | cs =>
    let (_, body) := readSign cs
    match body with
    | 'i' :: 'n' :: 'f' :: rest => some (.float "inf", rest)
    | 'n' :: 'a' :: 'n' :: rest => some (.float "nan", rest)
    | _ => readDecimal cs

end Codemod.Data.Toml
