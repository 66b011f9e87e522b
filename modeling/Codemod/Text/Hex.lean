/-
Numbers and bytes in base sixteen.
-/
namespace Codemod.Text.Hex

def digit (n : Nat) : Char :=
  ['0', '1', '2', '3', '4', '5', '6', '7', '8', '9', 'a', 'b', 'c', 'd', 'e', 'f'].getD n '0'

/-- The value of a digit, small or capital. -/
def value? (c : Char) : Option Nat :=
  if '0' ≤ c ∧ c ≤ '9' then some (c.toNat - 48)
  else if 'a' ≤ c ∧ c ≤ 'f' then some (c.toNat - 87)
  else if 'A' ≤ c ∧ c ≤ 'F' then some (c.toNat - 55)
  else none

def isDigit (c : Char) : Bool := (value? c).isSome

/-- The number that the digits write; other characters count as zero. -/
def number (cs : List Char) : Nat := cs.foldl (fun n c => 16 * n + (value? c).getD 0) 0

def ofByte (b : UInt8) : List Char := [digit (b.toNat / 16), digit (b.toNat % 16)]

def ofBytes (bytes : List UInt8) : String := String.ofList (bytes.flatMap ofByte)

/-- The lowest `count` digits of a number. -/
def padded : Nat → Nat → List Char
  | 0, _ => []
  | count + 1, n => padded count (n / 16) ++ [digit (n % 16)]

/-- The bytes that pairs of digits write. -/
def toBytes? : List Char → Option (List UInt8)
  | [] => some []
  | a :: b :: rest => do
    return UInt8.ofNat (16 * (← value? a) + (← value? b)) :: (← toBytes? rest)
  | [_] => none

end Codemod.Text.Hex
