/-
Ranges of characters as ranges of bytes. In UTF-8 the characters of a range are not in general a
product of byte ranges, but the range splits into a few pieces that are.
-/
namespace Codemod.Unicode

/-- First and last value of each byte of a piece. -/
abbrev ByteRanges := List (Nat × Nat)

/-- The bytes of a code point. -/
def bytesOf (n : Nat) : List Nat :=
  if n ≤ 0x7F then [n]
  else if n ≤ 0x7FF then [0xC0 + n / 0x40, 0x80 + n % 0x40]
  else if n ≤ 0xFFFF then [0xE0 + n / 0x1000, 0x80 + n / 0x40 % 0x40, 0x80 + n % 0x40]
  else [0xF0 + n / 0x40000, 0x80 + n / 0x1000 % 0x40, 0x80 + n / 0x40 % 0x40, 0x80 + n % 0x40]

/-- Where to split a range so that both parts come closer to a product: the last code point of the
lower part. -/
def splitAt? (a b : Nat) : Option Nat :=
  match [0x7F, 0x7FF, 0xFFFF].find? fun m => a ≤ m && m < b with
  | some m => some m
  | none =>
    if b ≤ 0x7F then none
    else [0x40, 0x1000, 0x40000].findSome? fun m =>
      if a / m == b / m then none
      else if a % m != 0 then some (a / m * m + (m - 1))
      else if b % m != m - 1 then some (b / m * m - 1)
      else none

def byteRangesWithin : Nat → Nat → Nat → List ByteRanges
  | 0, _, _ => []
  | fuel + 1, a, b =>
    if a < 0xE000 && 0xD7FF < b then
      byteRangesWithin fuel a 0xD7FF ++ byteRangesWithin fuel 0xE000 b
    else if b < a then []
    else match splitAt? a b with
      | some m => byteRangesWithin fuel a m ++ byteRangesWithin fuel (m + 1) b
      | none => [(bytesOf a).zip (bytesOf b)]

/-- The pieces of a range, in rising order. Surrogates are no characters and have no bytes. -/
def byteRanges (a b : Nat) : List ByteRanges := byteRangesWithin 32 a b

end Codemod.Unicode
