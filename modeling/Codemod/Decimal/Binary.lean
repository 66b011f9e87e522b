/-
Numbers rounded to 53 binary digits, and to decimal places after that. Both round to the nearest, and
of two nearest to the even one.
-/
namespace Codemod.Decimal

/-- The nearest whole number to a quotient. -/
def nearest (num den : Nat) : Nat :=
  let q := num / den
  let twice := 2 * (num % den)
  if twice > den || (twice == den && q % 2 == 1) then q + 1 else q

/-- The exponent of the greatest power of two that is not above a positive quotient. -/
def magnitude (num den : Nat) : Int :=
  let e : Int := (num.log2 : Int) - den.log2
  let below := if e ≥ 0 then num < den * Nat.pow 2 e.toNat else num * Nat.pow 2 (-e).toNat < den
  if below then e - 1 else e

/-- The nearest quotient with 53 binary digits, as a numerator and a denominator. -/
def nearestBinary (num den : Nat) : Nat × Nat :=
  if num == 0 then (0, 1)
  else
    let q := magnitude num den - 52
    if q ≥ 0 then (nearest num (den * Nat.pow 2 q.toNat) * Nat.pow 2 q.toNat, 1)
    else (nearest (num * Nat.pow 2 (-q).toNat) den, Nat.pow 2 (-q).toNat)

/-- Milliseconds as seconds, whole ones and the rest each rounded before they are added. -/
def seconds (ms : Nat) : Nat × Nat :=
  let (whole, unit) := nearestBinary (ms / 1000) 1
  let (num, den) := nearestBinary (ms % 1000) 1000
  nearestBinary (whole * den + num * unit) (unit * den)

/-- Seconds with two places. -/
def secondsText (ms : Nat) : String :=
  let (num, den) := seconds ms
  let n := nearest (100 * num) den
  let places := n % 100
  toString (n / 100) ++ "." ++ (if places < 10 then "0" else "") ++ toString places

end Codemod.Decimal
