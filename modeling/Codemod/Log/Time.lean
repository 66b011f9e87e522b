/-
Times as the log writes them: a date and a time of day in UTC, to the millisecond.
-/
namespace Codemod.Time

/-- Year, month and day of a day counted from the first of January 1970. Years are counted from
March, so that the leap day is the last one of its year, in cycles of four hundred years. -/
def date (days : Nat) : Nat × Nat × Nat :=
  let days := days + 719468
  let cycle := days / 146097
  let day := days % 146097
  let year := (day - day / 1460 + day / 36524 - day / 146096) / 365
  let day := day - (365 * year + year / 4 - year / 100)
  let month := (5 * day + 2) / 153
  let day := day - (153 * month + 2) / 5 + 1
  let month := if month < 10 then month + 3 else month - 9
  (400 * cycle + year + (if month ≤ 2 then 1 else 0), month, day)

/-- A number with at least so many digits. -/
def padded (width n : Nat) : String :=
  let digits := toString n
  String.ofList (List.replicate (width - digits.length) '0') ++ digits

/-- The text of a time that is given in milliseconds since the start of 1970. -/
def text (ms : Nat) : String :=
  let (year, month, day) := date (ms / 86400000)
  let clock := ms % 86400000
  padded 4 year ++ "-" ++ padded 2 month ++ "-" ++ padded 2 day ++ "T"
    ++ padded 2 (clock / 3600000) ++ ":" ++ padded 2 (clock / 60000 % 60) ++ ":"
    ++ padded 2 (clock / 1000 % 60) ++ "." ++ padded 3 (clock % 1000) ++ "Z"

end Codemod.Time
