import ZoneTables.Calendar.Year

/-!
# Months
-/

namespace ZoneTables

/-- The number of days of a month; 0 for a number that names no month. -/
def daysInMonth (year : Int) (month : Nat) : Nat :=
  match month with
  | 1 | 3 | 5 | 7 | 8 | 10 | 12 => 31
  | 4 | 6 | 9 | 11 => 30
  | 2 => if isLeapYear year then 29 else 28
  | _ => 0

namespace Month

def names : List String :=
  ["january", "february", "march", "april", "may", "june", "july", "august",
    "september", "october", "november", "december"]

/-- Reads the number of a month from the start of its English name in any
case.  At least three letters are needed, which fit one name only. -/
def read? (cs : List Char) : Option Nat :=
  if cs.length < 3 then none
  else
    (names.findIdx? fun name =>
      (cs.map Char.toLower).isPrefixOf name.toList).map (· + 1)

end Month

end ZoneTables
