import ZoneTables.Text.Decimal

/-!
# Amounts of time as text

Times of day, offsets and amounts of daylight saving are whole seconds,
written as hours, minutes and seconds with colons between them.  A written
amount that is read has at most three digits of hours.
-/

namespace ZoneTables.Clock

/-- The written form: hours and two digits of minutes, and two digits of
seconds unless they are zero. -/
def text (seconds : Int) : String :=
  let n := seconds.natAbs
  let sign := if seconds < 0 then "-" else ""
  let hours := toString (n / 3600)
  let minutes := Text.twoDigits (n / 60 % 60)
  if n % 60 = 0 then sign ++ hours ++ ":" ++ minutes
  else sign ++ hours ++ ":" ++ minutes ++ ":" ++ Text.twoDigits (n % 60)

def readSixtieth? : List Char → Option (Nat × List Char)
  | ':' :: tens :: units :: rest =>
    if tens.isDigit && units.isDigit && decide (Text.digitValue tens < 6) then
      some (10 * Text.digitValue tens + Text.digitValue units, rest)
    else none
  | _ => none

def readHours? (cs : List Char) : Option Nat :=
  let digits := cs.takeWhile Char.isDigit
  if digits.isEmpty || decide (3 < digits.length) then none
  else
    let hours := Text.digitsValue digits
    match cs.dropWhile Char.isDigit with
    | [] => some (hours * 3600)
    | rest =>
      match readSixtieth? rest with
      | none => none
      | some (minutes, []) => some (hours * 3600 + minutes * 60)
      | some (minutes, rest) =>
        match readSixtieth? rest with
        | some (seconds, []) =>
          some (hours * 3600 + minutes * 60 + seconds)
        | _ => none

/-- Reads an amount with an optional sign; a sign alone is zero. -/
def read? : List Char → Option Int
  | ['-'] => some 0
  | '-' :: cs => (readHours? cs).map fun n : Nat => -(n : Int)
  | cs => (readHours? cs).map fun n : Nat => (n : Int)

end ZoneTables.Clock
