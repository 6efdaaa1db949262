import ZoneTables.Log
import ZoneTables.Text.Decimal

/-!
# Versions of sources

Releases of the source are tagged with a year and a small letter, from which
tables take a number.
-/

namespace ZoneTables.Version

/-- The number of a release: 100 for each year since 2000, and the position
of the letter in the alphabet. -/
def number? (tag : String) : Option Nat :=
  match tag.toList with
  | [a, b, c, d, letter] =>
    if letter.isLower then
      (Text.readUnsigned? [a, b, c, d]).bind fun year =>
        if 2000 ≤ year then
          some ((year - 2000) * 100 + (letter.toNat - 'a'.toNat + 1))
        else none
    else none
  | _ => none

def number (tag : String) : Nat := (number? tag).getD 0

def warning (tag : String) : Log :=
  if (number? tag).isSome then []
  else [⟨.warn, s!"tz version '{tag}' is not of the form YYYYx; " ++
    "version number is 0"⟩]

end ZoneTables.Version
