import ZoneTables.Calendar.DaySpec
import ZoneTables.Calendar.Month
import ZoneTables.Calendar.Year
import ZoneTables.Clock
import ZoneTables.Source.Error
import ZoneTables.TimeFrame

/-!
# Fields of a line

One reader for each kind of field.  A field is a word of the line, without
blanks.
-/

namespace ZoneTables.Field

/-- Reads a year that a table can hold and that is not the year of eras
without an end. -/
def year (token : String) : Except FieldError Int :=
  match Text.readInt? token.toList with
  | some y =>
    if Year.least ≤ y ∧ y ≤ Year.endless then .ok y
    else .error (.invalidYear token)
  | none => .error (.invalidYear token)

/-- Reads the year in which a rule that starts in `first` is said to end: a
year, or a word for the first year or for no end. -/
def endYear (token : String) (first : Int) : Except FieldError Int :=
  let word := String.ofList (token.toList.map Char.toLower)
  if word = "only" ∨ word = "o" then .ok first
  else if word = "max" ∨ word = "maximum" ∨ word = "ma" then .ok Year.endless
  else year token

def lastYear (token : String) (first : Int) : Except FieldError Int := do
  let last ← endYear token first
  if last < first then .error (.reversedYears first last) else .ok last

def month (token : String) : Except FieldError Nat :=
  match Month.read? token.toList with
  | some m => .ok m
  | none => .error (.invalidMonth token)

def daySpec (token : String) : Except FieldError DaySpec :=
  match DaySpec.read? token.toList with
  | some spec => .ok spec
  | none => .error (.invalidDay token)

def amount (token : String) : Except FieldError Int :=
  match Clock.read? token.toList with
  | some n => .ok n
  | none => .error (.invalidTime token)

def isAmountText (cs : List Char) : Bool :=
  let body := match cs with
    | '-' :: rest => rest
    | _ => cs
  !body.isEmpty && body.all fun c => c.isDigit || c == ':'

def splitTime (cs : List Char) : List Char × Option Char :=
  match cs.getLast? with
  | some c => if c.isAlpha then (cs.dropLast, some c) else (cs, none)
  | none => (cs, none)

def time (token : String) : Except FieldError (Int × TimeFrame) :=
  let (body, letter) := splitTime token.toList
  if isAmountText body then do
    let seconds ← amount (String.ofList body)
    match letter with
    | none => .ok (seconds, .wall)
    | some c =>
      match TimeFrame.ofLetter? c with
      | some frame => .ok (seconds, frame)
      | none => .error (.invalidSuffix token)
  else
    .error (.invalidTime token)

/-- Reads an amount of daylight saving; a small letter behind it that says
which kind of time it makes is ignored. -/
def save (token : String) : Except FieldError Int :=
  match token.toList.getLast? with
  | some 's' | some 'd' => amount (String.ofList token.toList.dropLast)
  | _ => amount token

def optional {α : Type} (read : String → Except FieldError α) (missing : α) :
    Option String → Except FieldError α
  | some token => read token
  | none => .ok missing

end ZoneTables.Field
