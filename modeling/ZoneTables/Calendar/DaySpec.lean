import ZoneTables.Calendar.Date
import ZoneTables.Calendar.Month
import ZoneTables.Text.Decimal

/-!
# Day specifications

The day on which a rule takes effect or an era ends: a day of the month, the
last weekday of the month, or the weekday next to a day of the month.  The
month and the year are given apart, so a weekday next to a day may lie in
another month or year.
-/

namespace ZoneTables

inductive DaySpec where
  /-- A day of the month. -/
  | exact (day : Nat)
  /-- The last day of the month on a weekday. -/
  | last (weekday : Weekday)
  /-- The first day on a weekday that is not before a day of the month. -/
  | onOrAfter (weekday : Weekday) (day : Nat)
  /-- The last day on a weekday that is not after a day of the month. -/
  | onOrBefore (weekday : Weekday) (day : Nat)
deriving DecidableEq

namespace DaySpec

/-- The date that is chosen in a month of a year; none if the day of the
month that the choice names does not exist. -/
def dateIn (year : Int) (month : Nat) : DaySpec → Option Date
  | exact day => Date.ofParts? year month day
  | last w =>
    (Date.ofParts? year month (daysInMonth year month)).map (·.onOrBefore w)
  | onOrAfter w day => (Date.ofParts? year month day).map (·.onOrAfter w)
  | onOrBefore w day => (Date.ofParts? year month day).map (·.onOrBefore w)

def mayLeaveYear (month : Nat) : DaySpec → Bool
  | onOrAfter _ day => month == 12 && decide (25 < day)
  | onOrBefore _ day => month == 1 && decide (day < 7)
  | _ => false

/-- The choice as two numbers: the ISO number of the weekday, or 0 without
one, and the day of the month, negative for the last weekday not after it and
0 for the last weekday of the month. -/
def codes : DaySpec → Nat × Int
  | exact day => (0, day)
  | last w => (w.isoNumber, 0)
  | onOrAfter w day => (w.isoNumber, day)
  | onOrBefore w day => (w.isoNumber, -day)

def ofCodes? (weekday : Nat) (day : Int) : Option DaySpec :=
  if weekday = 0 then if 0 < day then some (exact day.toNat) else none
  else if 7 < weekday then none
  else
    let w := Weekday.ofIndex (weekday - 1)
    if day = 0 then some (last w)
    else if 0 < day then some (onOrAfter w day.toNat)
    else some (onOrBefore w (-day).toNat)

def text : DaySpec → String
  | exact day => toString day
  | last w => "last" ++ w.text
  | onOrAfter w day => w.text ++ ">=" ++ toString day
  | onOrBefore w day => w.text ++ "<=" ++ toString day

def readDay? (cs : List Char) : Option Nat :=
  if cs.length ≤ 2 then
    (Text.readNat? cs).filter fun day => decide (1 ≤ day ∧ day ≤ 31)
  else none

def readAroundDay? (cs : List Char) : Option DaySpec :=
  match Weekday.read? (cs.takeWhile Char.isAlpha),
      cs.dropWhile Char.isAlpha with
  | some w, '>' :: '=' :: day => (readDay? day).map (onOrAfter w)
  | some w, '<' :: '=' :: day => (readDay? day).map (onOrBefore w)
  | _, _ => none

/-- Reads a written form: a day number, `last` in small letters and a
weekday, or a weekday, `>=` or `<=`, and a day number. -/
def read? (cs : List Char) : Option DaySpec :=
  match readDay? cs with
  | some day => some (exact day)
  | none =>
    match cs with
    | 'l' :: 'a' :: 's' :: 't' :: rest =>
      match Weekday.read? rest with
      | some w => some (last w)
      | none => readAroundDay? cs
    | _ => readAroundDay? cs

end DaySpec

end ZoneTables
