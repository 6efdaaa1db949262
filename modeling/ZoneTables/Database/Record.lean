import ZoneTables.Calendar.DaySpec
import ZoneTables.Calendar.Year
import ZoneTables.NameMap
import ZoneTables.TimeFrame

/-!
# Database records

The rules and eras that tables are made of.  They differ from source records
in that daylight saving is classified, ends of eras are dates, and times are
multiples of the granularity of the scope.
-/

namespace ZoneTables

structure Rule where
  fromYear : Int
  toYear : Int
  month : Nat
  day : DaySpec
  time : Int
  frame : TimeFrame
  save : Int
  letter : String
  /-- Whether the rule only stands for what was in force before the others. -/
  isAnchor : Bool
  /-- The source of the rule. -/
  text : String
deriving DecidableEq

namespace Rule

def covers (r : Rule) (year : Int) : Bool :=
  decide (r.fromYear ≤ year) && decide (year ≤ r.toYear)

/-- The local time at which the rule takes effect in a year, whether it covers
the year or not. -/
def occurrence? (r : Rule) (year : Int) : Option LocalTime :=
  (r.day.dateIn year r.month).map fun date => ⟨date, r.time⟩

end Rule

inductive Saving where
  | standard
  | fixed (amount : Int)
  | policy (name : String)
deriving DecidableEq

namespace Saving

def policy? : Saving → Option String
  | policy name => some name
  | _ => none

end Saving

structure Until where
  year : Int
  month : Nat
  day : Nat
  seconds : Int
  frame : TimeFrame
deriving DecidableEq

namespace Until

def endless : Until := ⟨Year.never, 1, 1, 0, .wall⟩

def isEndless (u : Until) : Bool := u.year == Year.never

/-- Whether an end is earlier than another by its date and time of day.  The
frames are not compared. -/
def isBefore (a b : Until) : Bool :=
  decide (a.year < b.year ∨ (a.year = b.year ∧
    (a.month < b.month ∨ (a.month = b.month ∧
      (a.day < b.day ∨ (a.day = b.day ∧ a.seconds < b.seconds))))))

end Until

structure Era where
  stdOffset : Int
  saving : Saving
  format : String
  ends : Until
  /-- The source of the era. -/
  text : String
deriving DecidableEq

abbrev Zones := NameMap (List Era)

abbrev Policies := NameMap (List Rule)

abbrev Links := NameMap String

namespace Zones

def policyNames (zones : Zones) : NameSet :=
  .ofList (zones.values.flatMap fun eras => eras.filterMap (·.saving.policy?))

end Zones

end ZoneTables
