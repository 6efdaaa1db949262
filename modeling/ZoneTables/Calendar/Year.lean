/-!
# Years

The range of years in tables, the three years with a meaning of their own, leap
years, and spans of ordinary years.
-/

namespace ZoneTables

namespace Year

/-- The least year; anchor rules stand in it. -/
def least : Int := -32767

/-- The last year of a rule that has no end. -/
def endless : Int := 32766

/-- The year in which an open era ends. -/
def never : Int := 32767

def isSentinel (year : Int) : Bool :=
  year == least || year == endless || year == never

end Year

def isLeapYear (year : Int) : Bool :=
  (year % 4 == 0 && year % 100 != 0) || year % 400 == 0

structure YearSpan where
  least : Int
  greatest : Int
deriving DecidableEq

namespace YearSpan

def empty : YearSpan := ⟨Year.endless, Year.least⟩

def add (span : YearSpan) (year : Int) : YearSpan :=
  if Year.isSentinel year then span
  else ⟨min span.least year, max span.greatest year⟩

def ofList (years : List Int) : YearSpan := years.foldl add empty

end YearSpan

/-- The years from `start` on and before `stop`. -/
structure Window where
  start : Int
  stop : Int
deriving DecidableEq

namespace Window

def text (w : Window) : String := s!"[{w.start}, {w.stop})"

def isEmpty (w : Window) : Bool := decide (w.stop ≤ w.start)

/-- Whether the window and the years next to it are ordinary years. -/
def isInRange (w : Window) : Bool :=
  decide (Year.least < w.start) && decide (w.stop ≤ Year.endless)

end Window

end ZoneTables
