import ZoneTables.Calendar.Year

/-!
# Scopes

A scope says how fine the times of a table are and how wide its fields are.
Times are cut to the granularity before anything is computed from them; the
ranges are checked when the tables are written.
-/

namespace ZoneTables

inductive Scope where
  /-- Narrow tables for small devices. -/
  | basic
  /-- Tables with minutes. -/
  | extended
  /-- Tables with seconds. -/
  | complete
deriving DecidableEq

namespace Scope

def name : Scope → String
  | basic => "basic"
  | extended => "extended"
  | complete => "complete"

def ofName? (s : String) : Option Scope :=
  [basic, extended, complete].find? fun scope => scope.name == s

end Scope

inductive YearWidth where
  /-- A signed byte relative to a base, with codes at both ends for the three
  sentinel years. -/
  | tiny (base : Int)
  /-- A signed number of 16 bits. -/
  | short
deriving DecidableEq

namespace YearWidth

def encode (year : Int) : YearWidth → Option Int
  | tiny base =>
    if year = Year.least then some (-127)
    else if year = Year.endless then some 126
    else if year = Year.never then some 127
    else
      let code := year - base
      if -127 < code ∧ code < 126 then some code else none
  | short => if -32768 ≤ year ∧ year ≤ 32767 then some year else none

def decode (code : Int) : YearWidth → Int
  | tiny base =>
    if code = -127 then Year.least
    else if code = 126 then Year.endless
    else if code = 127 then Year.never
    else base + code
  | short => code

end YearWidth

/-- How an amount of time is coded: in units of so many seconds, within
bounds. -/
structure TimeWidth where
  granularity : Int
  least : Int
  greatest : Int
deriving DecidableEq

namespace TimeWidth

def truncate (w : TimeWidth) (seconds : Int) : Int :=
  Int.tdiv seconds w.granularity * w.granularity

def encode (w : TimeWidth) (seconds : Int) : Option Int :=
  let code := Int.tdiv seconds w.granularity
  if w.least ≤ code ∧ code ≤ w.greatest then some code else none

end TimeWidth

structure Widths where
  scope : Scope
  years : YearWidth
  stdOffset : TimeWidth
  /-- Times of rules and of ends of eras. -/
  time : TimeWidth
  save : TimeWidth
  /-- Whether only simple rules are understood: ends of eras in wall time, one
  transition in a month, none on 1 January, and letters of one character. -/
  simpleRules : Bool
deriving DecidableEq

namespace Scope

def minuteOffset : TimeWidth := ⟨60, -1905, 1905⟩

def minuteTime : TimeWidth := ⟨60, 0, 3825⟩

def quarterSave : TimeWidth := ⟨900, -4, 11⟩

def secondTime : TimeWidth := ⟨1, -2147483648, 2147483647⟩

def secondSave : TimeWidth := ⟨1, -32768, 32767⟩

def widths : Scope → Widths
  | basic => ⟨basic, .tiny 2100, minuteOffset, minuteTime, quarterSave, true⟩
  | extended =>
    ⟨extended, .short, minuteOffset, minuteTime, quarterSave, false⟩
  | complete => ⟨complete, .short, secondTime, secondTime, secondSave, false⟩

end Scope

end ZoneTables
