import ZoneTables.Calendar.Weekday

/-!
# Dates

The proleptic Gregorian calendar.  A date is a year, a month and a day that
exists in that month; its day number counts the days from the day before
1 January of year 1, so consecutive dates have consecutive numbers.  Dates count
the days of months by themselves and do not refer to `daysInMonth`.
-/

namespace ZoneTables

def leapDays (year : Int) : Int := year / 4 - year / 100 + year / 400

def hasLeapDay (year : Int) : Bool :=
  decide (leapDays (year - 1) < leapDays year)

/-- The days before the first of each month in a year without a leap day.  There is
no month 0, and month 13 is the January behind the year. -/
def commonDays : List Nat :=
  [0, 0, 31, 59, 90, 120, 151, 181, 212, 243, 273, 304, 334, 365]

def daysBeforeMonth (year : Int) (month : Nat) : Nat :=
  commonDays.getD month 0 + if 2 < month && hasLeapDay year then 1 else 0

def monthLength (year : Int) (month : Nat) : Nat :=
  daysBeforeMonth year (month + 1) - daysBeforeMonth year month

theorem monthLength_pos {year : Int} {month : Nat} (h₁ : 1 ≤ month)
    (h₂ : month ≤ 12) : 1 ≤ monthLength year month := by
  have h : month = 1 ∨ month = 2 ∨ month = 3 ∨ month = 4 ∨ month = 5 ∨
      month = 6 ∨ month = 7 ∨ month = 8 ∨ month = 9 ∨ month = 10 ∨
      month = 11 ∨ month = 12 := by omega
  unfold monthLength daysBeforeMonth
  cases hasLeapDay year <;>
    rcases h with rfl | rfl | rfl | rfl | rfl | rfl | rfl | rfl | rfl | rfl |
      rfl | rfl <;> decide

structure Date where
  year : Int
  month : Nat
  day : Nat
  month_pos : 1 ≤ month
  month_le : month ≤ 12
  day_pos : 1 ≤ day
  day_le : day ≤ monthLength year month
deriving DecidableEq

namespace Date

def firstYear : Int := -262143

def lastYear : Int := 262142

/-- The date of a year, month and day, if there is such a day and the year is
one that dates are made for. -/
def ofParts? (year : Int) (month day : Nat) : Option Date :=
  if h : (1 ≤ month ∧ month ≤ 12 ∧ 1 ≤ day ∧ day ≤ monthLength year month) ∧
      firstYear ≤ year ∧ year ≤ lastYear then
    some ⟨year, month, day, h.1.1, h.1.2.1, h.1.2.2.1, h.1.2.2.2⟩
  else
    none

/-- The number of the day, where 1 January of year 1 is day 1. -/
def dayNumber (d : Date) : Int :=
  let y := d.year - 1
  365 * y + leapDays y + daysBeforeMonth d.year d.month + d.day

/-- The day of the week; day 1 is a Monday. -/
def weekday (d : Date) : Weekday :=
  Weekday.ofIndex ((d.dayNumber - 1) % 7).toNat

instance : LT Date where
  lt a b := a.year < b.year ∨
    (a.year = b.year ∧
      (a.month < b.month ∨ (a.month = b.month ∧ a.day < b.day)))

instance (a b : Date) : Decidable (a < b) :=
  inferInstanceAs (Decidable (a.year < b.year ∨
    (a.year = b.year ∧
      (a.month < b.month ∨ (a.month = b.month ∧ a.day < b.day)))))

def next (d : Date) : Date :=
  if hd : d.day < monthLength d.year d.month then
    ⟨d.year, d.month, d.day + 1, d.month_pos, d.month_le, by omega, hd⟩
  else if hm : d.month < 12 then
    ⟨d.year, d.month + 1, 1, by omega, hm, by omega,
      monthLength_pos (by omega) hm⟩
  else
    ⟨d.year + 1, 1, 1, by omega, by omega, by omega,
      monthLength_pos (by omega) (by omega)⟩

def prev (d : Date) : Date :=
  if hd : 1 < d.day then
    ⟨d.year, d.month, d.day - 1, d.month_pos, d.month_le, by omega,
      by have := d.day_le; omega⟩
  else if hm : 1 < d.month then
    ⟨d.year, d.month - 1, monthLength d.year (d.month - 1), by omega,
      by have := d.month_le; omega,
      monthLength_pos (by omega) (by have := d.month_le; omega),
      Nat.le_refl _⟩
  else
    ⟨d.year - 1, 12, 31, by omega, by omega, by omega, by
      unfold monthLength daysBeforeMonth
      cases hasLeapDay (d.year - 1) <;> decide⟩

def forward : Nat → Date → Date
  | 0, d => d
  | n + 1, d => forward n d.next

def backward : Nat → Date → Date
  | 0, d => d
  | n + 1, d => backward n d.prev

def onOrAfter (d : Date) (w : Weekday) : Date :=
  d.forward (d.weekday.daysTo w)

def onOrBefore (d : Date) (w : Weekday) : Date :=
  d.backward (w.daysTo d.weekday)

def unixEpochDay : Int := 719163

/-- The seconds from the start of 1970 to a time of day on a date.  The time
of day may be negative or longer than a day. -/
def unixSeconds (d : Date) (seconds : Int) : Int :=
  (d.dayNumber - unixEpochDay) * 86400 + seconds

end Date

structure LocalTime where
  date : Date
  seconds : Int
deriving DecidableEq

namespace LocalTime

instance : LT LocalTime where
  lt a b := a.date < b.date ∨ (a.date = b.date ∧ a.seconds < b.seconds)

instance (a b : LocalTime) : Decidable (a < b) :=
  inferInstanceAs (Decidable (a.date < b.date ∨
    (a.date = b.date ∧ a.seconds < b.seconds)))

def nextSecond (t : LocalTime) : LocalTime := ⟨t.date, t.seconds + 1⟩

def unixSeconds (t : LocalTime) : Int := t.date.unixSeconds t.seconds

end LocalTime

end ZoneTables
