/-!
# Days of the week
-/

namespace ZoneTables

inductive Weekday where
  | monday
  | tuesday
  | wednesday
  | thursday
  | friday
  | saturday
  | sunday
deriving DecidableEq

namespace Weekday

def all : List Weekday :=
  [monday, tuesday, wednesday, thursday, friday, saturday, sunday]

def index : Weekday → Nat
  | monday => 0
  | tuesday => 1
  | wednesday => 2
  | thursday => 3
  | friday => 4
  | saturday => 5
  | sunday => 6

def isoNumber (w : Weekday) : Nat := w.index + 1

def ofIndex (n : Nat) : Weekday :=
  match n % 7 with
  | 0 => monday
  | 1 => tuesday
  | 2 => wednesday
  | 3 => thursday
  | 4 => friday
  | 5 => saturday
  | _ => sunday

def name : Weekday → String
  | monday => "monday"
  | tuesday => "tuesday"
  | wednesday => "wednesday"
  | thursday => "thursday"
  | friday => "friday"
  | saturday => "saturday"
  | sunday => "sunday"

def text : Weekday → String
  | monday => "Mon"
  | tuesday => "Tue"
  | wednesday => "Wed"
  | thursday => "Thu"
  | friday => "Fri"
  | saturday => "Sat"
  | sunday => "Sun"

/-- Reads a day from the start of its English name in any case.  At least two
letters are needed, and they must fit one name only. -/
def read? (cs : List Char) : Option Weekday :=
  if cs.length < 2 then none
  else
    match all.filter fun w => (cs.map Char.toLower).isPrefixOf w.name.toList with
    | [w] => some w
    | _ => none

/-- The days from `a` forward to the next `b`, none if they are the same. -/
def daysTo (a b : Weekday) : Nat := (b.index + 7 - a.index) % 7

theorem index_lt (w : Weekday) : w.index < 7 := by
  cases w <;> decide

theorem daysTo_lt (a b : Weekday) : a.daysTo b < 7 :=
  Nat.mod_lt _ (by decide)

@[simp] theorem ofIndex_index (w : Weekday) : ofIndex w.index = w := by
  cases w <;> rfl

theorem index_ofIndex (n : Nat) : (ofIndex n).index = n % 7 := by
  have h : n % 7 = 0 ∨ n % 7 = 1 ∨ n % 7 = 2 ∨ n % 7 = 3 ∨ n % 7 = 4 ∨
      n % 7 = 5 ∨ n % 7 = 6 := by omega
  rcases h with h | h | h | h | h | h | h <;> simp [ofIndex, index, h]

end Weekday

end ZoneTables
