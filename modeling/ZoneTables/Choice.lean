/-!
# Choice by preference

The element of a list that a strict preference settles on when the list is
read from the front and a later element replaces the choice only if it is
preferred.  With a key this is the first or the last element of the greatest
or least key.
-/

namespace ZoneTables

variable {α : Type}

/-- The element that is left when each element in turn replaces the choice so
far if it is preferred to it. -/
def choose? (preferred : α → α → Bool) (l : List α) : Option α :=
  l.foldl
    (fun best a =>
      match best with
      | none => some a
      | some b => if preferred a b then some a else some b)
    none

/-- The first of the elements that come last in the order `lt`. -/
def firstGreatest? (lt : α → α → Bool) (l : List α) : Option α :=
  choose? (fun a b => lt b a) l

/-- The last of the elements that come last in the order `lt`. -/
def lastGreatest? (lt : α → α → Bool) (l : List α) : Option α :=
  choose? (fun a b => !lt a b) l

def firstLeast? (lt : α → α → Bool) (l : List α) : Option α :=
  choose? lt l

end ZoneTables
