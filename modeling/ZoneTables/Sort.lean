/-!
# Sorting by a key

Lists are put in the order of an integer key of their elements, and elements of
the same key stay in the order in which they come.
-/

namespace ZoneTables

variable {α : Type}

def insertByKey (key : α → Int) (a : α) : List α → List α
  | [] => [a]
  | b :: l => if key a ≤ key b then a :: b :: l else b :: insertByKey key a l

def sortByKey (key : α → Int) (l : List α) : List α :=
  l.foldr (insertByKey key) []

end ZoneTables
