/-!
# Lines of a text

A line ends at a line feed, or at a carriage return with a line feed behind
it.  The end of the text ends a line only if there is something on it.
-/

namespace ZoneTables.Text

/-- A line read back to front, without the carriage return that stood before
its line feed. -/
def closeLine : List Char → List Char
  | '\r' :: back => back.reverse
  | back => back.reverse

/-- The lines of a text of which `back` was read already, last character
first. -/
def linesFrom (back : List Char) : List Char → List (List Char)
  | [] => if back.isEmpty then [] else [back.reverse]
  | '\n' :: rest => closeLine back :: linesFrom [] rest
  | c :: rest => linesFrom (c :: back) rest

def lines (cs : List Char) : List (List Char) :=
  linesFrom [] cs

def beforeMark (mark : Char) (cs : List Char) : List Char :=
  cs.takeWhile (· != mark)

end ZoneTables.Text
