/-!
# Blank characters

Source lines, include lists and version files are cut at blanks.  A blank is
any character with the Unicode property `White_Space`, which holds more than
the class that core calls whitespace.
-/

namespace ZoneTables.Text

/-- Whether a character has the Unicode property `White_Space`. -/
def isBlank (c : Char) : Bool :=
  let n := c.toNat
  (0x09 ≤ n && n ≤ 0x0D) || n == 0x20 || n == 0x85 || n == 0xA0 ||
    n == 0x1680 || (0x2000 ≤ n && n ≤ 0x200A) || n == 0x2028 || n == 0x2029 ||
    n == 0x202F || n == 0x205F || n == 0x3000

def trimEnd (cs : List Char) : List Char :=
  (cs.reverse.dropWhile isBlank).reverse

def trim (cs : List Char) : List Char :=
  trimEnd (cs.dropWhile isBlank)

def splitWords : List Char → List Char × List (List Char)
  | [] => ([], [])
  | c :: cs =>
    let (run, rest) := splitWords cs
    if isBlank c then
      ([], if run.isEmpty then rest else run :: rest)
    else
      (c :: run, rest)

def words (cs : List Char) : List (List Char) :=
  let (run, rest) := splitWords cs
  if run.isEmpty then rest else run :: rest

end ZoneTables.Text
