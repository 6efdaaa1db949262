import ZoneTables.NameMap
import ZoneTables.Text.Blank
import ZoneTables.Text.Lines

/-!
# Lists of names

A file with one name on a line, without the blanks around it.  Comments and
lines without a name are skipped.
-/

namespace ZoneTables.NameList

def readLine? (line : List Char) : Option String :=
  let name := Text.trim (Text.beforeMark '#' line)
  if name.isEmpty then none else some (String.ofList name)

def read (text : String) : NameSet :=
  .ofList ((Text.lines text.toList).filterMap readLine?)

end ZoneTables.NameList
