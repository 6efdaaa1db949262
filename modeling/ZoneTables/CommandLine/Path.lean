/-!
# Paths

Paths are texts with slashes between their parts.
-/

namespace ZoneTables.Path

/-- The parts between the slashes of a path; `back` is the part read so far,
last character first. -/
def partsFrom (back : List Char) : List Char → List String
  | [] => [String.ofList back.reverse]
  | '/' :: rest => String.ofList back.reverse :: partsFrom [] rest
  | c :: rest => partsFrom (c :: back) rest

def parts (path : String) : List String := partsFrom [] path.toList

/-- Whether a part leads to another place: it is neither empty nor a dot. -/
def isStep (part : String) : Bool := part != "" && part != "."

/-- The name of a file by its path: the last part that leads somewhere, or the
whole path if that leads up or there is none. -/
def fileName (path : String) : String :=
  match ((parts path).filter isStep).getLast? with
  | some name => if name = ".." then path else name
  | none => path

def join (directory part : String) : String :=
  if directory.toList.getLast?.all (· == '/') then directory ++ part
  else directory ++ "/" ++ part

def isAbsolute (path : String) : Bool := path.toList.head? == some '/'

/-- The directory in which a path names something: the path without its last
part that leads somewhere, and without what leads nowhere before that part. -/
def parent (path : String) : String :=
  let back := (parts path).reverse.dropWhile fun part => !isStep part
  match back.tail.dropWhile fun part => !isStep part with
  | [] => if isAbsolute path && !back.isEmpty then "/" else "."
  | above => "/".intercalate above.reverse

def maxNameSize : Nat := 255

def maxSize : Nat := 4095

end ZoneTables.Path
