import ZoneTables.CommandLine.Path

/-!
# File trees

The files that a command can see: what stands at each path, and what becomes
of the files when one of them is replaced.  The new content is written to a file
of its own, which takes the place of the old one or is removed again.
-/

namespace ZoneTables

inductive FileError where
  | notFound
  | notADirectory
  | isADirectory
  | busy
  | denied
  | nameTooLong
  | other (text : String)
deriving DecidableEq

namespace FileError

def message : FileError → String
  | notFound => "No such file or directory (os error 2)"
  | notADirectory => "Not a directory (os error 20)"
  | isADirectory => "Is a directory (os error 21)"
  | busy => "Device or resource busy (os error 16)"
  | denied => "Permission denied (os error 13)"
  | nameTooLong => "File name too long (os error 36)"
  | other text => text

end FileError

inductive FileState where
  | file (bytes : ByteArray)
  | directory
  | absent (why : FileError)

namespace FileState

def isFile : FileState → Bool
  | file _ => true
  | _ => false

def isDirectory : FileState → Bool
  | directory => true
  | _ => false

def isAbsent : FileState → Bool
  | absent _ => true
  | _ => false

def bytes : FileState → Except FileError ByteArray
  | file bytes => .ok bytes
  | directory => .error .isADirectory
  | absent why => .error why

end FileState

inductive ReplaceError where
  /-- There was no place for the new content beside the file. -/
  | noDirectory (directory : String) (why : FileError)
  /-- The new content could not take the place of what was there. -/
  | notReplaced (why : FileError)
deriving DecidableEq

/-- A place in a tree: the names on the way to it from the root. -/
abbrev Location := List String

/-- Files and directories by their places.  The root is always there, and it is
a directory. -/
structure FileTree where
  /-- The content of a file; none for a directory. -/
  nodes : List (Location × Option ByteArray)
  /-- Where relative paths start. -/
  working : Location

namespace FileTree

def empty : FileTree := ⟨[], []⟩

def node (t : FileTree) (place : Location) : FileState :=
  if place = [] then .directory
  else
    match t.nodes.lookup place with
    | none => .absent .notFound
    | some none => .directory
    | some (some bytes) => .file bytes

/-- The place that is reached from a place, which stands in front in reverse.
Every place on the way has to be a directory.  Above the root there is the root
again. -/
def walk (t : FileTree) (back : Location) :
    List String → Except FileError Location
  | [] => .ok back.reverse
  | part :: rest =>
    match t.node back.reverse with
    | .absent why => .error why
    | .file _ => .error .notADirectory
    | .directory =>
      if part = ".." then walk t back.tail rest
      else if !Path.isStep part then walk t back rest
      else if part.utf8ByteSize ≤ Path.maxNameSize then
        walk t (part :: back) rest
      else .error .nameTooLong

def start (t : FileTree) (path : String) : Location :=
  if Path.isAbsolute path then [] else t.working

def locate (t : FileTree) (path : String) : Except FileError Location :=
  if path = "" then .error .notFound
  else if path.utf8ByteSize ≤ Path.maxSize then
    t.walk (t.start path).reverse (Path.parts path)
  else .error .nameTooLong

def look (t : FileTree) (path : String) : FileState :=
  match t.locate path with
  | .error why => .absent why
  | .ok place => t.node place

def set (t : FileTree) (place : Location) (content : Option ByteArray) :
    FileTree :=
  { t with nodes := (place, content) :: t.nodes.filter fun p => p.1 != place }

def remove (t : FileTree) (place : Location) : FileTree :=
  { t with nodes := t.nodes.filter fun p => p.1 != place }

theorem lookup_filter_ne {β : Type} {a b : Location} (h : b ≠ a)
    (l : List (Location × β)) :
    (l.filter fun p => p.1 != a).lookup b = l.lookup b := by
  induction l with
  | nil => rfl
  | cons p l ih => grind

theorem node_set (t : FileTree) {place : Location} (h : place ≠ [])
    (content : Option ByteArray) (other : Location) :
    (t.set place content).node other =
      if other = place then
        match content with
        | none => .directory
        | some bytes => .file bytes
      else t.node other := by
  by_cases ho : other = place
  · subst ho
    cases content <;> simp [node, set, h]
  · have hb : (other == place) = false := by simpa using ho
    simp [node, set, ho, List.lookup_cons, hb, lookup_filter_ne ho]

def put (t : FileTree) (place : Location) (content : Option ByteArray) :
    FileTree :=
  let above := (List.range place.length).map place.take
  let missing := above.filter fun place => !(t.node place).isDirectory
  (missing.foldl (fun t place => t.set place none) t).set place content

def newPlace (t : FileTree) (path : String) : Location :=
  t.start path ++ (Path.parts path).filter Path.isStep

def addFile (t : FileTree) (path : String) (bytes : ByteArray) : FileTree :=
  t.put (t.newPlace path) (some bytes)

def addDirectory (t : FileTree) (path : String) : FileTree :=
  t.put (t.newPlace path) none

def workIn (t : FileTree) (path : String) : FileTree :=
  { t.addDirectory path with working := t.newPlace path }

/-- The place at which a path allows a file to be put.  The way to it has to
exist; at its end there has to be a name, which no directory may have and no
slash may follow. -/
def filePlace (t : FileTree) (path : String) : Except FileError Location :=
  if path.utf8ByteSize ≤ Path.maxSize then
    match (Path.parts path).reverse.dropWhile (· == "") with
    | [] => .error .busy
    | name :: above => do
      let directory ←
        t.walk (t.start path).reverse (above.reverse ++ [""])
      if name = "." || name = ".." then .error .busy
      else if name.utf8ByteSize > Path.maxNameSize then .error .nameTooLong
      else if (Path.parts path).getLast? == some "" then
        .error .notADirectory
      else if (t.node (directory ++ [name])).isDirectory then
        .error .isADirectory
      else .ok (directory ++ [name])
  else .error .nameTooLong

def newFilePlace (t : FileTree) (directory : String) (names : List String) :
    Except FileError Location := do
  let place ← t.locate directory
  match t.node place with
  | .absent why => .error why
  | .file _ => .error .notADirectory
  | .directory =>
    match names.find? fun name => (t.node (place ++ [name])).isAbsent with
    | some name => .ok (place ++ [name])
    | none => .error (.other "too many temporary files exist")

def rename (t : FileTree) (place : Location) (path : String) :
    Except FileError FileTree := do
  let bytes ← (t.node place).bytes
  let target ← t.filePlace path
  return (t.remove place).set target (some bytes)

structure Replacement where
  tree : FileTree
  result : Except ReplaceError Unit

/-- Replaces the file at a path by way of a new file beside it, for which some
names are tried. -/
def replace (t : FileTree) (names : List String) (path : String)
    (bytes : ByteArray) : Replacement :=
  let directory := Path.parent path
  match t.newFilePlace directory names with
  | .error why => ⟨t, .error (.noDirectory directory why)⟩
  | .ok beside =>
    let written := t.set beside (some bytes)
    match written.rename beside path with
    | .error why => ⟨written.remove beside, .error (.notReplaced why)⟩
    | .ok after => ⟨after, .ok ()⟩

/-- Names for new files, of which one is free in every directory. -/
def newNames (t : FileTree) : List String :=
  (List.range (t.nodes.length + 1)).map fun n => s!".tmp{n}"

end FileTree

end ZoneTables
