import ZoneTables.Name.StringTable

/-!
# Fragments of names

Names share their leading parts, which end in a slash.  Parts that occur often
enough are kept in a table, and in a compressed name a single character stands
for each of them: the one whose code is the number of the part, from 1.
-/

namespace ZoneTables.Name

/-- The leading parts of a name, each up to a slash, and the rest. -/
def split : List Char → List (List Char) × List Char
  | [] => ([], [])
  | c :: cs =>
    match split cs with
    | ([], rest) => if c = '/' then ([['/']], rest) else ([], c :: rest)
    | (part :: parts, rest) =>
      if c = '/' then (['/'] :: part :: parts, rest)
      else ((c :: part) :: parts, rest)

def fragments (name : String) : List String :=
  (split name.toList).1.map String.ofList

def base (name : String) : String :=
  String.ofList (split name.toList).2

def minFragmentSize : Nat := 4

def minFragmentCount : Nat := 4

def maxFragments : Nat := 31

def fragmentCounts (names : List String) : NameMap Nat :=
  ((names.flatMap fragments).filter fun f =>
      minFragmentSize ≤ f.utf8ByteSize).foldl
    (fun counts f => counts.alter f fun n => n.getD 0 + 1) .empty

def fragmentTable (names : List String) : StringTable :=
  .ofList 1
    ((fragmentCounts names).filter fun _ n => minFragmentCount ≤ n).keys

/-- A part as it stands in a compressed name.  Only a number that is the code of
a character can stand for a part. -/
def compressFragment (table : StringTable) (fragment : String) : String :=
  match table.index? fragment with
  | some i => if i.isValidChar then String.ofList [Char.ofNat i] else fragment
  | none => fragment

def compress (table : StringTable) (name : String) : String :=
  String.join ((fragments name).map (compressFragment table)) ++ base name

def expandChar (table : StringTable) (c : Char) : String :=
  (table.get? c.toNat).getD (String.ofList [c])

def expand (table : StringTable) (compressed : String) : String :=
  String.join (compressed.toList.map (expandChar table))

end ZoneTables.Name
