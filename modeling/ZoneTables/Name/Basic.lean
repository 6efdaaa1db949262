import ZoneTables.Text.Decimal

/-!
# Names of zones and links

Two forms of a name that tables use for it: an identifier and a hash.
-/

namespace ZoneTables.Name

/-- The form of a character in an identifier.  A plus sign has a form of its
own, so that names that differ in a sign stay different. -/
def normalizeChar (c : Char) : List Char :=
  if c = '+' then "_PLUS_".toList
  else if c.isAlphanum then [c]
  else ['_']

def normalize (name : String) : String :=
  String.ofList (name.toList.flatMap normalizeChar)

/-- The hash of a name: from 5381, times 33 and plus the next byte, modulo
2 ^ 32. -/
def hash (name : String) : UInt32 :=
  name.toUTF8.data.toList.foldl (fun h byte => h * 33 + byte.toUInt32) 5381

def hashText (h : UInt32) : String :=
  "0x" ++ String.ofList (Text.hexDigits 8 h.toNat)

end ZoneTables.Name
