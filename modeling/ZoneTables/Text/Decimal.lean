/-!
# Decimal and hexadecimal numbers in text

Numbers are read from ASCII digits only.  Any number of leading zeros is
allowed, and a sign where the function says so.
-/

namespace ZoneTables.Text

def digitValue (c : Char) : Nat :=
  c.toNat - '0'.toNat

def digitsValue (cs : List Char) : Nat :=
  cs.foldl (fun n c => 10 * n + digitValue c) 0

def readNat? (cs : List Char) : Option Nat :=
  if !cs.isEmpty && cs.all Char.isDigit then some (digitsValue cs) else none

def readUnsigned? : List Char → Option Nat
  | '+' :: cs => readNat? cs
  | cs => readNat? cs

def readInt? : List Char → Option Int
  | '-' :: cs => (readNat? cs).map fun n : Nat => -(n : Int)
  | cs => (readUnsigned? cs).map fun n : Nat => (n : Int)

def twoDigits (n : Nat) : String :=
  if n < 10 then "0" ++ toString n else toString n

def hexDigits (count n : Nat) : List Char :=
  (List.range count).reverse.map fun i => Nat.digitChar ((n >>> (4 * i)) % 16)

end ZoneTables.Text
