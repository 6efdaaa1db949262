import ZoneTables.NameMap

/-!
# String tables

Strings that records refer to by number are kept once, in order.
-/

namespace ZoneTables

/-- A set of strings numbered in order from a base. -/
structure StringTable where
  base : Nat
  members : NameSet
deriving DecidableEq

namespace StringTable

def ofList (base : Nat) (items : List String) : StringTable :=
  ⟨base, NameSet.ofList items⟩

def entries (t : StringTable) : List String := t.members.keys

def size (t : StringTable) : Nat := t.members.size

def index? (t : StringTable) (s : String) : Option Nat :=
  (t.members.indexOf? s).map (t.base + ·)

def get? (t : StringTable) (index : Nat) : Option String :=
  if index < t.base then none else t.entries[index - t.base]?

end StringTable

end ZoneTables
