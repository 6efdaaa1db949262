import ZoneTables.NameMap
import ZoneTables.Scope

/-!
# Options

What a database is made for.
-/

namespace ZoneTables

structure Options where
  /-- The years that the database has to be right for. -/
  window : Window
  scope : Scope
  /-- Whether entries whose times do not fit are removed instead of cut. -/
  strict : Bool
  /-- The only zones and links to keep, if not all. -/
  included : Option NameSet

namespace Options

def widths (o : Options) : Widths := o.scope.widths

def includes (o : Options) (name : String) : Bool :=
  match o.included with
  | none => true
  | some names => names.contains name

end Options

end ZoneTables
