import ZoneTables.Database.Comments
import ZoneTables.Database.Options

/-!
# Databases

What a source means within a window and a scope.
-/

namespace ZoneTables

structure Database where
  zones : Zones
  policies : Policies
  links : Links
  comments : Comments
  window : Window
  widths : Widths
  strict : Bool
  /-- Whether something before the window was cut off. -/
  cutBefore : Bool
  /-- Whether something after the window was cut off. -/
  cutAfter : Bool
  /-- The years in the source. -/
  sourceYears : YearSpan
  /-- The years in the database, without anchors. -/
  years : YearSpan
deriving DecidableEq

namespace Database

/-- The first year from which the database is as right as its source. -/
def accurateFrom (db : Database) : Int :=
  if db.cutBefore then db.window.start else Year.least

/-- The first year from which the database is no longer as right as its
source. -/
def accurateUntil (db : Database) : Int :=
  if db.cutAfter then db.window.stop else Year.never

end Database

end ZoneTables
