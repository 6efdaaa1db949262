import ZoneTables.Buffer.Size
import ZoneTables.Name.StringTable

/-!
# Documents

The tables of a database as they are handed on: records with codes beside
their values, positions of records that others refer to, string tables, and
what the tables were made for.
-/

namespace ZoneTables

structure TableCounts where
  zones : Nat
  links : Nat
  policies : Nat
  eras : Nat
  rules : Nat

structure TableContext where
  version : String
  versionNumber : Nat
  scope : Scope
  window : Window
  accurate : Window
  sourceYears : YearSpan
  years : YearSpan
  cutBefore : Bool
  cutAfter : Bool
  offsetGranularity : Int
  timeGranularity : Int
  saveGranularity : Int
  strict : Bool
  counts : TableCounts
  sizes : BufferSizes

structure EraCodes where
  stdOffset : Int
  fixedSave : Int
  untilYear : Int
  untilTime : Int

structure EraRecord where
  era : Era
  codes : EraCodes
  /-- The position of the policy among all policies. -/
  policyIndex : Option Nat
  /-- The number of the format in its table. -/
  formatIndex : Nat

structure ZoneRecord where
  index : Nat
  id : UInt32
  normalized : String
  compressed : String
  eras : List EraRecord

structure RuleCodes where
  fromYear : Int
  toYear : Int
  /-- The ISO number of the weekday, 0 for an exact day. -/
  weekday : Nat
  /-- The day of the month, with a sign for its side of the weekday. -/
  monthDay : Int
  time : Int
  save : Int

structure RuleRecord where
  rule : Rule
  codes : RuleCodes
  /-- The number of the letter in its table. -/
  letterIndex : Nat

structure PolicyRecord where
  index : Nat
  rules : List RuleRecord

structure LinkRecord where
  target : String
  /-- The position of the target among all zones. -/
  targetIndex : Nat
  id : UInt32
  normalized : String
  compressed : String

structure Document where
  context : TableContext
  letters : StringTable
  formats : StringTable
  fragments : StringTable
  zones : NameMap ZoneRecord
  policies : NameMap PolicyRecord
  links : NameMap LinkRecord
  comments : Comments

namespace Saving

def text : Saving → String
  | standard => "-"
  | fixed amount => Clock.text amount
  | policy name => name

def fixedAmount : Saving → Int
  | fixed amount => amount
  | _ => 0

end Saving

end ZoneTables
