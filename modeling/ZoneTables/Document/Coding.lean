import ZoneTables.Document.Basic

/-!
# Codes of fields

Values that have no code in the scope are reported with the record in which
they stand.
-/

namespace ZoneTables

inductive Owner where
  | fragments
  | zone (name : String)
  | policy (name : String)
deriving DecidableEq

namespace Owner

def text : Owner → String
  | fragments => "name fragments"
  | zone name => s!"zone '{name}'"
  | policy name => s!"policy '{name}'"

end Owner

inductive CodedField where
  | fragmentCount
  | fromYear
  | toYear
  | ruleTime
  | save
  | stdOffset
  | fixedSave
  | untilYear
  | untilTime
deriving DecidableEq

namespace CodedField

def label : CodedField → String
  | fragmentCount => "fragment count"
  | fromYear => "from_year"
  | toYear => "to_year"
  | ruleTime => "at"
  | save => "save"
  | stdOffset => "std_offset"
  | fixedSave => "fixed_save"
  | untilYear => "until_year"
  | untilTime => "until_time"

end CodedField

structure CodingError where
  owner : Owner
  field : CodedField
  value : Int
  scope : Scope
deriving DecidableEq

namespace CodingError

def message (e : CodingError) : String :=
  s!"{e.owner.text}: {e.field.label} value {e.value} does not fit the " ++
    s!"{e.scope.name} scope"

end CodingError

namespace Widths

def require (w : Widths) (owner : Owner) (field : CodedField) (value : Int)
    (code : Option Int) : Except CodingError Int :=
  match code with
  | some code => .ok code
  | none => .error ⟨owner, field, value, w.scope⟩

def codeYear (w : Widths) (owner : Owner) (field : CodedField) (year : Int) :
    Except CodingError Int :=
  w.require owner field year (w.years.encode year)

def codeOffset (w : Widths) (owner : Owner) (field : CodedField)
    (seconds : Int) : Except CodingError Int :=
  w.require owner field seconds (w.stdOffset.encode seconds)

def codeTime (w : Widths) (owner : Owner) (field : CodedField)
    (seconds : Int) : Except CodingError Int :=
  w.require owner field seconds (w.time.encode seconds)

def codeSave (w : Widths) (owner : Owner) (field : CodedField)
    (seconds : Int) : Except CodingError Int :=
  w.require owner field seconds (w.save.encode seconds)

def codeRule (w : Widths) (policy : String) (r : Rule) :
    Except CodingError RuleCodes := do
  let owner := Owner.policy policy
  let fromYear ← w.codeYear owner .fromYear r.fromYear
  let toYear ← w.codeYear owner .toYear r.toYear
  let time ← w.codeTime owner .ruleTime r.time
  let save ← w.codeSave owner .save r.save
  let (weekday, monthDay) := r.day.codes
  return { fromYear, toYear, weekday, monthDay, time, save }

def codeEra (w : Widths) (zone : String) (era : Era) :
    Except CodingError EraCodes := do
  let owner := Owner.zone zone
  let stdOffset ← w.codeOffset owner .stdOffset era.stdOffset
  let fixedSave ← w.codeSave owner .fixedSave era.saving.fixedAmount
  let untilYear ← w.codeYear owner .untilYear era.ends.year
  let untilTime ← w.codeTime owner .untilTime era.ends.seconds
  return { stdOffset, fixedSave, untilYear, untilTime }

end Widths

end ZoneTables
