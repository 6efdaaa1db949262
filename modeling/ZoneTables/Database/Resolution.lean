import ZoneTables.Database.Options
import ZoneTables.Database.Review
import ZoneTables.Source.Record

/-!
# Resolution of source records

The step from the records of the source to those of a database: daylight
saving is classified, ends of eras become dates, and times are cut to the
granularity of their field.  A record that has no meaning in the database
takes the zone or policy that it belongs to with it.
-/

namespace ZoneTables

namespace TimeWidth

/-- A time in the granularity of its field.  Strict reviews remove what would
have to be cut. -/
def fit (w : TimeWidth) (strict : Bool) (field : FittedField)
    (seconds : Int) : Review Int :=
  let fitted := w.truncate seconds
  if fitted = seconds then .keep seconds
  else
    let misfit : Misfit := ⟨field, seconds, w.granularity⟩
    if strict then .remove (.misfit misfit)
    else do
      Review.note (.truncated misfit fitted)
      return fitted

end TimeWidth

def tableText (line : String) : String :=
  String.ofList (line.toList.flatMap fun c =>
    if c = '\t' then [' ', ' ', ' ', ' '] else [c])

def isAmountToken (token : String) : Bool :=
  match token.toList with
  | '-' :: c :: _ => c.isDigit
  | c :: _ => c.isDigit
  | [] => false

def isPolicyToken (token : String) : Bool :=
  token != "-" && !isAmountToken token

namespace SourceEra

def policy? (era : SourceEra) : Option String :=
  if isPolicyToken era.rules then some era.rules else none

def resolveSaving (widths : Widths) (strict : Bool) (era : SourceEra) :
    Review Saving :=
  if era.rules = "-" then .keep .standard
  else if isAmountToken era.rules then
    match Field.amount era.rules with
    | .error fault => .remove (.invalidSaving fault)
    | .ok amount => do
      let amount ← widths.save.fit strict .fixedSaving amount
      if amount = 0 then Review.note .zeroSaving
      return .fixed amount
  else .keep (.policy era.rules)

def hasLetterSlot : List Char → Bool
  | '%' :: 's' :: _ => true
  | _ :: rest => hasLetterSlot rest
  | [] => false

def reviewFormat (era : SourceEra) (saving : Saving) : Review Unit :=
  let slot := hasLetterSlot era.format.toList
  match saving with
  | .policy name =>
    if !slot && !era.format.toList.contains '/' then
      Review.note (.letterIgnored era.format name)
    else .keep ()
  | _ =>
    if slot then .remove (.letterWithoutPolicy era.format era.rules)
    else .keep ()

def resolveUntil (widths : Widths) (strict : Bool) :
    Option SourceUntil → Review Until
  | none => .keep .endless
  | some u =>
    match u.day.dateIn u.year u.month with
    | none => .remove (.missingUntilDay u.day u.year u.month)
    | some date =>
      if date.year ≠ u.year then
        .remove (.untilLeavesYear u.day u.year u.month)
      else do
        let seconds ← widths.time.fit strict .untilTime u.seconds
        return ⟨u.year, date.month, date.day, seconds, u.frame⟩

def resolve (widths : Widths) (strict : Bool) (era : SourceEra) :
    Review Era := do
  let stdOffset ← widths.stdOffset.fit strict .stdOffset era.stdOffset
  let saving ← era.resolveSaving widths strict
  era.reviewFormat saving
  let ends ← resolveUntil widths strict era.ends
  return ⟨stdOffset, saving, era.format, ends, tableText era.origin.text⟩

end SourceEra

/-- The first two neighbours of which the latter does not end later. -/
def outOfOrder? : List Era → Option (Era × Era)
  | a :: b :: rest =>
    if a.ends.isBefore b.ends then outOfOrder? (b :: rest) else some (a, b)
  | _ => none

def resolveZone (widths : Widths) (strict : Bool) (eras : List SourceEra) :
    Review (List Era) := do
  let eras ← Review.forAll (SourceEra.resolve widths strict) eras
  match outOfOrder? eras with
  | some (a, b) => .remove (.untilOrder a.ends b.ends)
  | none => return eras

/-- Whether a day of the month exists in every year from `first` to `last`.
The calendar repeats after 400 years. -/
def existsEveryYear (first last : Int) (month day : Nat) : Bool :=
  if day ≤ 28 then true
  else
    let stop := min (min last (first + 399)) Year.endless
    (List.range (stop + 1 - first).toNat).all fun i =>
      day ≤ daysInMonth (first + i) month

namespace SourceRule

def reviewDay (rule : SourceRule) : Review Unit :=
  if rule.day.mayLeaveYear rule.month then
    .remove (.ruleLeavesYear rule.day rule.month)
  else
    match rule.day with
    | .exact day =>
      if existsEveryYear rule.fromYear rule.toYear rule.month day then
        .keep ()
      else .remove (.missingRuleDay day rule.month)
    | _ => .keep ()

def resolve (widths : Widths) (strict : Bool) (rule : SourceRule) :
    Review Rule := do
  rule.reviewDay
  let time ← widths.time.fit strict .ruleTime rule.time
  let save ← widths.save.fit strict .save rule.save
  return {
    fromYear := rule.fromYear
    toYear := rule.toYear
    month := rule.month
    day := rule.day
    time
    frame := rule.frame
    save
    letter := if rule.letter = "-" then "" else rule.letter
    isAnchor := false
    text := tableText rule.origin.text }

end SourceRule

def resolvePolicy (widths : Widths) (strict : Bool)
    (rules : List SourceRule) : Review (List Rule) :=
  Review.forAll (SourceRule.resolve widths strict) rules

end ZoneTables
