import ZoneTables.Choice
import ZoneTables.Database.Record

/-!
# Anchor rules

A rule in the least year that says what was in force before the rules of a
window, so that there is a rule before every time.
-/

namespace ZoneTables

def Rule.lastBefore? (rule : Rule) (year : Int) : Option LocalTime :=
  if rule.isAnchor || decide (year ≤ rule.fromYear) then none
  else rule.occurrence? (min rule.toYear (year - 1))

/-- The rule in force at the start of a year: the first of those that took
effect last before it. -/
def ruleInForce? (rules : List Rule) (year : Int) : Option Rule :=
  let occurrences := rules.filterMap fun rule =>
    (rule.lastBefore? year).map fun time => (time, rule)
  (firstGreatest? (fun a b => decide (a.1 < b.1)) occurrences).map Prod.snd

/-- Whether a rule starts earlier than another.  In the same year a first
occurrence that does not exist comes before one that does. -/
def Rule.startsBefore (a b : Rule) : Bool :=
  if a.fromYear = b.fromYear then
    match a.occurrence? a.fromYear, b.occurrence? b.fromYear with
    | none, some _ => true
    | some x, some y => decide (x.date < y.date)
    | _, none => false
  else decide (a.fromYear < b.fromYear)

def firstStandardRule? (rules : List Rule) : Option Rule :=
  firstLeast? Rule.startsBefore
    (rules.filter fun rule => !rule.isAnchor && rule.save == 0)

/-- The anchor of rules for a window in which the given year is the first.
It carries on the rule in force; without one it is on standard time, with the
letter of the first rule for standard time. -/
def anchorRule (rules : List Rule) (year : Int) : Rule :=
  let (save, letter, text) :=
    match ruleInForce? rules year with
    | some rule => (rule.save, rule.letter, rule.text)
    | none =>
      match firstStandardRule? rules with
      | some rule => (0, rule.letter, rule.text)
      | none => (0, "", (rules.head?.map (·.text)).getD "")
  { fromYear := Year.least
    toYear := Year.least
    month := 1
    day := .exact 1
    time := 0
    frame := .wall
    save
    letter
    isAnchor := true
    text := "Anchor: " ++ text }

end ZoneTables
