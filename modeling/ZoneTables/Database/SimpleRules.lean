import ZoneTables.Database.Review

/-!
# Simple rules

What narrow tables do not take: ends of eras in another frame than wall time,
letters of more than one character, rules for 1 January, and two rules for one
month of a year.
-/

namespace ZoneTables

def reviewSimpleZone (eras : List Era) : Review (List Era) :=
  match eras.find? fun era =>
      !era.ends.isEndless && era.ends.frame != .wall with
  | some era => .remove (.untilFrame era.ends.frame)
  | none => .keep eras

/-- Whether two rules share a year and the month that they are given for.  The dates
that are chosen may still lie in different months, or in one month where the
months given differ. -/
def Rule.sharesMonth (a b : Rule) : Bool :=
  b.month == a.month && decide (a.fromYear ≤ b.toYear) &&
    decide (b.fromYear ≤ a.toYear)

/-- Whether a rule is for 1 January or for a weekday from then on. -/
def Rule.isNewYear (r : Rule) : Bool :=
  r.month == 1 &&
    match r.day with
    | .exact 1 => true
    | .onOrAfter _ 1 => true
    | _ => false

def ruleViolation? : List Rule → Option Removal
  | [] => none
  | a :: rest =>
    if 1 < a.letter.length then some (.longLetter a.letter)
    else if a.isNewYear then some (.newYearTransition a.day)
    else
      match rest.find? a.sharesMonth with
      | some b => some (.sharedMonth a b)
      | none => ruleViolation? rest

def reviewSimplePolicy (rules : List Rule) : Review (List Rule) :=
  match ruleViolation? (rules.filter fun r => !r.isAnchor) with
  | some why => .remove why
  | none => .keep rules

end ZoneTables
