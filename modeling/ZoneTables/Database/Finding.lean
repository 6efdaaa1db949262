import ZoneTables.Database.Record
import ZoneTables.Clock
import ZoneTables.Log
import ZoneTables.Source.Error

/-!
# Findings

What is found while a database is made: entries that had to be removed, each
with the reason, and entries that are kept but are worth a note.  The comments
of a database and the log of the work are both read off the findings.
-/

namespace ZoneTables

inductive FittedField where
  | stdOffset
  | fixedSaving
  | untilTime
  | ruleTime
  | save
deriving DecidableEq

namespace FittedField

def label : FittedField → String
  | stdOffset => "STDOFF"
  | fixedSaving => "RULES"
  | untilTime => "UNTIL time"
  | ruleTime => "AT"
  | save => "SAVE"

end FittedField

structure Misfit where
  field : FittedField
  seconds : Int
  granularity : Int
deriving DecidableEq

namespace Misfit

def message (m : Misfit) : String :=
  s!"{m.field.label} {Clock.text m.seconds} " ++
    s!"not a multiple of {m.granularity}s"

end Misfit

inductive Removal where
  | notIncluded
  | targetNotIncluded (target : String)
  | erasOutside (total : Nat) (window : Window)
  | misfit (misfit : Misfit)
  | invalidSaving (fault : FieldError)
  | letterWithoutPolicy (format rules : String)
  | missingUntilDay (day : DaySpec) (year : Int) (month : Nat)
  | untilLeavesYear (day : DaySpec) (year : Int) (month : Nat)
  | untilOrder (former latter : Until)
  | untilFrame (frame : TimeFrame)
  | ruleLeavesYear (day : DaySpec) (month : Nat)
  | missingRuleDay (day month : Nat)
  | noRulesNeeded (window : Window)
  | longLetter (letter : String)
  | newYearTransition (day : DaySpec)
  | sharedMonth (former latter : Rule)
  | policyRemoved (policy : String)
  | targetRemoved (target : String)
  | unused
deriving DecidableEq

def Until.dateText (u : Until) : String :=
  s!"{u.year}-{Text.twoDigits u.month}-{Text.twoDigits u.day}"

def Rule.yearsText (r : Rule) : String := s!"{r.fromYear}..{r.toYear}"

namespace Removal

def message : Removal → String
  | notIncluded => "not in the include list"
  | targetNotIncluded target =>
    s!"target zone '{target}' is not in the include list"
  | erasOutside total window => s!"all {total} eras fall outside {window.text}"
  | misfit m => m.message
  | invalidSaving fault => "RULES: " ++ fault.message
  | letterWithoutPolicy format rules =>
    s!"FORMAT '{format}' has %s but RULES '{rules}' is not a policy"
  | missingUntilDay day year month =>
    s!"UNTIL day '{day.text}' does not exist in " ++
      s!"{year}-{Text.twoDigits month}"
  | untilLeavesYear day year month =>
    s!"UNTIL '{year} {month} {day.text}' leaves its year"
  | untilOrder former latter =>
    s!"UNTIL {latter.dateText} does not follow {former.dateText}"
  | untilFrame frame =>
    s!"UNTIL suffix '{frame.letter}' is not supported in basic scope"
  | ruleLeavesYear day month =>
    s!"ON '{day.text}' in month {month} can fall in another year"
  | missingRuleDay day month =>
    s!"ON '{day}' does not exist in month {month} of every year"
  | noRulesNeeded window => "no rules needed for " ++ window.text
  | longLetter letter => s!"LETTER '{letter}' is longer than one character"
  | newYearTransition day =>
    s!"transition on Jan {day.text} crosses the year border"
  | sharedMonth former latter =>
    s!"two transitions in month {former.month} " ++
      s!"({former.yearsText} and {latter.yearsText})"
  | policyRemoved policy => s!"policy '{policy}' was removed"
  | targetRemoved target => s!"target zone '{target}' was removed"
  | unused => "unused"

end Removal

inductive Note where
  | erasBefore (count : Nat) (year : Int)
  | erasAfter (count : Nat) (year : Int)
  | truncated (misfit : Misfit) (seconds : Int)
  | zeroSaving
  | letterIgnored (format policy : String)
  | negativeSave (seconds : Int)
  | unusualSave (seconds : Int)
  | unusualOffset (seconds : Int)
  | unusualSaving (seconds : Int)
  /-- A rule that the window does not need; of interest to the log only. -/
  | ruleDropped (index : Nat) (rule : Rule)
deriving DecidableEq

namespace Note

def message : Note → String
  | erasBefore count year => s!"removed {count} eras before {year}"
  | erasAfter count year => s!"removed {count} eras after {year}"
  | truncated misfit seconds =>
    misfit.message ++ ", truncated to " ++ Clock.text seconds
  | zeroSaving => "fixed RULES of 0:00"
  | letterIgnored format policy =>
    s!"FORMAT '{format}' ignores the LETTER of policy '{policy}'"
  | negativeSave seconds => "negative SAVE " ++ Clock.text seconds
  | unusualSave seconds => s!"SAVE {Clock.text seconds} is not 1:00"
  | unusualOffset seconds =>
    s!"STDOFF {Clock.text seconds} is not a multiple of 0:30"
  | unusualSaving seconds =>
    s!"fixed RULES {Clock.text seconds} is not 1:00"
  | ruleDropped index rule => s!"dropped rule #{index} ({rule.yearsText})"

def isComment : Note → Bool
  | ruleDropped .. => false
  | _ => true

end Note

inductive Subject where
  | zone
  | policy
  | link
deriving DecidableEq

namespace Subject

def label : Subject → String
  | zone => "zone"
  | policy => "policy"
  | link => "link"

end Subject

inductive Finding where
  | removed (subject : Subject) (name : String) (why : Removal)
  | noted (subject : Subject) (name : String) (note : Note)
deriving DecidableEq

namespace Finding

/-- The log line of a finding.  A format that leaves no place for letters is
common and is not logged. -/
def logLine? : Finding → Option LogLine
  | removed subject name why =>
    some ⟨.debug, s!"removed {subject.label} {name}: {why.message}"⟩
  | noted _ _ (.letterIgnored ..) => none
  | noted subject name (.ruleDropped index rule) =>
    some ⟨.trace,
      s!"{subject.label} {name}: {(Note.ruleDropped index rule).message}"⟩
  | noted subject name note =>
    some ⟨.debug, s!"notable {subject.label} {name}: {note.message}"⟩

def log (findings : List Finding) : Log := findings.filterMap logLine?

end Finding

end ZoneTables
