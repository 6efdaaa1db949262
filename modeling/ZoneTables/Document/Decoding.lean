import ZoneTables.Database.Resolution
import ZoneTables.Document.Basic

/-!
# Reading tables back

What a reader of the tables makes of the codes and the written forms: times in
units of the granularity, years relative to their base, days from two numbers,
strings, policies and zones by their positions.  A value that is given in two
forms is only read if they agree.  The numbers of seconds and the years that
stand beside their codes are not looked at.
-/

namespace ZoneTables

def Saving.read? (text : String) : Option Saving :=
  if text = "-" then some .standard
  else if isPolicyToken text then some (.policy text)
  else (Clock.read? text.toList).map Saving.fixed

namespace Document

def years (d : Document) : YearWidth := d.context.scope.widths.years

def readDay? (r : RuleRecord) : Option DaySpec := do
  let day ← DaySpec.ofCodes? r.codes.weekday r.codes.monthDay
  guard (DaySpec.read? r.rule.day.text.toList = some day)
  return day

def readRule? (d : Document) (r : RuleRecord) : Option Rule := do
  let day ← readDay? r
  let letter ← d.letters.get? r.letterIndex
  return {
    fromYear := d.years.decode r.codes.fromYear
    toYear := d.years.decode r.codes.toYear
    month := r.rule.month
    day
    time := r.codes.time * d.context.timeGranularity
    frame := r.rule.frame
    save := r.codes.save * d.context.saveGranularity
    letter
    isAnchor := r.rule.isAnchor
    text := r.rule.text }

/-- The daylight saving of an era record: its written form, of which a fixed
amount has a code and a policy has a position. -/
def readSaving? (d : Document) (r : EraRecord) : Option Saving := do
  let saving ← Saving.read? r.era.saving.text
  guard (r.codes.fixedSave * d.context.saveGranularity = saving.fixedAmount)
  guard ((r.policyIndex.bind fun i => d.policies.keys[i]?) = saving.policy?)
  return saving

def readEra? (d : Document) (r : EraRecord) : Option Era := do
  let saving ← d.readSaving? r
  let format ← d.formats.get? r.formatIndex
  return {
    stdOffset := r.codes.stdOffset * d.context.offsetGranularity
    saving
    format
    ends := {
      year := d.years.decode r.codes.untilYear
      month := r.era.ends.month
      day := r.era.ends.day
      seconds := r.codes.untilTime * d.context.timeGranularity
      frame := r.era.ends.frame }
    text := r.era.text }

/-- The target of a link record, by its position and by its name. -/
def readTarget? (d : Document) (r : LinkRecord) : Option String := do
  let target ← d.zones.keys[r.targetIndex]?
  guard (r.target = target)
  return target

def readPolicies? (d : Document) : Option (List (String × List Rule)) :=
  d.policies.entries.mapM fun (name, p) => do
    return (name, ← p.rules.mapM d.readRule?)

def readZones? (d : Document) : Option (List (String × List Era)) :=
  d.zones.entries.mapM fun (name, z) => do
    return (name, ← z.eras.mapM d.readEra?)

def readLinks? (d : Document) : Option (List (String × String)) :=
  d.links.entries.mapM fun (name, l) => do
    return (name, ← d.readTarget? l)

end Document

end ZoneTables
