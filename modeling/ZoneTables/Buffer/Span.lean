import ZoneTables.Buffer.Error
import ZoneTables.Choice
import ZoneTables.Database.Record

/-!
# Spans of eras in universal time

The eras of a zone follow each other in local time.  A span is an era with the
instants between which it is in force; the end of one is the start of the
next.  To turn a local end into an instant, the daylight saving in force just
before it has to be looked up among the rules of the era.
-/

namespace ZoneTables

/-- The last local time before `bound` at which a rule takes effect, looked
for in the last two years in question. -/
def Rule.lastBeforeTime? (rule : Rule) (bound : LocalTime) :
    Option LocalTime :=
  let last := min rule.toYear bound.date.year
  [last, last - 1].findSome? fun year =>
    if rule.fromYear ≤ year then
      (rule.occurrence? year).filter fun time => decide (time < bound)
    else none

/-- The rule that takes effect last before a local time; of several the last
one in the list. -/
def latestRule? (rules : List Rule) (bound : LocalTime) : Option Rule :=
  let occurrences := rules.filterMap fun rule =>
    (rule.lastBeforeTime? bound).map fun time => (time, rule)
  (lastGreatest? (fun a b => decide (a.1 < b.1)) occurrences).map Prod.snd

structure NamedPolicy where
  name : String
  rules : List Rule

structure Span where
  era : Era
  policy : Option NamedPolicy
  /-- The first instant, if there is one. -/
  start : Option Int
  /-- The first instant after the era, if there is one. -/
  stop : Option Int
  /-- The start in the local time of the era before. -/
  localStart : Option LocalTime

namespace Span

def policyName (s : Span) : String :=
  match s.policy with
  | some policy => policy.name
  | none => ""

def startsBy (s : Span) (instant : Int) : Bool :=
  s.start.all fun start => start ≤ instant

def stopsAfter (s : Span) (instant : Int) : Bool :=
  s.stop.all fun stop => instant < stop

def contains (s : Span) (instant : Int) : Bool :=
  s.startsBy instant && s.stopsAfter instant

/-- The saving in force just before a local time. -/
def saveBefore (zone : String) (s : Span) (bound : LocalTime) :
    Except BufferError Int :=
  match s.era.saving with
  | .standard => .ok 0
  | .fixed amount => .ok amount
  | .policy _ =>
    match s.policy with
    | none => .ok 0
    | some policy =>
      match latestRule? policy.rules bound with
      | some rule => .ok rule.save
      | none => .error (.noPriorRule zone policy.name bound.date.year)

def endSave (zone : String) (s : Span) (time : LocalTime) :
    Except BufferError Int :=
  match s.era.ends.frame with
  | .wall => s.saveBefore zone time
  | _ => .ok 0

end Span

def findPolicy (zone : String) (policies : Policies) (saving : Saving) :
    Except BufferError (Option NamedPolicy) :=
  match saving.policy? with
  | none => .ok none
  | some name =>
    match policies.get? name with
    | none => .error (.unknownPolicy zone name)
    | some [] => .error (.emptyPolicy zone name)
    | some rules => .ok (some ⟨name, rules⟩)

def Until.localTime? (u : Until) : Option LocalTime :=
  (Date.ofParts? u.year u.month u.day).map fun date => ⟨date, u.seconds⟩

def spansFrom (zone : String) (policies : Policies) (start : Option Int)
    (localStart : Option LocalTime) :
    List Era → Except BufferError (List Span)
  | [] => .ok []
  | era :: rest => do
    let policy ← findPolicy zone policies era.saving
    let span : Span := ⟨era, policy, start, none, localStart⟩
    if era.ends.isEndless then
      let spans ← spansFrom zone policies start localStart rest
      return span :: spans
    else
      match era.ends.localTime? with
      | none => .error (.noActiveEra zone era.ends.year)
      | some time =>
        let save ← span.endSave zone time
        let stop := time.unixSeconds -
          era.ends.frame.offset era.stdOffset save
        let spans ← spansFrom zone policies (some stop) (some time) rest
        return { span with stop := some stop } :: spans

def spans (zone : String) (policies : Policies) (eras : List Era) :
    Except BufferError (List Span) :=
  spansFrom zone policies none none eras

end ZoneTables
