import ZoneTables.Buffer.Candidate
import ZoneTables.Log
import ZoneTables.Text.Quoted

/-!
# Replay of a zone

A zone is replayed year by year.  All candidates of a year are held at once,
so their number is the room that the year needs.  Only the saving in force is
carried from year to year.
-/

namespace ZoneTables

def daySeconds : Int := 86400

/-- How far a local date can lie from the year that it is reckoned to. -/
def yearSlack : Int := 2 * daySeconds

/-- The instants of a year in universal time. -/
structure YearBounds where
  start : Int
  stop : Int

def yearBounds? (year : Int) : Option YearBounds :=
  match Date.ofParts? year 1 1, Date.ofParts? (year + 1) 1 1 with
  | some first, some next =>
    some ⟨first.unixSeconds 0, next.unixSeconds 0⟩
  | _, _ => none

def Span.isActive (bounds : YearBounds) (s : Span) : Bool :=
  (s.start.all fun start => start < bounds.stop + yearSlack) &&
    s.stopsAfter (bounds.start - yearSlack)

def Span.startsIn (bounds : YearBounds) (s : Span) : Bool :=
  s.start.any fun start => bounds.start ≤ start && start < bounds.stop

structure ZoneReplay where
  zone : String
  spans : List Span

/-- A span that has to do with a year, and its position in the zone. -/
structure ActiveSpan where
  index : Nat
  span : Span
  /-- The candidate at the start of the span, if it starts in the year. -/
  start : Option Candidate

/-- An occurrence of a rule in a span, in local time. -/
structure Pending where
  active : ActiveSpan
  index : Nat
  rule : Rule
  seconds : Int

namespace Pending

/-- The seconds in standard time, by which occurrences are put in order. -/
def standardSeconds (p : Pending) : Int :=
  p.seconds - p.active.span.era.stdOffset

def inOrder (ps : List Pending) : List Pending :=
  sortByKey standardSeconds ps

def candidate (p : Pending) (save : Int) : Candidate :=
  { instant := p.seconds -
      p.rule.frame.offset p.active.span.era.stdOffset save
    policy := p.active.span.policyName
    origin := .rule p.index
    save := p.rule.save }

/-- The saving before the next occurrence: at the first occurrence of a span
that starts in the year, the one that it starts with. -/
def saveBefore (save : Int) (previous : Option Nat) (p : Pending) : Int :=
  if previous = some p.active.index then save
  else (p.active.start.map (·.save)).getD save

/-- The candidates of ordered occurrences, of which each is converted with
the saving of the one before it.  Those outside their span are left out. -/
def candidates (save : Int) (previous : Option Nat) :
    List Pending → List Candidate
  | [] => []
  | p :: rest =>
    let before := p.saveBefore save previous
    let c := p.candidate before
    if p.active.span.contains c.instant then
      c :: candidates c.save (some p.active.index) rest
    else candidates before (some p.active.index) rest

end Pending

namespace ActiveSpan

def pending (year : Int) (a : ActiveSpan) :
    Except BufferError (List Pending) :=
  match a.span.policy with
  | none => .ok []
  | some policy =>
    (policy.rules.zipIdx.filter fun p => p.1.covers year).mapM
      fun (rule, index) =>
        match rule.occurrence? year with
        | some time => .ok ⟨a, index, rule, time.unixSeconds⟩
        | none => .error (.invalidRuleDate policy.name year)

end ActiveSpan

namespace ZoneReplay

def noActiveEra (z : ZoneReplay) (year : Int) : BufferError :=
  .noActiveEra z.zone year

/-- A span in a year.  The saving at its start is looked up a second later,
so that a rule which takes effect there counts. -/
def activate (z : ZoneReplay) (bounds : YearBounds) (index : Nat)
    (span : Span) : Except BufferError ActiveSpan :=
  match span.start, span.localStart with
  | some start, some time =>
    if span.startsIn bounds then do
      let save ← span.saveBefore z.zone time.nextSecond
      .ok ⟨index, span,
        some ⟨start, span.policyName, .eraStart index, save⟩⟩
    else .ok ⟨index, span, none⟩
  | _, _ => .ok ⟨index, span, none⟩

def collect (z : ZoneReplay) (year : Int) (bounds : YearBounds) :
    List (Span × Nat) →
      Except BufferError (List Candidate × List Pending)
  | [] => .ok ([], [])
  | (span, index) :: rest => do
    let active ← z.activate bounds index span
    let pending ← active.pending year
    let (starts, more) ← z.collect year bounds rest
    .ok (active.start.toList ++ starts, pending ++ more)

def found (z : ZoneReplay) (year save : Int) :
    Except BufferError (List Candidate) :=
  match yearBounds? year with
  | none => .error (z.noActiveEra year)
  | some bounds =>
    let active := z.spans.zipIdx.filter fun p => p.1.isActive bounds
    if active.isEmpty then .error (z.noActiveEra year)
    else do
      let (starts, pending) ← z.collect year bounds active
      return starts ++
        Pending.candidates save none (Pending.inOrder pending)

def candidates (z : ZoneReplay) (year save : Int) :
    Except BufferError (List Candidate) :=
  (z.found year save).map Candidate.inOrder

def initialSave (z : ZoneReplay) (year : Int) : Except BufferError Int :=
  match Date.ofParts? year 1 1 with
  | none => .error (z.noActiveEra year)
  | some date =>
    match z.spans.find? fun span => span.contains (date.unixSeconds 0) with
    | none => .error (z.noActiveEra year)
    | some span => span.saveBefore z.zone ⟨date, 1⟩

end ZoneReplay

structure ReplayedYear where
  year : Int
  candidates : List Candidate

namespace ReplayedYear

def need (y : ReplayedYear) : Nat := max y.candidates.length 1

def ties (zone : String) (y : ReplayedYear) : Log :=
  (Candidate.groups y.candidates).filterMap fun group =>
    if group.length ≤ 1 then none
    else (Candidate.winner? group).map fun c =>
      ⟨.trace, s!"zone {zone}: {group.length} candidates at {c.instant}, " ++
        s!"kept ({Text.quote c.policy}, {c.origin.text})"⟩

end ReplayedYear

/-- The years of a zone that were replayed, the last one in front, and what
ended the replay early. -/
structure ReplayedZone where
  years : List ReplayedYear
  fault : Option BufferError

namespace ZoneReplay

def years (z : ZoneReplay) (done : List ReplayedYear) (save year : Int) :
    Nat → ReplayedZone
  | 0 => ⟨done, none⟩
  | count + 1 =>
    match z.candidates year save with
    | .error fault => ⟨done, some fault⟩
    | .ok cs =>
      z.years (⟨year, cs⟩ :: done) (Candidate.saveAfter save cs) (year + 1)
        count

/-- Replays the years before, in and after a window. -/
def window (z : ZoneReplay) (w : Window) : ReplayedZone :=
  match z.initialSave (w.start - 1) with
  | .error fault => ⟨[], some fault⟩
  | .ok save =>
    z.years [] save (w.start - 1) (w.stop + 1 - (w.start - 1)).toNat

end ZoneReplay

end ZoneTables
