import ZoneTables.Log
import ZoneTables.Source.Record
import ZoneTables.Text.Blank
import ZoneTables.Text.Lines

/-!
# Reading source text

Texts are read line by line.  A zone stays open while its last era has an
end, and then the next line that is not empty must continue it; such lines
start with a blank, all others do not.  The first line that breaks these
rules ends the reading of its text, and what was read before it stays.
-/

namespace ZoneTables

structure ReaderState where
  source : Source
  /-- The zone that the next record has to continue. -/
  openZone : Option String

structure LineOutcome where
  state : ReaderState
  log : Log
  fault : Option LineError

def lineContent (line : List Char) : List Char :=
  Text.trimEnd (Text.beforeMark '#' line)

namespace Source

def addRule (s : Source) (policy : String) (rule : SourceRule) : Source :=
  { s with
    policies := s.policies.alter policy fun rules => rules.getD [] ++ [rule]
    counts := { s.counts with rules := s.counts.rules + 1 } }

def addEra (s : Source) (zone : String) (era : SourceEra) : Source :=
  { s with
    zones := s.zones.alter zone fun eras => eras.getD [] ++ [era]
    counts := { s.counts with eras := s.counts.eras + 1 } }

def addZone (s : Source) (zone : String) (era : SourceEra) : Source :=
  let s := s.addEra zone era
  { s with counts := { s.counts with zones := s.counts.zones + 1 } }

/-- Stores the target of a link, over an old one. -/
def setLink (s : Source) (name target : String) : Source :=
  { s with links := s.links.insert name target }

def countLine (s : Source) : Source :=
  { s with counts := { s.counts with lines := s.counts.lines + 1 } }

def countLink (s : Source) : Source :=
  { s with counts := { s.counts with links := s.counts.links + 1 } }

def countIgnored (s : Source) : Source :=
  { s with counts := { s.counts with ignored := s.counts.ignored + 1 } }

def countFile (s : Source) : Source :=
  { s with counts := { s.counts with files := s.counts.files + 1 } }

end Source

namespace ReaderState

def openAfter (zone : String) (era : SourceEra) : Option String :=
  era.ends.map fun _ => zone

def addRecord (origin : SourceLine) (source : Source) :
    Record → LineOutcome
  | .rule policy rule => ⟨⟨source.addRule policy rule, none⟩, [], none⟩
  | .zone name era =>
    ⟨⟨source.addZone name era, openAfter name era⟩, [], none⟩
  | .link target name =>
    let stored := source.setLink name target
    if source.links.contains name then
      ⟨⟨stored, none⟩, [], some (.duplicateLink name)⟩
    else ⟨⟨stored.countLink, none⟩, [], none⟩
  | .ignored keyword =>
    ⟨⟨source.countIgnored, none⟩,
      [⟨.debug, s!"{origin.file}:{origin.line}: ignoring '{keyword}' record"⟩],
      none⟩

def readContent (origin : SourceLine) (s : ReaderState)
    (content : List Char) : LineOutcome :=
  let tokens := (Text.words content).map String.ofList
  if content.head?.any Text.isBlank then
    match s.openZone with
    | none => ⟨s, [], some .orphanContinuation⟩
    | some zone =>
      match SourceEra.read .continuation 0 origin tokens with
      | .error fault => ⟨s, [], some fault⟩
      | .ok era => ⟨⟨s.source.addEra zone era, openAfter zone era⟩, [], none⟩
  else
    match s.openZone with
    | some zone => ⟨s, [], some (.unterminatedZone zone)⟩
    | none =>
      match Record.read s.source.zones.contains origin tokens with
      | .error fault => ⟨s, [], some fault⟩
      | .ok record => addRecord origin s.source record

def readLine (file : String) (number : Nat) (line : List Char)
    (s : ReaderState) : LineOutcome :=
  let s := { s with source := s.source.countLine }
  let content := lineContent line
  if content.isEmpty then ⟨s, [], none⟩
  else
    s.readContent ⟨file, number, String.ofList (Text.trimEnd line)⟩ content

end ReaderState

/-- The result of reading: the records so far, also those before a fault. -/
structure Reading where
  source : Source
  log : Log
  fault : Option SourceError

namespace Reading

def lines (file : String) (number : Nat) (s : ReaderState) (log : Log) :
    List (List Char) → Reading
  | [] =>
    match s.openZone with
    | some zone =>
      ⟨s.source, log, some ⟨file, number - 1, .unterminatedZone zone⟩⟩
    | none => ⟨s.source.countFile, log, none⟩
  | line :: rest =>
    let outcome := s.readLine file number line
    let log := log ++ outcome.log
    match outcome.fault with
    | some fault => ⟨outcome.state.source, log, some ⟨file, number, fault⟩⟩
    | none => lines file (number + 1) outcome.state log rest

end Reading

structure SourceText where
  name : String
  text : String

namespace Source

def readText (s : Source) (t : SourceText) : Reading :=
  Reading.lines t.name 1 ⟨s, none⟩ [] (Text.lines t.text.toList)

def readTexts (s : Source) (log : Log) : List SourceText → Reading
  | [] => ⟨s, log, none⟩
  | t :: rest =>
    let reading := s.readText t
    match reading.fault with
    | some fault => ⟨reading.source, log ++ reading.log, some fault⟩
    | none => readTexts reading.source (log ++ reading.log) rest

def summary (s : Source) : LogLine :=
  let c := s.counts
  ⟨.info, s!"extracted {c.rules} rules in {s.policies.size} policies, " ++
    s!"{c.zones} zones with {c.eras} eras, {c.links} links " ++
    s!"({c.lines} lines, {c.ignored} ignored)"⟩

end Source

end ZoneTables
