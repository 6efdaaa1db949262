import ZoneTables.NameMap
import ZoneTables.Source.Field

/-!
# Source records

The records of source text as they are written: every field is read, but
nothing is compared with other records yet.
-/

namespace ZoneTables

structure SourceLine where
  file : String
  /-- The number of the line, from 1. -/
  line : Nat
  /-- The line without the blanks at its end. -/
  text : String
deriving DecidableEq

structure SourceRule where
  fromYear : Int
  toYear : Int
  month : Nat
  day : DaySpec
  time : Int
  frame : TimeFrame
  save : Int
  letter : String
  origin : SourceLine
deriving DecidableEq

structure SourceUntil where
  year : Int
  month : Nat
  day : DaySpec
  seconds : Int
  frame : TimeFrame
deriving DecidableEq

structure SourceEra where
  stdOffset : Int
  /-- The word for daylight saving: none, an amount, or a policy. -/
  rules : String
  format : String
  ends : Option SourceUntil
  origin : SourceLine
deriving DecidableEq

namespace SourceEra

def endYear (era : SourceEra) : Int :=
  match era.ends with
  | some u => u.year
  | none => Year.never

end SourceEra

structure SourceCounts where
  files : Nat
  lines : Nat
  rules : Nat
  zones : Nat
  eras : Nat
  links : Nat
  /-- Records that are known but of no use here. -/
  ignored : Nat
deriving DecidableEq

namespace SourceCounts

def zero : SourceCounts := ⟨0, 0, 0, 0, 0, 0, 0⟩

end SourceCounts

structure Source where
  policies : NameMap (List SourceRule)
  zones : NameMap (List SourceEra)
  /-- The target of each link. -/
  links : NameMap String
  counts : SourceCounts
deriving DecidableEq

namespace Source

def empty : Source := ⟨.empty, .empty, .empty, .zero⟩

end Source

inductive Record where
  | rule (policy : String) (rule : SourceRule)
  | zone (name : String) (era : SourceEra)
  | link (target name : String)
  | ignored (keyword : String)

/-- Puts a fault of a field in the place of a fault of its line. -/
def onLine {α : Type} : Except FieldError α → Except LineError α
  | .ok a => .ok a
  | .error fault => .error (.field fault)

namespace SourceRule

def read (origin : SourceLine) :
    List String → Except LineError SourceRule
  | [first, last, _, month, day, time, save, letter] => onLine do
    let fromYear ← Field.year first
    let toYear ← Field.lastYear last fromYear
    let (seconds, frame) ← Field.time time
    let inMonth ← Field.month month
    let on ← Field.daySpec day
    let amount ← Field.save save
    .ok ⟨fromYear, toYear, inMonth, on, seconds, frame, amount, letter, origin⟩
  | fields => .error (.fieldCount .rule (fields.length + 2))

end SourceRule

namespace SourceUntil

/-- Reads the year of an end and what follows of month, day and time; what is
missing is the first of its kind. -/
def read (year : String) (rest : List String) :
    Except FieldError SourceUntil := do
  let y ← Field.year year
  let month ← Field.optional Field.month 1 rest[0]?
  let day ← Field.optional Field.daySpec (.exact 1) rest[1]?
  let (seconds, frame) ← Field.optional Field.time (0, .wall) rest[2]?
  .ok ⟨y, month, day, seconds, frame⟩

def readEnd : List String → Except FieldError (Option SourceUntil)
  | [] => .ok none
  | year :: rest => do
    let ends ← read year rest
    .ok (some ends)

end SourceUntil

namespace SourceEra

/-- Reads the fields of an era: offset, daylight saving, format and at most
four fields of its end.  `before` fields stand before them on the line. -/
def read (kind : RecordKind) (before : Nat) (origin : SourceLine)
    (fields : List String) : Except LineError SourceEra :=
  match fields with
  | offset :: rules :: format :: rest =>
    if 4 < rest.length then
      .error (.fieldCount kind (fields.length + before))
    else onLine do
      let stdOffset ← Field.amount offset
      let ends ← SourceUntil.readEnd rest
      .ok ⟨stdOffset, rules, format, ends, origin⟩
  | _ => .error (.fieldCount kind (fields.length + before))

end SourceEra

namespace Record

def read (taken : String → Bool) (origin : SourceLine)
    (tokens : List String) : Except LineError Record :=
  match tokens with
  | [] => .error (.unknownKeyword "")
  | keyword :: fields =>
    let word := String.ofList (keyword.toList.map Char.toLower)
    if word = "rule" ∨ word = "r" then
      match fields with
      | policy :: rest =>
        if rest.length = 8 then
          (SourceRule.read origin rest).map (rule policy)
        else .error (.fieldCount .rule tokens.length)
      | [] => .error (.fieldCount .rule tokens.length)
    else if word = "zone" ∨ word = "z" then
      match fields with
      | name :: rest =>
        if taken name then .error (.duplicateZone name)
        else (SourceEra.read .zone 2 origin rest).map (zone name)
      | [] => .error (.fieldCount .zone tokens.length)
    else if word = "link" ∨ word = "l" then
      match fields with
      | [target, name] => .ok (link target name)
      | _ => .error (.fieldCount .link tokens.length)
    else if word = "leap" ∨ word = "expires" then .ok (ignored keyword)
    else .error (.unknownKeyword keyword)

end Record

end ZoneTables
