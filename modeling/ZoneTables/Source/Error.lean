/-!
# Faults of source text

Every fault names what was wrong on the line; the position is put around it.
-/

namespace ZoneTables

inductive FieldError where
  | invalidYear (token : String)
  | reversedYears (first last : Int)
  | invalidMonth (token : String)
  | invalidDay (token : String)
  | invalidTime (token : String)
  | invalidSuffix (token : String)
deriving DecidableEq

namespace FieldError

def message : FieldError → String
  | invalidYear token => s!"invalid year '{token}'"
  | reversedYears first last => s!"FROM year {first} is after TO year {last}"
  | invalidMonth token => s!"invalid month '{token}'"
  | invalidDay token => s!"invalid day specification '{token}'"
  | invalidTime token => s!"invalid time '{token}'"
  | invalidSuffix token => s!"invalid time suffix in '{token}'"

end FieldError

inductive RecordKind where
  | rule
  | zone
  | continuation
  | link
deriving DecidableEq

namespace RecordKind

def label : RecordKind → String
  | rule => "Rule"
  | zone => "Zone"
  | continuation => "continuation"
  | link => "Link"

end RecordKind

inductive LineError where
  | field (fault : FieldError)
  | unknownKeyword (token : String)
  | fieldCount (kind : RecordKind) (found : Nat)
  | orphanContinuation
  | unterminatedZone (zone : String)
  | duplicateZone (zone : String)
  | duplicateLink (link : String)
deriving DecidableEq

namespace LineError

def message : LineError → String
  | field fault => fault.message
  | unknownKeyword token => s!"unknown record keyword '{token}'"
  | fieldCount kind found => s!"{kind.label} line has {found} fields"
  | orphanContinuation => "continuation line without an open zone"
  | unterminatedZone zone =>
    s!"zone '{zone}' ends with an era that has an UNTIL"
  | duplicateZone zone => s!"duplicate zone '{zone}'"
  | duplicateLink link => s!"duplicate link '{link}'"

end LineError

structure SourceError where
  file : String
  line : Nat
  fault : LineError
deriving DecidableEq

namespace SourceError

def message (e : SourceError) : String :=
  s!"{e.file}:{e.line}: {e.fault.message}"

end SourceError

end ZoneTables
