/-!
# Frames of reference for times of day
-/

namespace ZoneTables

inductive TimeFrame where
  /-- Local time as it is in force. -/
  | wall
  /-- Local time without daylight saving. -/
  | standard
  /-- Universal time. -/
  | utc
deriving DecidableEq

namespace TimeFrame

def ofLetter? (c : Char) : Option TimeFrame :=
  match c.toLower with
  | 'w' => some wall
  | 's' => some standard
  | 'u' | 'g' | 'z' => some utc
  | _ => none

def letter : TimeFrame → Char
  | wall => 'w'
  | standard => 's'
  | utc => 'u'

def name : TimeFrame → String
  | wall => "wall"
  | standard => "standard"
  | utc => "utc"

/-- The seconds to take from a time of this frame to get universal time. -/
def offset (stdOffset save : Int) : TimeFrame → Int
  | wall => stdOffset + save
  | standard => stdOffset
  | utc => 0

end TimeFrame

end ZoneTables
