import ZoneTables.Database.Options
import ZoneTables.Database.Resolution
import ZoneTables.Name.Basic

/-!
# References and names

The faults of a source as a whole, for which nothing is made of it: a window
that cannot be used, links to links, names that are not defined, and names
that tables could not tell apart.
-/

namespace ZoneTables

inductive ValidationError where
  | emptyWindow (window : Window)
  | windowOutOfRange (window : Window)
  | unknownPolicy (zone policy : String)
  | unknownZone (link target : String)
  | linkToLink (link target : String)
  | duplicateName (name existing normalized : String)
  | hashCollision (name existing : String) (hash : UInt32)
deriving DecidableEq

namespace ValidationError

def message : ValidationError → String
  | emptyWindow window => "empty year window " ++ window.text
  | windowOutOfRange window =>
    s!"year window {window.text} is outside " ++
      s!"({Year.least}, {Year.endless}]"
  | unknownPolicy zone policy =>
    s!"zone '{zone}' references unknown policy '{policy}'"
  | unknownZone link target =>
    s!"link '{link}' targets unknown zone '{target}'"
  | linkToLink link target =>
    s!"link '{link}' targets '{target}', which is itself a link"
  | duplicateName name existing normalized =>
    s!"'{name}' and '{existing}' both normalize to '{normalized}'"
  | hashCollision name existing hash =>
    s!"'{name}' and '{existing}' share the name hash {Name.hashText hash}"

end ValidationError

/-- A name with the forms by which tables know it. -/
structure NameForms where
  name : String
  normalized : String
  hash : UInt32

def NameForms.of (name : String) : NameForms :=
  ⟨name, Name.normalize name, Name.hash name⟩

def Window.fault? (w : Window) : Option ValidationError :=
  if w.isEmpty then some (.emptyWindow w)
  else if !w.isInRange then some (.windowOutOfRange w)
  else none

namespace Source

def linkChain? (s : Source) : Option ValidationError :=
  s.links.entries.findSome? fun (name, target) =>
    if s.links.contains target then some (.linkToLink name target) else none

def unknownTarget? (s : Source) : Option ValidationError :=
  s.links.entries.findSome? fun (name, target) =>
    if s.zones.contains target then none else some (.unknownZone name target)

def unknownPolicy? (s : Source) : Option ValidationError :=
  s.zones.entries.findSome? fun (name, eras) =>
    eras.findSome? fun era =>
      era.policy?.bind fun policy =>
        if s.policies.contains policy then none
        else some (.unknownPolicy name policy)

/-- Whether a name has the form or the hash of an earlier one.  The form is
looked at first, and of several earlier names the last is reported. -/
def clash? (earlier : List NameForms) (name : NameForms) :
    Option ValidationError :=
  match earlier.find? fun other => other.normalized == name.normalized with
  | some other =>
    some (.duplicateName name.name other.name name.normalized)
  | none =>
    match earlier.find? fun other => other.hash == name.hash with
    | some other => some (.hashCollision name.name other.name name.hash)
    | none => none

/-- The first name that clashes with one before it; `earlier` holds these,
the last one in front. -/
def firstClash? (earlier : List NameForms) :
    List NameForms → Option ValidationError
  | [] => none
  | name :: rest =>
    match clash? earlier name with
    | some fault => some fault
    | none => firstClash? (name :: earlier) rest

def nameClash? (s : Source) : Option ValidationError :=
  firstClash? [] ((s.zones.keys ++ s.links.keys).map NameForms.of)

/-- The first fault of a source of which only some names were kept. -/
def fault? (s : Source) : Option ValidationError :=
  s.unknownTarget?.or (s.unknownPolicy?.or s.nameClash?)

end Source

end ZoneTables
