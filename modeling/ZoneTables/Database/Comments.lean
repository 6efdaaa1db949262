import ZoneTables.Database.Finding

/-!
# Comments

The findings about a database in the form in which they are kept with it:
sets of texts by name.  The comments of a policy are repeated at every zone
that uses the policy.
-/

namespace ZoneTables

abbrev CommentMap := NameMap NameSet

namespace CommentMap

def add (m : CommentMap) (name text : String) : CommentMap :=
  m.alter name fun texts => NameSet.insert (texts.getD .empty) text

def removals (subject : Subject) (findings : List Finding) : CommentMap :=
  findings.foldl
    (fun m finding =>
      match finding with
      | .removed kind name why =>
        if kind = subject then m.add name why.message else m
      | .noted .. => m)
    .empty

def notes (subject : Subject) (findings : List Finding) : CommentMap :=
  findings.foldl
    (fun m finding =>
      match finding with
      | .noted kind name note =>
        if kind = subject ∧ note.isComment then m.add name note.message else m
      | .removed .. => m)
    .empty

end CommentMap

structure ZoneComments where
  reasons : NameSet
  policies : CommentMap
deriving DecidableEq

abbrev PolicyUse := NameMap NameSet

/-- Puts the comments on policies beside those on the zones that use them.
Zones without either have no entry. -/
def mergeComments (zones policies : CommentMap) (use : PolicyUse) :
    NameMap ZoneComments :=
  let own := zones.map fun _ reasons =>
    (⟨reasons, .empty⟩ : ZoneComments)
  use.entries.foldl
    (fun merged (zone, names) =>
      let inherited :=
        policies.filter fun policy _ => names.contains policy
      if inherited.isEmpty then merged
      else merged.alter zone fun entry =>
        match entry with
        | some comments => { comments with policies := inherited }
        | none => ⟨.empty, inherited⟩)
    own

structure Comments where
  removedZones : CommentMap
  removedPolicies : CommentMap
  removedLinks : CommentMap
  notableZones : CommentMap
  notablePolicies : CommentMap
  notableLinks : CommentMap
  mergedRemovedZones : NameMap ZoneComments
  mergedNotableZones : NameMap ZoneComments
deriving DecidableEq

namespace Comments

def empty : Comments :=
  ⟨.empty, .empty, .empty, .empty, .empty, .empty, .empty, .empty⟩

/-- The comments that findings give.  Removed zones are merged with the
policies of their source, kept zones with those that they refer to. -/
def ofFindings (findings : List Finding) (sourceUse keptUse : PolicyUse) :
    Comments :=
  let removedZones := CommentMap.removals .zone findings
  let removedPolicies := CommentMap.removals .policy findings
  let notableZones := CommentMap.notes .zone findings
  let notablePolicies := CommentMap.notes .policy findings
  { removedZones
    removedPolicies
    removedLinks := .removals .link findings
    notableZones
    notablePolicies
    notableLinks := .notes .link findings
    mergedRemovedZones :=
      mergeComments removedZones removedPolicies
        (sourceUse.filter fun zone _ => removedZones.contains zone)
    mergedNotableZones := mergeComments notableZones notablePolicies keptUse }

end Comments

end ZoneTables
