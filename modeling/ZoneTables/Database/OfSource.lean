import ZoneTables.Database.Anomaly
import ZoneTables.Database.Basic
import ZoneTables.Database.Reference
import ZoneTables.Database.SimpleRules
import ZoneTables.Retention.Eras
import ZoneTables.Retention.Rules

/-!
# Making a database

A source is checked as a whole first.  Then its zones and policies go through
one review after another: retention of eras, resolution, retention of rules,
and simplicity where the scope asks for it.  A zone goes with a policy that it
refers to, and a link with its zone.
-/

namespace ZoneTables

structure Restricted where
  source : Source
  findings : List Finding

namespace Source

/-- Keeps the zones and links that may be kept, and no link to a zone that may
not. -/
def restrict (o : Options) (s : Source) : Restricted :=
  let zones := s.zones.review .zone fun name eras =>
    if o.includes name then .keep eras else .remove .notIncluded
  let links := s.links.review .link fun name target =>
    if !o.includes name then .remove .notIncluded
    else if s.zones.contains target && !o.includes target then
      .remove (.targetNotIncluded target)
    else .keep target
  { source := { s with zones := zones.kept, links := links.kept }
    findings := zones.findings ++ links.findings }

def policyUse (s : Source) : PolicyUse :=
  s.zones.map fun _ eras => .ofList (eras.filterMap SourceEra.policy?)

def years (s : Source) : YearSpan :=
  .ofList (s.zones.values.flatten.map SourceEra.endYear ++
    s.policies.values.flatten.flatMap fun r => [r.fromYear, r.toYear])

end Source

namespace Zones

def policyUse (zones : Zones) : PolicyUse :=
  zones.map fun _ eras => .ofList (eras.filterMap (·.saving.policy?))

def reviewPolicies (policies : Policies) (zones : Zones) :
    Reviewed (List Era) :=
  zones.review .zone fun _ eras =>
    match (eras.filterMap (·.saving.policy?)).find? fun policy =>
        !policies.contains policy with
    | some policy => .remove (.policyRemoved policy)
    | none => .keep eras

end Zones

namespace Links

def reviewTargets (zones : Zones) (links : Links) : Reviewed String :=
  links.review .link fun _ target =>
    if zones.contains target then .keep target
    else .remove (.targetRemoved target)

end Links

/-- The years of zones and policies, without anchors. -/
def tableYears (zones : Zones) (policies : Policies) : YearSpan :=
  .ofList (zones.values.flatten.map (·.ends.year) ++
    (policies.values.flatten.filter fun r => !r.isAnchor).flatMap fun r =>
      [r.fromYear, r.toYear])

/-- The reviews that the zones, policies and links of a source go through, each
with what the ones before it left. -/
structure Passes where
  trimmed : NameMap TrimmedZone
  inWindow : Reviewed (List SourceEra)
  resolvedZones : Reviewed (List Era)
  simpleZones : Reviewed (List Era)
  resolvedPolicies : Reviewed (List Rule)
  usableZones : Reviewed (List Era)
  usableLinks : Reviewed String
  selections : NameMap RuleSelection
  selectedPolicies : Reviewed (List Rule)
  simplePolicies : Reviewed (List Rule)
  zones : Reviewed (List Era)
  links : Reviewed String
  policies : Reviewed (List Rule)

namespace Passes

/-- The reviews of a source without faults. -/
def of (o : Options) (source : Source) : Passes :=
  let widths := o.widths
  let window := o.window
  let trimmed := source.zones.map fun _ eras => TrimmedZone.of window eras
  let inWindow := trimmed.review .zone fun _ zone => zone.review window
  let resolvedZones := inWindow.kept.review .zone fun _ eras =>
    resolveZone widths o.strict eras
  let simpleZones := resolvedZones.kept.review .zone fun _ eras =>
    if widths.simpleRules then reviewSimpleZone eras else .keep eras
  let used := Zones.policyNames simpleZones.kept
  let resolvedPolicies := source.policies.review .policy fun name rules =>
    if used.contains name then resolvePolicy widths o.strict rules
    else .remove .unused
  let usableZones := Zones.reviewPolicies resolvedPolicies.kept simpleZones.kept
  let usableLinks := Links.reviewTargets usableZones.kept source.links
  let selections := resolvedPolicies.kept.map fun name rules =>
    RuleSelection.of (policyYears window usableZones.kept name) rules
  let selectedPolicies := selections.review .policy fun _ s => s.review window
  let simplePolicies := selectedPolicies.kept.review .policy fun _ rules =>
    if widths.simpleRules then reviewSimplePolicy rules else .keep rules
  let zones := Zones.reviewPolicies simplePolicies.kept usableZones.kept
  let links := Links.reviewTargets zones.kept usableLinks.kept
  let stillUsed := Zones.policyNames zones.kept
  let policies := simplePolicies.kept.review .policy fun name rules =>
    if stillUsed.contains name then .keep rules else .remove .unused
  { trimmed, inWindow, resolvedZones, simpleZones, resolvedPolicies,
    usableZones, usableLinks, selections, selectedPolicies, simplePolicies,
    zones, links, policies }

def findings (p : Passes) : List Finding :=
  p.inWindow.findings ++ p.resolvedZones.findings ++ p.simpleZones.findings ++
    p.resolvedPolicies.findings ++ p.usableZones.findings ++
    p.usableLinks.findings ++ p.selectedPolicies.findings ++
    p.simplePolicies.findings ++ p.zones.findings ++ p.links.findings ++
    p.policies.findings

def cutsBefore (window : Window) (p : Passes) : Bool :=
  p.trimmed.values.any (fun zone => zone.tooOld != 0) ||
    p.selections.values.any fun s => s.cutsBefore window

def cutsAfter (window : Window) (p : Passes) : Bool :=
  p.trimmed.values.any (fun zone => zone.tooNew != 0) ||
    p.selections.values.any fun s => s.cutsAfter window

end Passes

namespace Database

def summary (db : Database) : LogLine :=
  let c := db.comments
  ⟨.info, s!"transformed into {db.zones.size} zones, " ++
    s!"{db.policies.size} policies, {db.links.size} links " ++
    s!"(removed {c.removedZones.size} zones, " ++
    s!"{c.removedPolicies.size} policies, {c.removedLinks.size} links)"⟩

structure Made where
  database : Database
  findings : List Finding

/-- Makes a database of a source without faults; `found` is what was found
before. -/
def make (o : Options) (source : Source) (found : List Finding) : Made :=
  let passes := Passes.of o source
  let zones := passes.zones.kept
  let policies := passes.policies.kept
  let findings := found ++ passes.findings ++ anomalyFindings zones policies
  { database :=
      { zones
        policies
        links := passes.links.kept
        comments := .ofFindings findings source.policyUse
          (Zones.policyUse zones)
        window := o.window
        widths := o.widths
        strict := o.strict
        cutBefore := passes.cutsBefore o.window
        cutAfter := passes.cutsAfter o.window
        sourceYears := source.years
        years := tableYears zones policies }
    findings }

structure Making where
  log : Log
  result : Except ValidationError Database

def ofSource (o : Options) (source : Source) : Making :=
  match o.window.fault?.or source.linkChain? with
  | some fault => ⟨[], .error fault⟩
  | none =>
    let restricted := source.restrict o
    match restricted.source.fault? with
    | some fault => ⟨Finding.log restricted.findings, .error fault⟩
    | none =>
      let made := make o restricted.source restricted.findings
      ⟨Finding.log made.findings ++ [made.database.summary],
        .ok made.database⟩

end Database

end ZoneTables
