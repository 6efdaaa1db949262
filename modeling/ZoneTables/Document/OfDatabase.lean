import ZoneTables.Document.Coding
import ZoneTables.Document.Version
import ZoneTables.Name.Basic
import ZoneTables.Name.Fragment

/-!
# Making a document

Every record of a database gets its codes and its place.  A document is made
only if every value has a code.
-/

namespace ZoneTables

namespace Database

def letters (db : Database) : StringTable :=
  .ofList 0 (db.policies.values.flatten.map (·.letter))

def formats (db : Database) : StringTable :=
  .ofList 0 (db.zones.values.flatten.map (·.format))

/-- The leading parts that many names share. -/
def fragments (db : Database) : StringTable :=
  Name.fragmentTable (db.zones.keys ++ db.links.keys)

def ruleRecord (db : Database) (letters : StringTable) (policy : String)
    (rule : Rule) : Except CodingError RuleRecord := do
  let codes ← db.widths.codeRule policy rule
  return ⟨rule, codes, (letters.index? rule.letter).getD 0⟩

def eraRecord (db : Database) (formats : StringTable) (zone : String)
    (era : Era) : Except CodingError EraRecord := do
  let codes ← db.widths.codeEra zone era
  return {
    era
    codes
    policyIndex := era.saving.policy?.bind db.policies.indexOf?
    formatIndex := (formats.index? era.format).getD 0 }

def policyRecords (db : Database) (letters : StringTable) :
    Except CodingError (NameMap PolicyRecord) :=
  db.policies.traverse fun name rules => do
    let records ← rules.mapM (db.ruleRecord letters name)
    return ⟨(db.policies.indexOf? name).getD 0, records⟩

def zoneRecords (db : Database) (formats fragments : StringTable) :
    Except CodingError (NameMap ZoneRecord) :=
  db.zones.traverse fun name eras => do
    let records ← eras.mapM (db.eraRecord formats name)
    return {
      index := (db.zones.indexOf? name).getD 0
      id := Name.hash name
      normalized := Name.normalize name
      compressed := Name.compress fragments name
      eras := records }

def linkRecords (db : Database) (fragments : StringTable) :
    NameMap LinkRecord :=
  db.links.filterMap fun name target =>
    (db.zones.indexOf? target).map fun targetIndex => {
      target
      targetIndex
      id := Name.hash name
      normalized := Name.normalize name
      compressed := Name.compress fragments name }

end Database

def TableCounts.of (zones : NameMap ZoneRecord)
    (policies : NameMap PolicyRecord) (links : NameMap LinkRecord) :
    TableCounts where
  zones := zones.size
  links := links.size
  policies := policies.size
  eras := (zones.values.flatMap (·.eras)).length
  rules := (policies.values.flatMap (·.rules)).length

namespace Document

def summary (d : Document) : LogLine :=
  let c := d.context.counts
  ⟨.info, s!"assembled {c.zones} zones, {c.links} links, " ++
    s!"{c.policies} policies; {d.letters.size} letters, " ++
    s!"{d.formats.size} formats, {d.fragments.size} fragments"⟩

structure Making where
  log : Log
  result : Except CodingError Document

/-- Makes the records of a database, up to the first value without a code. -/
def build (db : Database) (sizes : BufferSizes) (version : String) :
    Except CodingError Document := do
  let letters := db.letters
  let formats := db.formats
  let fragments := db.fragments
  if Name.maxFragments < fragments.size then
    .error ⟨.fragments, .fragmentCount, fragments.size, db.widths.scope⟩
  else
    let policies ← db.policyRecords letters
    let zones ← db.zoneRecords formats fragments
    let links := db.linkRecords fragments
    return {
      context := {
        version
        versionNumber := Version.number version
        scope := db.widths.scope
        window := db.window
        accurate := ⟨db.accurateFrom, db.accurateUntil⟩
        sourceYears := db.sourceYears
        years := db.years
        cutBefore := db.cutBefore
        cutAfter := db.cutAfter
        offsetGranularity := db.widths.stdOffset.granularity
        timeGranularity := db.widths.time.granularity
        saveGranularity := db.widths.save.granularity
        strict := db.strict
        counts := .of zones policies links
        sizes }
      letters
      formats
      fragments
      zones
      policies
      links
      comments := db.comments }

def ofDatabase (db : Database) (sizes : BufferSizes) (version : String) :
    Making :=
  match build db sizes version with
  | .error fault => ⟨[], .error fault⟩
  | .ok document =>
    ⟨Version.warning version ++ [document.summary], .ok document⟩

end Document

end ZoneTables
