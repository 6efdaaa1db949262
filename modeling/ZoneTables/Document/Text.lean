import ZoneTables.Document.Basic
import ZoneTables.Json

/-!
# Text of documents

The document as a JSON value, with its members in a fixed order.
-/

namespace ZoneTables

def YearSpan.json (s : YearSpan) : Json :=
  .obj [("min", .int s.least), ("max", .int s.greatest)]

def NameSet.json (s : NameSet) : Json := .texts s.keys

def CommentMap.json (m : CommentMap) : Json := .ofMap NameSet.json m

def ZoneComments.json (c : ZoneComments) : Json :=
  .obj [("reasons", NameSet.json c.reasons),
    ("policies", CommentMap.json c.policies)]

def Comments.json (c : Comments) : Json :=
  .obj [
    ("removed_zones", CommentMap.json c.removedZones),
    ("removed_policies", CommentMap.json c.removedPolicies),
    ("removed_links", CommentMap.json c.removedLinks),
    ("notable_zones", CommentMap.json c.notableZones),
    ("notable_policies", CommentMap.json c.notablePolicies),
    ("notable_links", CommentMap.json c.notableLinks),
    ("merged_removed_zones", .ofMap ZoneComments.json c.mergedRemovedZones),
    ("merged_notable_zones", .ofMap ZoneComments.json c.mergedNotableZones)]

def TableCounts.json (c : TableCounts) : Json :=
  .obj [
    ("zones", .nat c.zones),
    ("links", .nat c.links),
    ("policies", .nat c.policies),
    ("eras", .nat c.eras),
    ("rules", .nat c.rules)]

def BufferSize.json (s : BufferSize) : Json :=
  .obj [("max", .nat s.size), ("year", .int s.year)]

def TableContext.json (c : TableContext) : Json :=
  .obj [
    ("tz_version", .str c.version),
    ("tz_version_number", .nat c.versionNumber),
    ("scope", .str c.scope.name),
    ("start_year", .int c.window.start),
    ("until_year", .int c.window.stop),
    ("start_year_accurate", .int c.accurate.start),
    ("until_year_accurate", .int c.accurate.stop),
    ("original_years", c.sourceYears.json),
    ("generated_years", c.years.json),
    ("lower_truncated", .bool c.cutBefore),
    ("upper_truncated", .bool c.cutAfter),
    ("offset_granularity", .int c.offsetGranularity),
    ("time_granularity", .int c.timeGranularity),
    ("save_granularity", .int c.saveGranularity),
    ("strict", .bool c.strict),
    ("counts", c.counts.json),
    ("max_buffer_size", .nat c.sizes.greatest),
    ("buffer_sizes", .ofMap BufferSize.json c.sizes.zones)]

def EraRecord.json (r : EraRecord) : Json :=
  .obj [
    ("std_offset_seconds", .int r.era.stdOffset),
    ("std_offset_code", .int r.codes.stdOffset),
    ("rules", .str r.era.saving.text),
    ("policy_index", .natOrNull r.policyIndex),
    ("fixed_save_seconds", .int r.era.saving.fixedAmount),
    ("fixed_save_code", .int r.codes.fixedSave),
    ("format", .str r.era.format),
    ("format_index", .nat r.formatIndex),
    ("until_year", .int r.era.ends.year),
    ("until_year_code", .int r.codes.untilYear),
    ("until_month", .nat r.era.ends.month),
    ("until_day", .nat r.era.ends.day),
    ("until_seconds", .int r.era.ends.seconds),
    ("until_time_code", .int r.codes.untilTime),
    ("until_suffix", .str r.era.ends.frame.name),
    ("raw_line", .str r.era.text)]

def ZoneRecord.json (r : ZoneRecord) : Json :=
  .obj [
    ("index", .nat r.index),
    ("id", .nat r.id.toNat),
    ("normalized_name", .str r.normalized),
    ("compressed_name", .str r.compressed),
    ("eras", .arr (r.eras.map EraRecord.json))]

def RuleRecord.json (r : RuleRecord) : Json :=
  .obj [
    ("from_year", .int r.rule.fromYear),
    ("from_year_code", .int r.codes.fromYear),
    ("to_year", .int r.rule.toYear),
    ("to_year_code", .int r.codes.toYear),
    ("in_month", .nat r.rule.month),
    ("on", .str r.rule.day.text),
    ("on_day_of_week", .nat r.codes.weekday),
    ("on_day_of_month", .int r.codes.monthDay),
    ("at_seconds", .int r.rule.time),
    ("at_code", .int r.codes.time),
    ("at_suffix", .str r.rule.frame.name),
    ("save_seconds", .int r.rule.save),
    ("save_code", .int r.codes.save),
    ("letter", .str r.rule.letter),
    ("letter_index", .nat r.letterIndex),
    ("anchor", .bool r.rule.isAnchor),
    ("raw_line", .str r.rule.text)]

def PolicyRecord.json (r : PolicyRecord) : Json :=
  .obj [("index", .nat r.index), ("rules", .arr (r.rules.map RuleRecord.json))]

def LinkRecord.json (r : LinkRecord) : Json :=
  .obj [
    ("target", .str r.target),
    ("target_index", .nat r.targetIndex),
    ("id", .nat r.id.toNat),
    ("normalized_name", .str r.normalized),
    ("compressed_name", .str r.compressed)]

namespace Document

def json (d : Document) : Json :=
  .obj [
    ("context", d.context.json),
    ("letters", .texts d.letters.entries),
    ("formats", .texts d.formats.entries),
    ("fragments", .texts d.fragments.entries),
    ("zones", .ofMap ZoneRecord.json d.zones),
    ("policies", .ofMap PolicyRecord.json d.policies),
    ("links", .ofMap LinkRecord.json d.links),
    ("comments", d.comments.json)]

def text (d : Document) : String := d.json.text

end Document

end ZoneTables
