import ZoneTables.Compilation
import ZoneTables.Proofs.Checked.Measuring
import ZoneTables.Proofs.Text.Letters

/-!
# Compilation in words of 32 bits

The stages are put together as they are without checks, and no number of a
compilation overflows: amounts of time have few digits, and the window is checked
before its years are used.
-/

namespace ZoneTables.Checked

/-! ## Codes -/

def dayCodes : DaySpec → Checked (Nat × Int)
  | .exact day => return (0, ← signed day)
  | .last w => return (w.isoNumber, 0)
  | .onOrAfter w day => return (w.isoNumber, ← signed day)
  | .onOrBefore w day => return (w.isoNumber, ← neg day)

def codeRule (w : Widths) (policy : String) (r : Rule) :
    Checked (Except CodingError RuleCodes) := do
  let (weekday, monthDay) ← dayCodes r.day
  let owner := Owner.policy policy
  return do
    let fromYear ← w.codeYear owner .fromYear r.fromYear
    let toYear ← w.codeYear owner .toYear r.toYear
    let time ← w.codeTime owner .ruleTime r.time
    let save ← w.codeSave owner .save r.save
    return { fromYear, toYear, weekday, monthDay, time, save }

def ruleRecord (db : Database) (letters : StringTable) (policy : String)
    (rule : Rule) : Checked (Except CodingError RuleRecord) := do
  let codes ← codeRule db.widths policy rule
  return do
    let codes ← codes
    return ⟨rule, codes, (letters.index? rule.letter).getD 0⟩

def policyRecords (db : Database) (letters : StringTable) :
    Checked (Except CodingError (NameMap PolicyRecord)) := do
  let records ← db.policies.traverse fun name rules => do
    let records ← rules.mapM (ruleRecord db letters name)
    return do
      let records ← records.mapM id
      return PolicyRecord.mk ((db.policies.indexOf? name).getD 0) records
  return records.traverse fun _ r => r

def versionNumber? (tag : String) : Checked (Option Nat) :=
  match tag.toList with
  | [a, b, c, d, letter] =>
    if letter.isLower then
      match Text.readUnsigned? [a, b, c, d] with
      | none => return none
      | some year =>
        if 2000 ≤ year then do
          let years ← unsigned (year - 2000)
          let hundreds ← unsigned (years * 100)
          let place ← unsigned (letter.toNat - 'a'.toNat)
          let position ← unsigned (place + 1)
          return some (← unsigned (hundreds + position))
        else return none
    else return none
  | _ => return none

def build (db : Database) (sizes : BufferSizes) (version : String) :
    Checked (Except CodingError Document) := do
  let letters := db.letters
  let formats := db.formats
  let fragments := db.fragments
  if Name.maxFragments < fragments.size then
    return .error ⟨.fragments, .fragmentCount, fragments.size, db.widths.scope⟩
  else
    let policies ← policyRecords db letters
    let number ← versionNumber? version
    return do
      let policies ← policies
      let zones ← db.zoneRecords formats fragments
      let links := db.linkRecords fragments
      return {
        context := {
          version
          versionNumber := number.getD 0
          scope := db.widths.scope
          window := db.window
          accurate := ⟨db.accurateFrom, db.accurateUntil⟩
          sourceYears := db.sourceYears
          years := db.years
          cutBefore := db.cutBefore
          cutAfter := db.cutAfter
          offsetGranularity := db.widths.stdOffset.granularity
          timeGranularity := db.widths.time.granularity
          saveGranularity := db.widths.save.granularity
          strict := db.strict
          counts := .of zones policies links
          sizes }
        letters
        formats
        fragments
        zones
        policies
        links
        comments := db.comments }

def makeDocument (db : Database) (sizes : BufferSizes) (version : String) :
    Checked Document.Making := do
  match ← build db sizes version with
  | .error fault => return ⟨[], .error fault⟩
  | .ok document =>
    return ⟨Version.warning version ++ [document.summary], .ok document⟩

section Codes

variable {db : Database} {w : Widths}
  (hrules : ∀ name rules, db.policies.get? name = some rules → ∀ r ∈ rules, r.IsProper w)

theorem dayCodes_eq {spec : DaySpec} (h : spec.IsProper) :
    dayCodes spec = .ok spec.codes := by
  have hday : ∀ {day : Nat}, 1 ≤ day ∧ day ≤ 31 →
      signed day = .ok (day : Int) ∧ neg day = .ok (-day : Int) :=
    fun h => ⟨signed_eq (by omega), signed_eq (by omega)⟩
  cases spec with
  | exact day =>
    rw [dayCodes, (hday h).1]
    rfl
  | last w => rfl
  | onOrAfter w day =>
    rw [dayCodes, (hday h).1]
    rfl
  | onOrBefore w day =>
    rw [dayCodes, (hday h).2]
    rfl

theorem codeRule_eq (widths : Widths) (policy : String) {r : Rule} (h : r.IsProper w) :
    codeRule widths policy r = .ok (widths.codeRule policy r) := by
  rw [codeRule, dayCodes_eq h.day]
  rfl

include hrules in
theorem policyRecords_eq (letters : StringTable) :
    policyRecords db letters = .ok (db.policyRecords letters) := by
  rw [policyRecords, traverse_eq (g := fun name rules => do
    let records ← rules.mapM (db.ruleRecord letters name)
    return PolicyRecord.mk ((db.policies.indexOf? name).getD 0) records)
    fun name rules h => ?_, ok_bind, NameMap.traverse_map]
  · rfl
  · rw [mapM_eq (g := db.ruleRecord letters name) fun r hr => ?_, ok_bind,
      List.mapM_map]
    · rfl
    · rw [ruleRecord, codeRule_eq db.widths name (hrules name rules h r hr), ok_bind]
      rfl

theorem unsigned_sub_eq {a b : Nat} (h : b ≤ a) (ha : a ≤ 4294967295) :
    unsigned (a - b) = .ok (a - b) := by
  have hsub : (a : Int) - b = (a - b : Nat) := by omega
  rw [hsub]
  exact unsigned_eq (by omega)

theorem versionNumber?_eq (tag : String) :
    versionNumber? tag = .ok (Version.number? tag) := by
  have hfirst : 'a'.toNat = 97 := rfl
  fun_cases Version.number? tag with
  | case1 a b c d letter htag hlower =>
    have hletter := Text.isLower_iff.1 hlower
    simp only [versionNumber?, htag, if_pos hlower]
    cases hyear : Text.readUnsigned? [a, b, c, d] with
    | none => rfl
    | some year =>
      have hlt : year < 10 ^ 4 := Text.readUnsigned?_lt hyear
      dsimp only [Option.bind_some]
      split
      · exact bind_eq (unsigned_sub_eq (by omega) (by omega)) <|
          bind_eq (unsigned_eq (n := (year - 2000) * 100) (by omega)) <|
          bind_eq (unsigned_sub_eq (by omega) (by omega)) <|
          bind_eq (unsigned_eq (n := letter.toNat - 'a'.toNat + 1) (by omega)) <|
          bind_eq (unsigned_eq (by omega)) rfl
      · rfl
  | case2 a b c d letter htag hlower =>
    simp only [versionNumber?, htag, if_neg hlower, pure_eq]
  | case3 htag =>
    unfold versionNumber?
    split
    · exact absurd ‹_› (htag _ _ _ _ _)
    · rfl

end Codes

/-! ## Stages -/

def compileSource (o : CompileOptions) (log : Log) (source : Source) :
    Checked Compilation := do
  let log := log ++ [source.summary]
  let making ← makeDatabase o.options source
  let log := log ++ making.log
  match making.result with
  | .error fault => return .failed log (.validation fault)
  | .ok db =>
    let measured ← bufferSizes db db.window
    let log := log ++ measured.log
    match measured.result with
    | .error fault => return .failed log (.buffer fault)
    | .ok sizes =>
      let checked := sizes.check o.maxTransitions o.ignoreTooLarge
      let log := log ++ checked.log
      match checked.result with
      | .error fault => return .failed log (.buffer fault)
      | .ok () =>
        let tables ← makeDocument db sizes o.version
        let log := log ++ tables.log
        match tables.result with
        | .error fault => return .failed log (.coding fault)
        | .ok document =>
          return {
            log
            result := .ok {
              document
              counts := source.counts
              stages := {
                read := source.zones.size + source.links.size
                made := db.zones.size + db.links.size
                measured := sizes.zones.size
                assembled := document.zones.size + document.links.size } } }

def compile (o : CompileOptions) (texts : List SourceText) : Checked Compilation := do
  let reading ← readTexts Source.empty [] texts
  match reading.fault with
  | some fault => return .failed reading.log (.source fault)
  | none => compileSource o reading.log reading.source

section Stages

variable {o : CompileOptions} {source : Source}

theorem build_eq {db : Database} {w : Widths}
    (hrules : ∀ name rules, db.policies.get? name = some rules →
      ∀ r ∈ rules, r.IsProper w) (sizes : BufferSizes) (version : String) :
    build db sizes version = .ok (Document.build db sizes version) := by
  unfold build Document.build
  dsimp only
  split
  · rfl
  · rw [policyRecords_eq hrules, ok_bind, versionNumber?_eq, ok_bind]
    rfl

theorem makeDocument_eq {db : Database} {w : Widths}
    (hrules : ∀ name rules, db.policies.get? name = some rules →
      ∀ r ∈ rules, r.IsProper w) (sizes : BufferSizes) (version : String) :
    makeDocument db sizes version = .ok (Document.ofDatabase db sizes version) := by
  rw [makeDocument, build_eq hrules, ok_bind, Document.ofDatabase]
  cases Document.build db sizes version <;> rfl

theorem compileSource_eq (o : CompileOptions) (log : Log) {s : Source}
    (hs : s.IsProper none) :
    compileSource o log s = .ok (Compilation.ofSource o log s) := by
  rw [compileSource, makeDatabase_eq o.options hs, ok_bind, Compilation.ofSource]
  cases hmaking : (Database.ofSource o.options s).result with
  | error fault => rfl
  | ok db =>
    have hmade := MadeOf.of_ofSource hs hmaking
    dsimp only
    rw [bufferSizes_eq (fun _ _ => hmade.rule_isProper) (fun _ _ => hmade.era_isProper),
      ok_bind]
    cases (db.bufferSizes db.window).result with
    | error fault => rfl
    | ok sizes =>
      dsimp only
      cases (sizes.check o.maxTransitions o.ignoreTooLarge).result with
      | error fault => rfl
      | ok _ =>
        dsimp only
        rw [makeDocument_eq (fun _ _ => hmade.rule_isProper), ok_bind]
        cases (Document.ofDatabase db sizes o.version).result <;> rfl

/-- No number of a compilation overflows and no date leaves the years that dates
are made for, whatever the texts are and whatever years are asked for. -/
theorem compile_eq_ok (o : CompileOptions) (texts : List SourceText) :
    compile o texts = .ok (ZoneTables.compile o texts) := by
  rw [compile, readTexts_eq, ok_bind, ZoneTables.compile]
  cases hread : (Source.empty.readTexts [] texts).fault with
  | some fault => rfl
  | none =>
    exact compileSource_eq _ _
      (Source.isProper_readTexts texts Source.IsProper.empty hread)

end Stages

end ZoneTables.Checked
