import ZoneTables.Document.Decoding
import ZoneTables.Proofs.Database.Contents
import ZoneTables.Proofs.Document.Coding

/-!
# Tables lose nothing

A database that was made of source texts can be read back from its tables.
Times have codes without loss because they were cut to the granularity when
the database was made, and everything that has a position is there.
-/

namespace ZoneTables

/-! ## Written forms -/

namespace Clock

/-- The written form of an amount is told from a dash and from the name of a
policy. -/
theorem isAmountToken_text (n : Int) : isAmountToken (text n) := by
  obtain ⟨c, cs, hc, htext⟩ := toList_text_head n
  unfold isAmountToken
  rcases htext with htext | htext
  · rw [htext]
    split
    · rename_i heq
      cases heq
      exact absurd hc (by decide)
    · rename_i heq
      cases heq
      exact hc
    · rename_i heq
      cases heq
  · rw [htext]
    exact hc

end Clock

theorem Saving.read?_text {w : Widths} {saving : Saving}
    (h : saving.IsProper w) : read? saving.text = some saving := by
  unfold read?
  cases saving with
  | standard => rfl
  | fixed amount =>
    have hamount := Clock.isAmountToken_text amount
    have hdash : Clock.text amount ≠ "-" := by
      intro heq
      rw [heq] at hamount
      exact absurd hamount (by decide)
    have hpolicy : isPolicyToken (Clock.text amount) = false := by
      unfold isPolicyToken
      rw [hamount, Bool.not_true, Bool.and_false]
    unfold text
    dsimp only
    rw [if_neg hdash, hpolicy, if_neg Bool.false_ne_true,
      Clock.read?_text h.2, Option.map_some]
  | policy name =>
    have hpolicy : isPolicyToken name := h
    have hdash : name ≠ "-" := by
      rintro rfl
      exact absurd hpolicy (by decide)
    unfold text
    dsimp only
    rw [if_neg hdash, if_pos hpolicy]

/-! ## Documents of databases -/

namespace Document

structure TablesOf (doc : Document) (db : Database) : Prop where
  letters : doc.letters = db.letters
  formats : doc.formats = db.formats
  policies : db.policyRecords db.letters = .ok doc.policies
  zones : db.zoneRecords db.formats db.fragments = .ok doc.zones
  links : doc.links = db.linkRecords db.fragments
  scope : doc.context.scope = db.widths.scope
  offsetGranularity :
    doc.context.offsetGranularity = db.widths.stdOffset.granularity
  timeGranularity : doc.context.timeGranularity = db.widths.time.granularity
  saveGranularity : doc.context.saveGranularity = db.widths.save.granularity

theorem tablesOf_of_ofDatabase {db : Database} {sizes : BufferSizes}
    {version : String} {doc : Document}
    (h : (ofDatabase db sizes version).result = .ok doc) :
    doc.TablesOf db := by
  have hbuild : build db sizes version = .ok doc := by
    unfold ofDatabase at h
    split at h
    · cases h
    · rename_i hdoc
      cases h
      exact hdoc
  unfold build at hbuild
  dsimp only at hbuild
  split at hbuild
  · cases hbuild
  · obtain ⟨policies, hpolicies, hbuild⟩ := except_bind_eq_ok.1 hbuild
    obtain ⟨zones, hzones, hbuild⟩ := except_bind_eq_ok.1 hbuild
    cases hbuild
    exact ⟨rfl, rfl, hpolicies, hzones, rfl, rfl, rfl, rfl, rfl⟩

namespace TablesOf

variable {doc : Document} {db : Database}

theorem forall₂_policies (h : doc.TablesOf db) :
    List.Forall₂ (fun p q => q.1 = p.1 ∧
        List.Forall₂ (fun rule record =>
          db.ruleRecord db.letters p.1 rule = .ok record) p.2 q.2.rules)
      db.policies.entries doc.policies.entries := by
  refine (NameMap.traverse_eq_ok.1 h.policies).imp fun p q hpq => ?_
  obtain ⟨hname, hrecord⟩ := hpq
  obtain ⟨records, hrecords, heq⟩ := except_bind_eq_ok.1 hrecord
  have hrules : records = q.2.rules :=
    congrArg PolicyRecord.rules (Except.ok.inj heq)
  refine ⟨hname, ?_⟩
  rw [← hrules]
  exact except_mapM_eq_ok.1 hrecords

theorem forall₂_zones (h : doc.TablesOf db) :
    List.Forall₂ (fun p q => q.1 = p.1 ∧
        List.Forall₂ (fun era record =>
          db.eraRecord db.formats p.1 era = .ok record) p.2 q.2.eras)
      db.zones.entries doc.zones.entries := by
  refine (NameMap.traverse_eq_ok.1 h.zones).imp fun p q hpq => ?_
  obtain ⟨hname, hrecord⟩ := hpq
  obtain ⟨records, hrecords, heq⟩ := except_bind_eq_ok.1 hrecord
  have heras : records = q.2.eras :=
    congrArg ZoneRecord.eras (Except.ok.inj heq)
  refine ⟨hname, ?_⟩
  rw [← heras]
  exact except_mapM_eq_ok.1 hrecords

theorem keys_policies (h : doc.TablesOf db) :
    doc.policies.keys = db.policies.keys :=
  NameMap.keys_eq_of_forall₂ h.forall₂_policies

theorem keys_zones (h : doc.TablesOf db) : doc.zones.keys = db.zones.keys :=
  NameMap.keys_eq_of_forall₂ h.forall₂_zones

theorem years_eq (h : doc.TablesOf db) {scope : Scope}
    (hscope : db.widths = scope.widths) : doc.years = db.widths.years := by
  unfold years
  rw [h.scope, hscope]
  cases scope <;> rfl

theorem readRule?_eq_some (h : doc.TablesOf db)
    (hyears : doc.years = db.widths.years) {name : String} {rule : Rule}
    {record : RuleRecord} (hproper : rule.IsProper db.widths)
    (hletter : rule.letter ∈ db.policies.values.flatten.map (·.letter))
    (hrecord : db.ruleRecord db.letters name rule = .ok record) :
    doc.readRule? record = some rule := by
  obtain ⟨codes, hcodes, heq⟩ := except_bind_eq_ok.1 hrecord
  cases heq
  have hcodes := Widths.codesRule_of_codeRule hcodes
  obtain ⟨i, hindex⟩ : ∃ i, db.letters.index? rule.letter = some i :=
    StringTable.exists_index?_ofList hletter
  have hday : readDay? ⟨rule, codes, i⟩ = some rule.day := by
    have hread := DaySpec.ofCodes?_codes hproper.day
    rw [← hcodes.day] at hread
    unfold readDay?
    dsimp only at hread ⊢
    rw [hread]
    exact guard_bind_of (DaySpec.read?_text hproper.day) _
  unfold readRule?
  rw [hindex, Option.getD_some, hday, h.letters,
    StringTable.get?_of_index? hindex, hyears, h.timeGranularity,
    h.saveGranularity]
  dsimp only
  rw [YearWidth.decode_of_encode hcodes.fromYear,
    YearWidth.decode_of_encode hcodes.toYear,
    TimeWidth.encode_mul hproper.time.1 hcodes.time,
    TimeWidth.encode_mul hproper.save.1 hcodes.save]
  rfl

theorem readSaving?_eq_some (h : doc.TablesOf db) {era : Era}
    {codes : EraCodes} {format : Nat} (hproper : era.saving.IsProper db.widths)
    (hcodes : db.widths.CodesEra era codes)
    (hpolicy : ∀ policy, era.saving = .policy policy →
      db.policies.contains policy) :
    doc.readSaving? ⟨era, codes, era.saving.policy?.bind db.policies.indexOf?,
      format⟩ = some era.saving := by
  have hfixed : codes.fixedSave * doc.context.saveGranularity =
      era.saving.fixedAmount := by
    rw [h.saveGranularity]
    refine TimeWidth.encode_mul ?_ hcodes.fixedSave
    cases hsaving : era.saving with
    | fixed amount =>
      rw [hsaving] at hproper
      exact hproper.1
    | standard => exact TimeWidth.truncate_zero
    | policy name => exact TimeWidth.truncate_zero
  have hindex : ((era.saving.policy?.bind db.policies.indexOf?).bind
      fun i => doc.policies.keys[i]?) = era.saving.policy? := by
    rw [h.keys_policies]
    cases hsaving : era.saving with
    | standard => rfl
    | fixed amount => rfl
    | policy name =>
      obtain ⟨i, hi⟩ := NameMap.exists_indexOf?_of_contains (hpolicy name hsaving)
      have hkey := NameMap.getElem?_keys_of_indexOf? hi
      unfold Saving.policy?
      rw [Option.bind_some, hi, Option.bind_some, hkey]
  unfold readSaving?
  dsimp only
  rw [Saving.read?_text hproper]
  exact (guard_bind_of hfixed _).trans (guard_bind_of hindex _)

theorem readEra?_eq_some (h : doc.TablesOf db)
    (hyears : doc.years = db.widths.years) {name : String} {era : Era}
    {record : EraRecord} (hproper : era.IsProper db.widths)
    (hpolicy : ∀ policy, era.saving = .policy policy →
      db.policies.contains policy)
    (hformat : era.format ∈ db.zones.values.flatten.map (·.format))
    (hrecord : db.eraRecord db.formats name era = .ok record) :
    doc.readEra? record = some era := by
  obtain ⟨codes, hcodes, heq⟩ := except_bind_eq_ok.1 hrecord
  cases heq
  have hcodes := Widths.codesEra_of_codeEra hcodes
  obtain ⟨i, hindex⟩ : ∃ i, db.formats.index? era.format = some i :=
    StringTable.exists_index?_ofList hformat
  unfold readEra?
  rw [h.readSaving?_eq_some hproper.saving hcodes hpolicy, hindex,
    Option.getD_some, h.formats, StringTable.get?_of_index? hindex, hyears,
    h.timeGranularity, h.offsetGranularity]
  dsimp only
  rw [YearWidth.decode_of_encode hcodes.untilYear,
    TimeWidth.encode_mul hproper.stdOffset.1 hcodes.stdOffset,
    TimeWidth.encode_mul hproper.ends.seconds.1 hcodes.untilTime]
  rfl

theorem readPolicies?_eq_some (h : doc.TablesOf db)
    (hyears : doc.years = db.widths.years)
    (hproper : ∀ {name rules}, db.policies.get? name = some rules →
      ∀ r ∈ rules, r.IsProper db.widths) :
    doc.readPolicies? = some db.policies.entries := by
  unfold readPolicies?
  rw [option_mapM_eq_some]
  have hall := (List.forall₂_and_left (p := (· ∈ db.policies.entries)) _ _).2
    ⟨fun _ hmem => hmem, h.forall₂_policies⟩
  refine (hall.imp fun p q hpq => ?_).flip
  obtain ⟨hmem, hname, hrecords⟩ := hpq
  have hread : List.Forall₂ (fun record rule =>
      doc.readRule? record = some rule) q.2.rules p.2 := by
    have hrules := (List.forall₂_and_left (p := (· ∈ p.2)) _ _).2
      ⟨fun _ hr => hr, hrecords⟩
    refine (hrules.imp fun rule record hrule => ?_).flip
    have hletter : rule.letter ∈
        db.policies.values.flatten.map (·.letter) := by
      refine List.mem_map.2 ⟨rule, List.mem_flatten.2 ⟨p.2, ?_, hrule.1⟩, rfl⟩
      exact List.mem_map.2 ⟨p, hmem, rfl⟩
    exact h.readRule?_eq_some hyears
      (hproper (NameMap.get?_eq_some_iff.2 hmem) rule hrule.1) hletter hrule.2
  have hrules := option_mapM_eq_some.2 hread
  show (do return (q.1, ← q.2.rules.mapM doc.readRule?)) = some p
  rw [hrules, hname]
  rfl

theorem readZones?_eq_some (h : doc.TablesOf db)
    (hyears : doc.years = db.widths.years)
    (hproper : ∀ {name eras}, db.zones.get? name = some eras →
      ∀ era ∈ eras, era.IsProper db.widths)
    (hpolicy : ∀ {name eras}, db.zones.get? name = some eras →
      ∀ era ∈ eras, ∀ policy, era.saving = .policy policy →
        db.policies.contains policy) :
    doc.readZones? = some db.zones.entries := by
  unfold readZones?
  rw [option_mapM_eq_some]
  have hall := (List.forall₂_and_left (p := (· ∈ db.zones.entries)) _ _).2
    ⟨fun _ hmem => hmem, h.forall₂_zones⟩
  refine (hall.imp fun p q hpq => ?_).flip
  obtain ⟨hmem, hname, hrecords⟩ := hpq
  have hget := NameMap.get?_eq_some_iff.2 hmem
  have hread : List.Forall₂ (fun record era =>
      doc.readEra? record = some era) q.2.eras p.2 := by
    have heras := (List.forall₂_and_left (p := (· ∈ p.2)) _ _).2
      ⟨fun _ he => he, hrecords⟩
    refine (heras.imp fun era record hera => ?_).flip
    have hformat : era.format ∈ db.zones.values.flatten.map (·.format) := by
      refine List.mem_map.2 ⟨era, List.mem_flatten.2 ⟨p.2, ?_, hera.1⟩, rfl⟩
      exact List.mem_map.2 ⟨p, hmem, rfl⟩
    exact h.readEra?_eq_some hyears (hproper hget era hera.1)
      (hpolicy hget era hera.1) hformat hera.2
  have heras := option_mapM_eq_some.2 hread
  show (do return (q.1, ← q.2.eras.mapM doc.readEra?)) = some p
  rw [heras, hname]
  rfl

theorem readTarget?_eq_some {record : LinkRecord}
    (h : doc.zones.keys[record.targetIndex]? = some record.target) :
    doc.readTarget? record = some record.target := by
  unfold readTarget?
  rw [h]
  exact guard_bind_of (rfl : record.target = record.target) _

theorem readLinks?_eq_some (h : doc.TablesOf db)
    (htarget : ∀ {name target}, db.links.get? name = some target →
      db.zones.contains target) :
    doc.readLinks? = some db.links.entries := by
  unfold readLinks?
  rw [option_mapM_eq_some, h.links]
  unfold Database.linkRecords NameMap.filterMap
  dsimp only
  have hmem : ∀ p ∈ db.links.entries, db.zones.contains p.2 := fun p hp =>
    htarget (NameMap.get?_eq_some_iff.2 hp)
  generalize db.links.entries = l at hmem
  induction l with
  | nil => exact .nil
  | cons p l ih =>
    have hcontains := hmem p List.mem_cons_self
    obtain ⟨i, hi⟩ := NameMap.exists_indexOf?_of_contains hcontains
    have hkey := NameMap.getElem?_keys_of_indexOf? hi
    rw [List.filterMap_cons, hi]
    refine .cons ?_ (ih fun q hq => hmem q (List.mem_cons_of_mem _ hq))
    dsimp only
    rw [readTarget?_eq_some (h.keys_zones ▸ hkey)]
    rfl

end TablesOf

/-! ## Codes of years -/

def codedYears (d : Document) : List (Int × Int) :=
  (d.policies.values.flatMap (·.rules)).flatMap (fun r =>
      [(r.rule.fromYear, r.codes.fromYear), (r.rule.toYear, r.codes.toYear)]) ++
    (d.zones.values.flatMap (·.eras)).map fun r =>
      (r.era.ends.year, r.codes.untilYear)

theorem TablesOf.encode_of_codedYears {doc : Document} {db : Database}
    (h : doc.TablesOf db) {p : Int × Int} (hp : p ∈ doc.codedYears) :
    db.widths.years.encode p.1 = some p.2 := by
  rcases List.mem_append.1 hp with hp | hp
  · obtain ⟨record, hrecord, hp⟩ := List.mem_flatMap.1 hp
    obtain ⟨policy, hpolicy, hrecord⟩ := List.mem_flatMap.1 hrecord
    obtain ⟨q, hq, rfl⟩ := List.mem_map.1 hpolicy
    obtain ⟨_, _, _, hrecords⟩ := forall₂_exists_left h.forall₂_policies hq
    obtain ⟨rule, _, hrule⟩ := forall₂_exists_left hrecords hrecord
    obtain ⟨codes, hcodes, heq⟩ := except_bind_eq_ok.1 hrule
    cases heq
    have hcodes := Widths.codesRule_of_codeRule hcodes
    rcases List.mem_cons.1 hp with rfl | hp
    · exact hcodes.fromYear
    · rw [List.mem_singleton.1 hp]
      exact hcodes.toYear
  · obtain ⟨record, hrecord, rfl⟩ := List.mem_map.1 hp
    obtain ⟨zone, hzone, hrecord⟩ := List.mem_flatMap.1 hrecord
    obtain ⟨q, hq, rfl⟩ := List.mem_map.1 hzone
    obtain ⟨_, _, _, hrecords⟩ := forall₂_exists_left h.forall₂_zones hq
    obtain ⟨era, _, hera⟩ := forall₂_exists_left hrecords hrecord
    obtain ⟨codes, hcodes, heq⟩ := except_bind_eq_ok.1 hera
    cases heq
    exact (Widths.codesEra_of_codeEra hcodes).untilYear

/-- Whether a database can be read back from the codes, the positions and the
written forms in its tables, where codes of years are in the order of the
years. -/
structure Recovers (doc : Document) (db : Database) : Prop where
  zones : doc.readZones? = some db.zones.entries
  policies : doc.readPolicies? = some db.policies.entries
  links : doc.readLinks? = some db.links.entries
  years : ∀ p ∈ doc.codedYears, ∀ q ∈ doc.codedYears, p.1 < q.1 ↔ p.2 < q.2

end Document

/-- The tables of a database that was made of source texts lose nothing. -/
theorem MadeFrom.document_recovers {o : Options} {texts : List SourceText}
    {db : Database} (h : MadeFrom o texts db) {sizes : BufferSizes}
    {version : String} {doc : Document}
    (hdoc : (Document.ofDatabase db sizes version).result = .ok doc) :
    doc.Recovers db := by
  obtain ⟨s, hmade, _⟩ := h.exists_source
  have htables := Document.tablesOf_of_ofDatabase hdoc
  have hwidths : db.widths = o.scope.widths := hmade.widths
  have hyears := htables.years_eq hwidths
  have hpolicy : ∀ {name eras}, db.zones.get? name = some eras →
      ∀ era ∈ eras, ∀ policy, era.saving = .policy policy →
        db.policies.contains policy := by
    intro name eras hget era hera policy hsaving
    obtain ⟨rules, hrules⟩ := hmade.contains_policy hget hera hsaving
    exact NameMap.contains_of_get? hrules
  refine ⟨?_, ?_, ?_, fun p hp q hq => ?_⟩
  · exact htables.readZones?_eq_some hyears hmade.era_isProper hpolicy
  · exact htables.readPolicies?_eq_some hyears hmade.rule_isProper
  · exact htables.readLinks?_eq_some hmade.contains_target
  · have hp' := htables.encode_of_codedYears hp
    have hq' := htables.encode_of_codedYears hq
    rw [hwidths] at hp' hq'
    exact YearWidth.encode_lt_iff hp' hq'

/-- A zone with a fixed amount of daylight saving before one that follows a
policy without an end, and a link to it. -/
def summerText : SourceText where
  name := "summer"
  text := "Rule S 1990 max - Mar lastSun 1:00u 1:00 D\n" ++
    "Rule S 1990 max - Oct Sun>=25 1:00u 0 -\n" ++
    "Zone Town -1:00:30 0:20 LMT 2001 Apr 2 0:00\n" ++
    "\t-1:00 S T%sT\n" ++
    "Link Town City\n"

theorem document_recovers_summerText :
    ∃ db doc, MadeFrom ⟨⟨2000, 2010⟩, .basic, false, none⟩ [summerText] db ∧
      (Document.ofDatabase db .empty "2024a").result = .ok doc ∧
      doc.Recovers db := by
  have hread : (Source.empty.readTexts [] [summerText]).fault = none := by
    decide +kernel
  have hmade : (match (Database.ofSource ⟨⟨2000, 2010⟩, .basic, false, none⟩
      (Source.empty.readTexts [] [summerText]).source).result with
    | .ok db => (Document.ofDatabase db .empty "2024a").result.isOk &&
        db.zones.contains "Town" && db.links.contains "City"
    | .error _ => false) = true := by decide +kernel
  split at hmade
  · rename_i db hdb
    rw [Bool.and_eq_true, Bool.and_eq_true] at hmade
    obtain ⟨doc, hdoc⟩ := except_isOk_iff.1 hmade.1.1
    exact ⟨db, doc, ⟨hread, hdb⟩, hdoc,
      MadeFrom.document_recovers ⟨hread, hdb⟩ hdoc⟩
  · cases hmade

end ZoneTables
