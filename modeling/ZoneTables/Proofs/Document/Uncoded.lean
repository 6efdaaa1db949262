import ZoneTables.Proofs.Document.Coding

/-!
# Values without a code

The values of a database that are given codes stand in one list: the number of
the name fragments, the fields of the rules policy by policy, and the fields of
the eras zone by zone.  A document is made exactly if each of them has a code,
and otherwise the report is about the first that has none.
-/

namespace ZoneTables

variable {α β ε : Type}

/-! ## Failures of composed steps -/

def failure? : Except ε α → Option ε
  | .error e => some e
  | .ok _ => none

@[simp] theorem failure?_ok (a : α) : failure? (.ok a : Except ε α) = none :=
  rfl

@[simp] theorem failure?_error (e : ε) :
    failure? (.error e : Except ε α) = some e := rfl

theorem failure?_eq_some_iff {x : Except ε α} {e : ε} :
    failure? x = some e ↔ x = .error e := by
  cases x <;> simp

theorem failure?_eq_none_iff {x : Except ε α} :
    failure? x = none ↔ ∃ a, x = .ok a := by
  cases x <;> simp

/-- The first failure of two steps, where that of the second one does not
depend on what the first one gives. -/
theorem failure?_bind {x : Except ε α} {f : α → Except ε β} {o : Option ε}
    (h : ∀ a, failure? (f a) = o) : failure? (x >>= f) = (failure? x).or o := by
  cases x with
  | error e => rfl
  | ok a => exact h a

theorem failure?_bind_pure (x : Except ε α) (f : α → β) :
    failure? (x >>= fun a => pure (f a)) = failure? x := by
  cases x <;> rfl

theorem failure?_mapM (f : α → Except ε β) (l : List α) :
    failure? (l.mapM f) = l.findSome? fun a => failure? (f a) := by
  induction l with
  | nil => rfl
  | cons a l ih =>
    rw [List.mapM_cons, List.findSome?_cons,
      failure?_bind fun b => failure?_bind_pure (l.mapM f) (b :: ·), ih]
    cases failure? (f a) <;> rfl

theorem failure?_traverseEntries (f : String → α → Except ε β)
    (l : List (String × α)) :
    failure? (NameMap.traverseEntries f l) =
      l.findSome? fun p => failure? (f p.1 p.2) := by
  induction l with
  | nil => rfl
  | cons p l ih =>
    rw [List.findSome?_cons, ← ih, NameMap.traverseEntries]
    cases f p.1 p.2 with
    | error e => rfl
    | ok b => cases NameMap.traverseEntries f l <;> rfl

theorem failure?_traverse (f : String → α → Except ε β) (m : NameMap α) :
    failure? (m.traverse f) =
      m.entries.findSome? fun p => failure? (f p.1 p.2) := by
  rw [← failure?_traverseEntries, NameMap.traverse]
  split
  · rename_i e he
    rw [he, failure?_error, failure?_error]
  · rename_i r hr
    rw [failure?_ok, failure?_eq_none_iff.2 ⟨r, hr⟩]

theorem findSome?_flatMap (f : β → Option ε) (g : α → List β) (l : List α) :
    (l.flatMap g).findSome? f = l.findSome? fun a => (g a).findSome? f := by
  induction l with
  | nil => rfl
  | cons a l ih =>
    rw [List.flatMap_cons, List.findSome?_append, ih, List.findSome?_cons]
    cases (g a).findSome? f <;> rfl

/-! ## Values that are given codes -/

/-- The code of a value of a field.  A number of fragments stands for itself
as long as there is a control character for each of them. -/
def CodedField.code? (w : Widths) (value : Int) : CodedField → Option Int
  | fragmentCount => if value ≤ Name.maxFragments then some value else none
  | fromYear | toYear | untilYear => w.years.encode value
  | ruleTime | untilTime => w.time.encode value
  | save | fixedSave => w.save.encode value
  | stdOffset => w.stdOffset.encode value

structure CodedValue where
  owner : Owner
  field : CodedField
  value : Int

namespace CodedValue

def HasCode (w : Widths) (v : CodedValue) : Prop :=
  ∃ code, v.field.code? w v.value = some code

def fault (w : Widths) (v : CodedValue) : CodingError :=
  ⟨v.owner, v.field, v.value, w.scope⟩

def fault? (w : Widths) (v : CodedValue) : Option CodingError :=
  match v.field.code? w v.value with
  | some _ => none
  | none => some (v.fault w)

theorem fault?_eq_none_iff {w : Widths} {v : CodedValue} :
    v.fault? w = none ↔ v.HasCode w := by
  unfold fault? HasCode
  cases v.field.code? w v.value <;> simp

theorem fault?_eq_some_iff {w : Widths} {v : CodedValue} {e : CodingError} :
    v.fault? w = some e ↔ ¬ v.HasCode w ∧ v.fault w = e := by
  unfold fault? HasCode
  cases v.field.code? w v.value <;> simp

end CodedValue

def Rule.codedValues (policy : String) (r : Rule) : List CodedValue :=
  [⟨.policy policy, .fromYear, r.fromYear⟩,
    ⟨.policy policy, .toYear, r.toYear⟩,
    ⟨.policy policy, .ruleTime, r.time⟩,
    ⟨.policy policy, .save, r.save⟩]

def Era.codedValues (zone : String) (era : Era) : List CodedValue :=
  [⟨.zone zone, .stdOffset, era.stdOffset⟩,
    ⟨.zone zone, .fixedSave, era.saving.fixedAmount⟩,
    ⟨.zone zone, .untilYear, era.ends.year⟩,
    ⟨.zone zone, .untilTime, era.ends.seconds⟩]

namespace Database

def ruleValues (db : Database) : List CodedValue :=
  db.policies.entries.flatMap fun p => p.2.flatMap (Rule.codedValues p.1)

def eraValues (db : Database) : List CodedValue :=
  db.zones.entries.flatMap fun p => p.2.flatMap (Era.codedValues p.1)

/-- The values of a database: the number of fragments, the rules of the
policies by name, and the eras of the zones by name. -/
def codedValues (db : Database) : List CodedValue :=
  ⟨.fragments, .fragmentCount, db.fragments.size⟩ ::
    (db.ruleValues ++ db.eraValues)

end Database

/-! ## Records -/

namespace Widths

variable {w : Widths}

theorem failure?_require_bind {owner : Owner} (field : CodedField) {value : Int}
    {f : Int → Except CodingError α} {rest : List CodedValue}
    (h : ∀ code, failure? (f code) = rest.findSome? (CodedValue.fault? w)) :
    failure? (w.require owner field value (field.code? w value) >>= f) =
      (⟨owner, field, value⟩ :: rest).findSome? (CodedValue.fault? w) := by
  rw [failure?_bind h, List.findSome?_cons]
  unfold require CodedValue.fault?
  dsimp only
  cases field.code? w value <;> rfl

theorem failure?_codeRule (policy : String) (r : Rule) :
    failure? (w.codeRule policy r) =
      (r.codedValues policy).findSome? (CodedValue.fault? w) := by
  refine failure?_require_bind .fromYear fun fromYear => ?_
  refine failure?_require_bind .toYear fun toYear => ?_
  refine failure?_require_bind .ruleTime fun time => ?_
  exact failure?_require_bind .save fun save => rfl

theorem failure?_codeEra (zone : String) (era : Era) :
    failure? (w.codeEra zone era) =
      (era.codedValues zone).findSome? (CodedValue.fault? w) := by
  refine failure?_require_bind .stdOffset fun stdOffset => ?_
  refine failure?_require_bind .fixedSave fun fixedSave => ?_
  refine failure?_require_bind .untilYear fun untilYear => ?_
  exact failure?_require_bind .untilTime fun untilTime => rfl

theorem exists_codesRule_iff {policy : String} {r : Rule} :
    (∃ codes, w.CodesRule r codes) ↔
      ∀ v ∈ r.codedValues policy, v.HasCode w := by
  simp only [Rule.codedValues, List.forall_mem_cons, List.not_mem_nil,
    false_implies, implies_true, and_true]
  constructor
  · rintro ⟨codes, h⟩
    exact ⟨⟨_, h.fromYear⟩, ⟨_, h.toYear⟩, ⟨_, h.time⟩, ⟨_, h.save⟩⟩
  · rintro ⟨⟨fromYear, hfrom⟩, ⟨toYear, hto⟩, ⟨time, htime⟩, ⟨save, hsave⟩⟩
    exact ⟨⟨fromYear, toYear, r.day.codes.1, r.day.codes.2, time, save⟩,
      hfrom, hto, rfl, htime, hsave⟩

theorem exists_codesEra_iff {zone : String} {era : Era} :
    (∃ codes, w.CodesEra era codes) ↔
      ∀ v ∈ era.codedValues zone, v.HasCode w := by
  simp only [Era.codedValues, List.forall_mem_cons, List.not_mem_nil,
    false_implies, implies_true, and_true]
  constructor
  · rintro ⟨codes, h⟩
    exact ⟨⟨_, h.stdOffset⟩, ⟨_, h.fixedSave⟩, ⟨_, h.untilYear⟩,
      ⟨_, h.untilTime⟩⟩
  · rintro ⟨⟨stdOffset, hoffset⟩, ⟨fixedSave, hsave⟩, ⟨untilYear, hyear⟩,
      ⟨untilTime, htime⟩⟩
    exact ⟨⟨stdOffset, fixedSave, untilYear, untilTime⟩, hoffset, hsave,
      hyear, htime⟩

end Widths

/-! ## Documents -/

namespace Database

variable {db : Database}

theorem failure?_policyRecords (letters : StringTable) :
    failure? (db.policyRecords letters) =
      db.ruleValues.findSome? (CodedValue.fault? db.widths) := by
  unfold policyRecords ruleValues
  rw [failure?_traverse, findSome?_flatMap]
  congr 1
  funext p
  rw [findSome?_flatMap, failure?_bind_pure, failure?_mapM]
  congr 1
  funext r
  unfold ruleRecord
  rw [failure?_bind_pure, Widths.failure?_codeRule]

theorem failure?_zoneRecords (formats fragments : StringTable) :
    failure? (db.zoneRecords formats fragments) =
      db.eraValues.findSome? (CodedValue.fault? db.widths) := by
  unfold zoneRecords eraValues
  rw [failure?_traverse, findSome?_flatMap]
  congr 1
  funext p
  rw [findSome?_flatMap, failure?_bind_pure, failure?_mapM]
  congr 1
  funext era
  unfold eraRecord
  rw [failure?_bind_pure, Widths.failure?_codeEra]

/-- Whether everything that is written in a limited field has a code. -/
structure HasCodes (db : Database) : Prop where
  fragments : db.fragments.size ≤ 31
  rule : ∀ policy rules, db.policies.get? policy = some rules →
    ∀ r ∈ rules, ∃ codes, db.widths.CodesRule r codes
  era : ∀ zone eras, db.zones.get? zone = some eras →
    ∀ era ∈ eras, ∃ codes, db.widths.CodesEra era codes

theorem fault?_fragments :
    CodedValue.fault? db.widths
        ⟨.fragments, .fragmentCount, db.fragments.size⟩ =
      if Name.maxFragments < db.fragments.size then
        some ⟨.fragments, .fragmentCount, db.fragments.size, db.widths.scope⟩
      else none := by
  unfold CodedValue.fault? CodedField.code?
  dsimp only
  by_cases h : Name.maxFragments < db.fragments.size
  · rw [if_pos h, if_neg (by omega)]
    rfl
  · rw [if_neg h, if_pos (by omega)]

theorem hasCode_fragments_iff :
    CodedValue.HasCode db.widths
        ⟨.fragments, .fragmentCount, db.fragments.size⟩ ↔
      db.fragments.size ≤ 31 := by
  rw [← CodedValue.fault?_eq_none_iff, fault?_fragments]
  show _ ↔ db.fragments.size ≤ Name.maxFragments
  split
  · exact ⟨nofun, fun h => absurd h (by omega)⟩
  · exact ⟨fun _ => by omega, fun _ => rfl⟩

theorem forall_mem_values_iff {m : NameMap (List α)}
    {values : String → α → List CodedValue} {P : CodedValue → Prop} :
    (∀ v ∈ m.entries.flatMap fun p => p.2.flatMap (values p.1), P v) ↔
      ∀ name l, m.get? name = some l →
        ∀ a ∈ l, ∀ v ∈ values name a, P v := by
  simp only [List.forall_mem_flatMap, Prod.forall, NameMap.get?_eq_some_iff]

theorem hasCodes_iff :
    db.HasCodes ↔ ∀ v ∈ db.codedValues, v.HasCode db.widths := by
  have hparts : (∀ v ∈ db.codedValues, v.HasCode db.widths) ↔
      db.fragments.size ≤ 31 ∧
        (∀ v ∈ db.ruleValues, v.HasCode db.widths) ∧
        ∀ v ∈ db.eraValues, v.HasCode db.widths := by
    rw [codedValues, List.forall_mem_cons, List.forall_mem_append,
      hasCode_fragments_iff]
  rw [hparts, ruleValues, forall_mem_values_iff, eraValues,
    forall_mem_values_iff]
  simp only [← Widths.exists_codesRule_iff, ← Widths.exists_codesEra_iff]
  exact ⟨fun h => ⟨h.fragments, h.rule, h.era⟩,
    fun ⟨hfragments, hrule, hera⟩ => ⟨hfragments, hrule, hera⟩⟩

end Database

namespace Document

theorem failure?_build (db : Database) (sizes : BufferSizes)
    (version : String) :
    failure? (build db sizes version) =
      db.codedValues.findSome? (CodedValue.fault? db.widths) := by
  rw [Database.codedValues, List.findSome?_cons, Database.fault?_fragments]
  unfold build
  dsimp only
  split
  · rfl
  · rw [failure?_bind fun policies => failure?_bind_pure _ _,
      Database.failure?_policyRecords, Database.failure?_zoneRecords,
      List.findSome?_append]

theorem failure?_ofDatabase (db : Database) (sizes : BufferSizes)
    (version : String) :
    failure? (ofDatabase db sizes version).result =
      db.codedValues.findSome? (CodedValue.fault? db.widths) := by
  rw [← failure?_build db sizes version]
  unfold ofDatabase
  cases build db sizes version <;> rfl

/-- A document is made exactly if everything in a limited field has a code, and
otherwise the report names the record, the field and the value of the first
that has none. -/
theorem ofDatabase_reports (db : Database) (sizes : BufferSizes)
    (version : String) :
    ((∃ document, (ofDatabase db sizes version).result = .ok document) ↔
        db.HasCodes) ∧
      ∀ e, (ofDatabase db sizes version).result = .error e ↔
        ∃ front v back, db.codedValues = front ++ v :: back ∧
          (∀ u ∈ front, u.HasCode db.widths) ∧ ¬ v.HasCode db.widths ∧
          e = ⟨v.owner, v.field, v.value, db.widths.scope⟩ := by
  constructor
  · rw [← failure?_eq_none_iff, failure?_ofDatabase,
      List.findSome?_eq_none_iff, Database.hasCodes_iff]
    simp only [CodedValue.fault?_eq_none_iff]
  · intro e
    rw [← failure?_eq_some_iff, failure?_ofDatabase,
      List.findSome?_eq_some_iff]
    simp only [CodedValue.fault?_eq_none_iff, CodedValue.fault?_eq_some_iff]
    constructor
    · rintro ⟨front, v, back, hsplit, ⟨hv, he⟩, hfront⟩
      exact ⟨front, v, back, hsplit, hfront, hv, he.symm⟩
    · rintro ⟨front, v, back, hsplit, hfront, hv, he⟩
      exact ⟨front, v, back, hsplit, ⟨hv, he.symm⟩, hfront⟩

end Document

end ZoneTables
