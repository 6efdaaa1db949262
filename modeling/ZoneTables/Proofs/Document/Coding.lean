import ZoneTables.Document.OfDatabase
import ZoneTables.Proofs.Database.Resolution

/-!
# Codes and what they stand for

A year is what its code stands for and codes are in the order of their years,
and a record that gets codes has a code for each of its fields.
-/

namespace ZoneTables

namespace YearWidth

theorem decode_of_encode {w : YearWidth} {year code : Int}
    (h : w.encode year = some code) : w.decode code = year := by
  cases w with
  | short =>
    unfold encode at h
    dsimp only at h
    split at h
    · cases h
      rfl
    · cases h
  | tiny base =>
    unfold encode at h
    dsimp only at h
    split at h
    · rename_i hyear
      cases h
      exact hyear.symm
    · split at h
      · rename_i hyear
        cases h
        exact hyear.symm
      · split at h
        · rename_i hyear
          cases h
          exact hyear.symm
        · split at h
          · rename_i hcode
            cases h
            unfold decode
            dsimp only
            rw [if_neg (by omega), if_neg (by omega), if_neg (by omega)]
            omega
          · cases h

private theorem code_cases {scope : Scope} {year code : Int}
    (h : scope.widths.years.encode year = some code) :
    (scope ≠ .basic ∧ code = year) ∨
      (scope = .basic ∧
        ((year = -32767 ∧ code = -127) ∨ (year = 32766 ∧ code = 126) ∨
          (year = 32767 ∧ code = 127) ∨
          (code = year - 2100 ∧ -127 < code ∧ code < 126))) := by
  cases scope with
  | basic =>
    refine .inr ⟨rfl, ?_⟩
    unfold Scope.widths encode Year.least Year.endless Year.never at h
    dsimp only at h
    split at h
    · cases h
      omega
    · split at h
      · cases h
        omega
      · split at h
        · cases h
          omega
        · split at h
          · cases h
            omega
          · cases h
  | extended =>
    refine .inl ⟨nofun, ?_⟩
    unfold Scope.widths encode at h
    dsimp only at h
    split at h
    · cases h
      rfl
    · cases h
  | complete =>
    refine .inl ⟨nofun, ?_⟩
    unfold Scope.widths encode at h
    dsimp only at h
    split at h
    · cases h
      rfl
    · cases h

theorem encode_lt_iff {scope : Scope} {year year' code code' : Int}
    (h : scope.widths.years.encode year = some code)
    (h' : scope.widths.years.encode year' = some code') :
    year < year' ↔ code < code' := by
  rcases code_cases h with ⟨hscope, h⟩ | ⟨hscope, h⟩ <;>
    rcases code_cases h' with ⟨hscope', h'⟩ | ⟨hscope', h'⟩
  · rw [h, h']
  · exact absurd hscope' hscope
  · exact absurd hscope hscope'
  · omega

end YearWidth

namespace Widths

variable {w : Widths}

theorem require_eq_ok {owner : Owner} {field : CodedField} {value : Int}
    {code : Option Int} {c : Int} :
    w.require owner field value code = .ok c ↔ code = some c := by
  unfold require
  cases code with
  | none => exact ⟨nofun, nofun⟩
  | some c' => exact ⟨fun h => by cases h; rfl, fun h => by cases h; rfl⟩

structure CodesRule (w : Widths) (r : Rule) (codes : RuleCodes) : Prop where
  fromYear : w.years.encode r.fromYear = some codes.fromYear
  toYear : w.years.encode r.toYear = some codes.toYear
  day : (codes.weekday, codes.monthDay) = r.day.codes
  time : w.time.encode r.time = some codes.time
  save : w.save.encode r.save = some codes.save

structure CodesEra (w : Widths) (era : Era) (codes : EraCodes) : Prop where
  stdOffset : w.stdOffset.encode era.stdOffset = some codes.stdOffset
  fixedSave : w.save.encode era.saving.fixedAmount = some codes.fixedSave
  untilYear : w.years.encode era.ends.year = some codes.untilYear
  untilTime : w.time.encode era.ends.seconds = some codes.untilTime

theorem codesRule_of_codeRule {policy : String} {r : Rule} {codes : RuleCodes}
    (h : w.codeRule policy r = .ok codes) : w.CodesRule r codes := by
  unfold codeRule codeYear codeTime codeSave at h
  obtain ⟨fromYear, hfrom, h⟩ := except_bind_eq_ok.1 h
  obtain ⟨toYear, hto, h⟩ := except_bind_eq_ok.1 h
  obtain ⟨time, htime, h⟩ := except_bind_eq_ok.1 h
  obtain ⟨save, hsave, h⟩ := except_bind_eq_ok.1 h
  cases h
  exact ⟨require_eq_ok.1 hfrom, require_eq_ok.1 hto, rfl,
    require_eq_ok.1 htime, require_eq_ok.1 hsave⟩

theorem codesEra_of_codeEra {zone : String} {era : Era} {codes : EraCodes}
    (h : w.codeEra zone era = .ok codes) : w.CodesEra era codes := by
  unfold codeEra codeYear codeTime codeSave codeOffset at h
  obtain ⟨stdOffset, hoffset, h⟩ := except_bind_eq_ok.1 h
  obtain ⟨fixedSave, hsave, h⟩ := except_bind_eq_ok.1 h
  obtain ⟨untilYear, hyear, h⟩ := except_bind_eq_ok.1 h
  obtain ⟨untilTime, htime, h⟩ := except_bind_eq_ok.1 h
  cases h
  exact ⟨require_eq_ok.1 hoffset, require_eq_ok.1 hsave,
    require_eq_ok.1 hyear, require_eq_ok.1 htime⟩

end Widths

end ZoneTables
