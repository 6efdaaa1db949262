import ZoneTables.Proofs.Calendar.DayText
import ZoneTables.Proofs.Clock
import ZoneTables.Proofs.Success
import ZoneTables.Source.Record

/-!
# What fields are read as

Every field that can be read has a value within fixed bounds, and so has every
record that is put together from fields.
-/

namespace ZoneTables

namespace Field

theorem year_range {token : String} {y : Int} (h : year token = .ok y) :
    Year.least ≤ y ∧ y ≤ Year.endless := by
  unfold year at h
  split at h
  · split at h
    · rename_i hy
      cases h
      exact hy
    · cases h
  · cases h

theorem lastYear_range {token : String} {first y : Int}
    (hfirst : first ≤ Year.endless) (h : lastYear token first = .ok y) :
    first ≤ y ∧ y ≤ Year.endless := by
  unfold lastYear at h
  obtain ⟨last, hlast, h⟩ := except_bind_eq_ok.1 h
  have hle : last ≤ Year.endless := by
    unfold endYear at hlast
    dsimp only at hlast
    split at hlast
    · cases hlast
      exact hfirst
    · split at hlast
      · cases hlast
        exact Int.le_refl _
      · exact (year_range hlast).2
  split at h
  · cases h
  · cases h
    omega

theorem month_range {token : String} {m : Nat} (h : month token = .ok m) :
    1 ≤ m ∧ m ≤ 12 := by
  unfold month at h
  split at h
  · rename_i m' hm
    cases h
    unfold Month.read? at hm
    split at hm
    · cases hm
    · obtain ⟨i, hi, rfl⟩ := Option.map_eq_some_iff.1 hm
      have hlt : i < 12 := (List.findIdx?_eq_some_iff_getElem.1 hi).1
      omega
  · cases h

theorem daySpec_isProper {token : String} {spec : DaySpec}
    (h : daySpec token = .ok spec) : spec.IsProper := by
  unfold daySpec at h
  split at h
  · rename_i hs
    cases h
    exact DaySpec.isProper_of_read? hs
  · cases h

theorem amount_le {token : String} {n : Int} (h : amount token = .ok n) :
    n.natAbs ≤ Clock.greatest := by
  unfold amount at h
  split at h
  · rename_i hn
    cases h
    exact Clock.read?_natAbs_le hn
  · cases h

theorem time_le {token : String} {n : Int} {frame : TimeFrame}
    (h : time token = .ok (n, frame)) : n.natAbs ≤ Clock.greatest := by
  unfold time at h
  dsimp only at h
  split at h
  · obtain ⟨m, hm, h⟩ := except_bind_eq_ok.1 h
    have hle := amount_le hm
    split at h
    · cases h
      exact hle
    · split at h
      · cases h
        exact hle
      · cases h
  · cases h

theorem save_le {token : String} {n : Int} (h : save token = .ok n) :
    n.natAbs ≤ Clock.greatest := by
  unfold save at h
  split at h
  · exact amount_le h
  · exact amount_le h
  · exact amount_le h

theorem optional_ind {α : Type} {read : String → Except FieldError α}
    {missing a : α} {token : Option String} {P : α → Prop}
    (hread : ∀ token a, read token = .ok a → P a) (hmissing : P missing)
    (h : optional read missing token = .ok a) : P a := by
  cases token with
  | some token => exact hread token a h
  | none =>
    cases h
    exact hmissing

end Field

theorem onLine_eq_ok {α : Type} {x : Except FieldError α} {a : α} :
    onLine x = .ok a ↔ x = .ok a := by
  cases x with
  | ok b => exact ⟨fun h => by cases h; rfl, fun h => by cases h; rfl⟩
  | error e => exact ⟨nofun, nofun⟩

/-! ## Records -/

structure SourceRule.IsProper (r : SourceRule) : Prop where
  least_le : Year.least ≤ r.fromYear
  years : r.fromYear ≤ r.toYear
  le_endless : r.toYear ≤ Year.endless
  month : 1 ≤ r.month ∧ r.month ≤ 12
  day : r.day.IsProper
  time : r.time.natAbs ≤ Clock.greatest
  save : r.save.natAbs ≤ Clock.greatest

structure SourceUntil.IsProper (u : SourceUntil) : Prop where
  least_le : Year.least ≤ u.year
  le_endless : u.year ≤ Year.endless
  month : 1 ≤ u.month ∧ u.month ≤ 12
  day : u.day.IsProper
  seconds : u.seconds.natAbs ≤ Clock.greatest

structure SourceEra.IsProper (era : SourceEra) : Prop where
  stdOffset : era.stdOffset.natAbs ≤ Clock.greatest
  ends : ∀ u, era.ends = some u → u.IsProper

theorem SourceRule.isProper_of_read {origin : SourceLine}
    {fields : List String} {r : SourceRule} (h : read origin fields = .ok r) :
    r.IsProper := by
  unfold read at h
  split at h
  · rw [onLine_eq_ok] at h
    obtain ⟨fromYear, hfrom, h⟩ := except_bind_eq_ok.1 h
    obtain ⟨toYear, hto, h⟩ := except_bind_eq_ok.1 h
    obtain ⟨⟨seconds, frame⟩, htime, h⟩ := except_bind_eq_ok.1 h
    obtain ⟨month, hmonth, h⟩ := except_bind_eq_ok.1 h
    obtain ⟨day, hday, h⟩ := except_bind_eq_ok.1 h
    obtain ⟨save, hsave, h⟩ := except_bind_eq_ok.1 h
    cases h
    have hyears := Field.year_range hfrom
    have hlast := Field.lastYear_range hyears.2 hto
    exact ⟨hyears.1, hlast.1, hlast.2, Field.month_range hmonth,
      Field.daySpec_isProper hday, Field.time_le htime, Field.save_le hsave⟩
  · cases h

theorem SourceUntil.isProper_of_read {year : String} {rest : List String}
    {u : SourceUntil} (h : read year rest = .ok u) : u.IsProper := by
  unfold read at h
  obtain ⟨y, hy, h⟩ := except_bind_eq_ok.1 h
  obtain ⟨month, hmonth, h⟩ := except_bind_eq_ok.1 h
  obtain ⟨day, hday, h⟩ := except_bind_eq_ok.1 h
  obtain ⟨⟨seconds, frame⟩, htime, h⟩ := except_bind_eq_ok.1 h
  cases h
  have hyear := Field.year_range hy
  have hmonth := Field.optional_ind (P := fun m => 1 ≤ m ∧ m ≤ 12)
    (fun _ _ h => Field.month_range h) (by decide) hmonth
  have hfirst : (DaySpec.exact 1).IsProper := ⟨by decide, by decide⟩
  have hday := Field.optional_ind (P := DaySpec.IsProper)
    (fun _ _ h => Field.daySpec_isProper h) hfirst hday
  have htime := Field.optional_ind
    (P := fun t : Int × TimeFrame => t.1.natAbs ≤ Clock.greatest)
    (fun _ _ h => Field.time_le h) (by decide) htime
  exact ⟨hyear.1, hyear.2, hmonth, hday, htime⟩

theorem SourceUntil.isProper_of_readEnd {fields : List String}
    {u : SourceUntil} (h : readEnd fields = .ok (some u)) : u.IsProper := by
  cases fields with
  | nil => cases h
  | cons year rest =>
    obtain ⟨u', hread, h⟩ := except_bind_eq_ok.1 h
    cases h
    exact isProper_of_read hread

theorem SourceEra.isProper_of_read {kind : RecordKind} {before : Nat}
    {origin : SourceLine} {fields : List String} {era : SourceEra}
    (h : read kind before origin fields = .ok era) : era.IsProper := by
  unfold read at h
  split at h
  · split at h
    · cases h
    · rw [onLine_eq_ok] at h
      obtain ⟨stdOffset, hoffset, h⟩ := except_bind_eq_ok.1 h
      obtain ⟨ends, hends, h⟩ := except_bind_eq_ok.1 h
      cases h
      refine ⟨Field.amount_le hoffset, fun u hu => ?_⟩
      have hu' : ends = some u := hu
      subst hu'
      exact SourceUntil.isProper_of_readEnd hends
  · cases h

end ZoneTables
