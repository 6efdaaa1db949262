import ZoneTables.Database.Resolution
import ZoneTables.Proofs.Calendar.DayText
import Mathlib.Tactic.IntervalCases

/-!
# Days that exist

The months of dates are as long as `daysInMonth` says, and the years with a leap
day are the leap years.  The calendar repeats after 400 years, so a day exists in
every year of a range if it exists in the first 400 of them, before year 1 as well
as behind it.  The last weekday of a month always exists, and a weekday next to a
day exists with the day.
-/

namespace ZoneTables

/-! ## The months of dates -/

theorem hasLeapDay_eq (year : Int) : hasLeapDay year = isLeapYear year := by
  unfold hasLeapDay leapDays isLeapYear
  rw [Bool.eq_iff_iff]
  simp only [decide_eq_true_eq, Bool.or_eq_true, Bool.and_eq_true, beq_iff_eq,
    bne_iff_ne]
  omega

theorem monthLength_eq (year : Int) (month : Nat) :
    monthLength year month = daysInMonth year month := by
  unfold monthLength daysBeforeMonth daysInMonth
  rw [hasLeapDay_eq]
  generalize isLeapYear year = leap
  by_cases h : month ≤ 12
  · interval_cases month <;> cases leap <;> rfl
  · obtain ⟨rest, rfl⟩ := Nat.exists_eq_add_of_le' (Nat.lt_of_not_le h)
    have hnext : 2 < rest + (12 + 1) + 1 := by omega
    have hthis : 2 < rest + (12 + 1) := by omega
    have hlast : commonDays.getD (rest + (12 + 1) + 1) 0 = 0 := rfl
    rw [hlast]
    simp only [hnext, hthis]
    omega

theorem Date.day_le_daysInMonth (d : Date) : d.day ≤ daysInMonth d.year d.month :=
  monthLength_eq d.year d.month ▸ d.day_le

/-! ## The period of the calendar -/

/-- Remainders may also be taken towards zero, in years before year 1 too. -/
theorem isLeapYear_eq_tmod (year : Int) :
    isLeapYear year =
      ((year.tmod 4 == 0 && year.tmod 100 != 0) || year.tmod 400 == 0) := by
  have hzero (n : Int) : year % n = 0 ↔ year.tmod n = 0 :=
    Int.dvd_iff_emod_eq_zero.symm.trans Int.dvd_iff_tmod_eq_zero
  unfold isLeapYear
  rw [Bool.eq_iff_iff]
  simp [hzero]

theorem isLeapYear_add_mul (year k : Int) :
    isLeapYear (year + 400 * k) = isLeapYear year := by
  have h4 : (year + 400 * k) % 4 = year % 4 := by omega
  have h100 : (year + 400 * k) % 100 = year % 100 := by omega
  have h400 : (year + 400 * k) % 400 = year % 400 := by omega
  unfold isLeapYear
  rw [h4, h100, h400]

theorem daysInMonth_congr {year year' : Int}
    (h : isLeapYear year = isLeapYear year') (month : Nat) :
    daysInMonth year month = daysInMonth year' month := by
  unfold daysInMonth
  rw [h]

theorem daysInMonth_add_mul (year k : Int) (month : Nat) :
    daysInMonth (year + 400 * k) month = daysInMonth year month :=
  daysInMonth_congr (isLeapYear_add_mul year k) month

/-- The months of a year are as long as those of one of the first 400 years of a
range that the year is in. -/
theorem exists_daysInMonth_eq {first year : Int} (h : first ≤ year)
    (month : Nat) :
    ∃ i : Nat, i < 400 ∧ first + i ≤ year ∧
      daysInMonth year month = daysInMonth (first + i) month := by
  obtain ⟨i, hi⟩ : ∃ i : Nat, (i : Int) = (year - first) % 400 :=
    ⟨((year - first) % 400).toNat, by omega⟩
  have hyear : year = first + i + 400 * ((year - first) / 400) := by omega
  refine ⟨i, by omega, by omega, ?_⟩
  calc daysInMonth year month
      = daysInMonth (first + i + 400 * ((year - first) / 400)) month := by
        rw [← hyear]
    _ = daysInMonth (first + i) month := daysInMonth_add_mul _ _ _

theorem le_daysInMonth_of_le {year : Int} {month day : Nat} (h₁ : 1 ≤ month)
    (h₂ : month ≤ 12) (hday : day ≤ 28) : day ≤ daysInMonth year month := by
  interval_cases month <;> simp only [daysInMonth] <;> (try split) <;> omega

theorem daysInMonth_pos {year : Int} {month : Nat} (h₁ : 1 ≤ month)
    (h₂ : month ≤ 12) : 1 ≤ daysInMonth year month :=
  le_daysInMonth_of_le h₁ h₂ (by decide)

/-! ## Days of every year -/

section EveryYear

variable {first last year : Int} {month day : Nat}

/-- Of a day that some month lacks, the test looks at the first 400 years of the
range. -/
theorem existsEveryYear_iff_first (hlast : last ≤ Year.endless)
    (hday : 28 < day) :
    existsEveryYear first last month day ↔
      ∀ i : Nat, i < 400 → first + i ≤ last →
        day ≤ daysInMonth (first + i) month := by
  unfold existsEveryYear
  rw [if_neg (by omega)]
  simp only [List.all_eq_true, List.mem_range, decide_eq_true_eq]
  constructor
  · intro h i hi hyear
    exact h i (by omega)
  · intro h i hi
    exact h i (by omega) (by omega)

theorem le_daysInMonth_of_existsEveryYear (hlast : last ≤ Year.endless)
    (h₁ : 1 ≤ month) (h₂ : month ≤ 12)
    (h : existsEveryYear first last month day) (hfirst : first ≤ year)
    (hyear : year ≤ last) : day ≤ daysInMonth year month := by
  by_cases hday : day ≤ 28
  · exact le_daysInMonth_of_le h₁ h₂ hday
  · obtain ⟨i, hi, hle, hmonth⟩ := exists_daysInMonth_eq hfirst month
    rw [hmonth]
    apply (existsEveryYear_iff_first hlast (by omega)).1 h i hi
    omega

theorem existsEveryYear_of_le_daysInMonth (hlast : last ≤ Year.endless)
    (h : ∀ year, first ≤ year → year ≤ last → day ≤ daysInMonth year month) :
    existsEveryYear first last month day := by
  by_cases hday : day ≤ 28
  · unfold existsEveryYear
    rw [if_pos hday]
  · apply (existsEveryYear_iff_first hlast (by omega)).2
    intro i _ hyear
    exact h (first + i) (by omega) hyear

/-- The test tells exactly which days exist in every year of a range, though it
looks at no more than 400 years. -/
theorem existsEveryYear_iff_forall (hlast : last ≤ Year.endless)
    (h₁ : 1 ≤ month) (h₂ : month ≤ 12) :
    existsEveryYear first last month day = true ↔
      ∀ year, first ≤ year → year ≤ last → day ≤ daysInMonth year month := by
  constructor
  · intro h year hfirst hyear
    exact le_daysInMonth_of_existsEveryYear hlast h₁ h₂ h hfirst hyear
  · exact existsEveryYear_of_le_daysInMonth hlast

/-- In all years of tables there is a 31 March, but not a 29 February: the first of
them, long before year 1, has none. -/
theorem existsEveryYear_iff_forall_allYears :
    existsEveryYear Year.least Year.endless 3 31 = true ∧
      existsEveryYear Year.least Year.endless 2 29 = false := by
  refine ⟨(existsEveryYear_iff_forall (Int.le_refl _) (by decide) (by decide)).2
    fun _ _ _ => Nat.le_refl 31, ?_⟩
  rw [← Bool.not_eq_true,
    existsEveryYear_iff_forall (Int.le_refl _) (by decide) (by decide)]
  intro h
  exact absurd (h Year.least (by decide) (by decide)) (by decide)

theorem existsEveryYear_leapDay_iff (hle : first ≤ last)
    (hlast : last ≤ Year.endless) :
    existsEveryYear first last 2 29 = true ↔
      first = last ∧ isLeapYear first = true := by
  have hleap {year : Int} : 29 ≤ daysInMonth year 2 ↔ isLeapYear year = true := by
    simp only [daysInMonth]
    split <;> simp_all
  constructor
  · intro h
    have hyear {year : Int} (hfirst : first ≤ year) (hyear : year ≤ last) :
        isLeapYear year = true :=
      hleap.1 (le_daysInMonth_of_existsEveryYear hlast (by decide) (by decide) h
        hfirst hyear)
    have hfirst := hyear (Int.le_refl first) hle
    rcases Int.lt_or_eq_of_le hle with hlt | heq
    · -- of two years in a row not both are leap years
      have hnext : isLeapYear (first + 1) = true := hyear (by omega) hlt
      simp only [isLeapYear, Bool.or_eq_true, Bool.and_eq_true, beq_iff_eq,
        bne_iff_ne] at hfirst hnext
      omega
    · exact ⟨heq, hfirst⟩
  · rintro ⟨rfl, hfirst⟩
    apply existsEveryYear_of_le_daysInMonth hlast
    intro year hge hle
    obtain rfl : year = first := by omega
    exact hleap.2 hfirst

end EveryYear

/-! ## Dates of day specifications -/

theorem Date.ofParts?_eq_some_iff {year : Int} {month day : Nat} {date : Date} :
    ofParts? year month day = some date ↔
      (date.year = year ∧ date.month = month ∧ date.day = day) ∧
        firstYear ≤ year ∧ year ≤ lastYear := by
  unfold ofParts?
  constructor
  · intro h
    split at h
    · rename_i hc
      cases h
      exact ⟨⟨rfl, rfl, rfl⟩, hc.2⟩
    · cases h
  · rintro ⟨⟨rfl, rfl, rfl⟩, hyear⟩
    rw [dif_pos ⟨⟨date.month_pos, date.month_le, date.day_pos, date.day_le⟩,
      hyear⟩]

theorem Date.ofParts?_isSome_iff {year : Int} {month day : Nat}
    (h₁ : 1 ≤ month) (h₂ : month ≤ 12) (hday : 1 ≤ day)
    (hfirst : firstYear ≤ year) (hlast : year ≤ lastYear) :
    (ofParts? year month day).isSome ↔ day ≤ daysInMonth year month := by
  rw [← monthLength_eq]
  unfold ofParts?
  split
  · rename_i hc
    exact ⟨fun _ => hc.1.2.2.2, fun _ => rfl⟩
  · rename_i hc
    exact ⟨nofun, fun h => absurd ⟨⟨h₁, h₂, hday, h⟩, hfirst, hlast⟩ hc⟩

namespace DaySpec

def limit? : DaySpec → Option Nat
  | exact day => some day
  | last _ => none
  | onOrAfter _ day => some day
  | onOrBefore _ day => some day

theorem isSome_dateIn_iff {year : Int} {month : Nat} {spec : DaySpec}
    (h₁ : 1 ≤ month) (h₂ : month ≤ 12) (hproper : spec.IsProper)
    (hfirst : Date.firstYear ≤ year) (hlast : year ≤ Date.lastYear) :
    (spec.dateIn year month).isSome ↔
      ∀ day, spec.limit? = some day → day ≤ daysInMonth year month := by
  cases spec with
  | exact day =>
    rw [dateIn, Date.ofParts?_isSome_iff h₁ h₂ hproper.1 hfirst hlast]
    exact ⟨fun h d hd => by cases hd; exact h, fun h => h day rfl⟩
  | last w =>
    rw [dateIn, Option.isSome_map, Date.ofParts?_isSome_iff h₁ h₂
      (daysInMonth_pos h₁ h₂) hfirst hlast]
    exact ⟨fun _ _ => nofun, fun _ => Nat.le_refl _⟩
  | onOrAfter w day =>
    rw [dateIn, Option.isSome_map,
      Date.ofParts?_isSome_iff h₁ h₂ hproper.1 hfirst hlast]
    exact ⟨fun h d hd => by cases hd; exact h, fun h => h day rfl⟩
  | onOrBefore w day =>
    rw [dateIn, Option.isSome_map,
      Date.ofParts?_isSome_iff h₁ h₂ hproper.1 hfirst hlast]
    exact ⟨fun h d hd => by cases hd; exact h, fun h => h day rfl⟩

end DaySpec

end ZoneTables
