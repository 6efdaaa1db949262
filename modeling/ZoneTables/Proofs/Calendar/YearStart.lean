import Mathlib.Data.Int.Init
import Mathlib.Tactic.IntervalCases
import ZoneTables.Proofs.Database.Dates

/-!
# The first seconds of years

In universal time a year starts at least 365 days after the one before it, and
a date lies within its year.
-/

namespace ZoneTables

def Year.firstSecond (year : Int) : Int :=
  (365 * (year - 1) + (year - 1) / 4 - (year - 1) / 100 + (year - 1) / 400 + 1 -
    Date.unixEpochDay) * 86400

theorem Year.firstSecond_succ (year : Int) :
    firstSecond year + 365 * 86400 ≤ firstSecond (year + 1) := by
  unfold firstSecond
  omega

theorem Year.firstSecond_mono {year year' : Int} (h : year ≤ year') :
    firstSecond year ≤ firstSecond year' := by
  induction year', h using Int.leInduction with
  | base => exact Int.le_refl _
  | succ next _ ih =>
    have := firstSecond_succ next
    omega

theorem Year.firstSecond_add_le {year year' : Int} (h : year < year') :
    firstSecond year + 365 * 86400 ≤ firstSecond year' :=
  Int.le_trans (firstSecond_succ year) (firstSecond_mono h)

theorem Date.unixSeconds_first {d : Date} (hmonth : d.month = 1)
    (hday : d.day = 1) : d.unixSeconds 0 = Year.firstSecond d.year := by
  unfold unixSeconds Year.firstSecond
  rw [dayNumber_first hmonth hday]
  omega

theorem Date.firstSecond_le (d : Date) (seconds : Int) :
    Year.firstSecond d.year + seconds ≤ d.unixSeconds seconds := by
  have := d.day_pos
  unfold unixSeconds Year.firstSecond dayNumber leapDays
  dsimp only
  omega

theorem daysBeforeMonth_add_le (year : Int) {month : Nat} (h : 1 ≤ month)
    (h' : month ≤ 12) :
    daysBeforeMonth year month + daysInMonth year month ≤
      if isLeapYear year then 366 else 365 := by
  unfold daysBeforeMonth daysInMonth
  rw [hasLeapDay_eq]
  cases isLeapYear year <;> interval_cases month <;> decide

theorem Year.firstSecond_succ_eq (year : Int) :
    firstSecond (year + 1) =
      firstSecond year + (if isLeapYear year then 366 else 365 : Nat) * 86400 := by
  have hyear : year + 1 - 1 = year := by omega
  unfold firstSecond isLeapYear
  simp only [hyear, Bool.or_eq_true, Bool.and_eq_true, beq_iff_eq, bne_iff_ne]
  split <;> omega

theorem Date.le_firstSecond (d : Date) (seconds : Int) :
    d.unixSeconds seconds ≤ Year.firstSecond (d.year + 1) - 86400 + seconds := by
  have hmonth := daysBeforeMonth_add_le d.year d.month_pos d.month_le
  have hday := d.day_le_daysInMonth
  rw [Year.firstSecond_succ_eq]
  unfold unixSeconds Year.firstSecond dayNumber leapDays
  dsimp only
  omega

theorem yearBounds?_eq_some {year : Int} {bounds : YearBounds}
    (h : yearBounds? year = some bounds) :
    bounds = ⟨Year.firstSecond year, Year.firstSecond (year + 1)⟩ := by
  unfold yearBounds? at h
  split at h
  · rename_i first next hfirst hnext
    obtain ⟨⟨hyear, hmonth, hday⟩, _⟩ := Date.ofParts?_eq_some_iff.1 hfirst
    obtain ⟨⟨hyear', hmonth', hday'⟩, _⟩ := Date.ofParts?_eq_some_iff.1 hnext
    cases h
    rw [Date.unixSeconds_first hmonth hday, Date.unixSeconds_first hmonth' hday',
      hyear, hyear']
  · cases h

end ZoneTables
