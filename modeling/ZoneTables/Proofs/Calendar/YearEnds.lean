import ZoneTables.Proofs.Calendar.ChosenDates

/-!
# Days next to the ends of years

Going on from a day of December behind its end leads into a later year, and going
back from a day of January before its start into an earlier one.  Each day of the
year falls on every weekday: from one leap year to the next it moves on by 1461
days, five more than whole weeks, so seven leap years in a row meet all weekdays; and
400 years are whole weeks.  Hence a weekday next to one of the last days of December
or of the first days of January does leave its year, in some of any 400 years, and no
other day specification ever does.
-/

namespace ZoneTables

namespace Weekday

theorem daysTo_of_dayAfter (w : Weekday) : (ofIndex (w.index + 1)).daysTo w = 6 := by
  have hlt := w.index_lt
  unfold daysTo
  rw [index_ofIndex]
  omega

theorem daysTo_dayBefore (w : Weekday) : w.daysTo (ofIndex (w.index + 6)) = 6 := by
  have hlt := w.index_lt
  unfold daysTo
  rw [index_ofIndex]
  omega

end Weekday

/-! ## Weekdays of a day of the year -/

theorem daysBeforeMonth_congr {year year' : Int}
    (h : isLeapYear year = isLeapYear year') (month : Nat) :
    daysBeforeMonth year month = daysBeforeMonth year' month := by
  unfold daysBeforeMonth
  rw [hasLeapDay_eq, hasLeapDay_eq, h]

theorem daysInMonth_le_of_isLeapYear {leap : Int} (h : isLeapYear leap = true)
    (year : Int) (month : Nat) : daysInMonth year month ≤ daysInMonth leap month := by
  unfold daysInMonth
  rw [h]
  split <;> simp only [Nat.le_refl]
  -- February
  split <;> decide

/-- Every fourth year from 2000 to 2096 is a leap year, and so are those that are
whole periods away. -/
theorem isLeapYear_cycle {k : Int} (hk : 0 ≤ k) (hk' : k < 25) (m : Int) :
    isLeapYear (2000 + 4 * k + 400 * m) = true := by
  simp only [isLeapYear, Bool.or_eq_true, Bool.and_eq_true, beq_iff_eq, bne_iff_ne]
  omega

/-- Seven steps of four years each with a leap year meet all days of the week, as
three of them are a day more than whole weeks. -/
theorem exists_onIndex (n : Int) {index : Nat} (h : index < 7) :
    ∃ k : Int, 0 ≤ k ∧ k < 7 ∧ (n + 1461 * k) % 7 = index :=
  ⟨3 * (index - n) % 7, by omega, by omega, by omega⟩

namespace Date

variable {d e : Date}

def inLeapYear (d : Date) {leap : Int} (h : isLeapYear leap = true) : Date :=
  ⟨leap, d.month, d.day, d.month_pos, d.month_le, d.day_pos,
    monthLength_eq leap d.month ▸
      Nat.le_trans d.day_le_daysInMonth (daysInMonth_le_of_isLeapYear h _ _)⟩

/-- A day of a leap year comes again 1461 days later in the next one, if no century
ends between them, and 146097 days later behind a period of the calendar. -/
theorem dayNumber_inLeapYear (d : Date) {k : Int} (hk : 0 ≤ k) (hk' : k < 25)
    (m : Int) :
    (d.inLeapYear (isLeapYear_cycle hk hk' m)).dayNumber =
      (d.inLeapYear (rfl : isLeapYear 2000 = true)).dayNumber +
        1461 * k + 146097 * m := by
  have hbefore : daysBeforeMonth (2000 + 4 * k + 400 * m) d.month =
      daysBeforeMonth 2000 d.month :=
    daysBeforeMonth_congr (isLeapYear_cycle hk hk' m) _
  unfold dayNumber inLeapYear leapDays
  dsimp only
  rw [hbefore]
  omega

theorem exists_onWeekday (d : Date) (w : Weekday) (start : Int) :
    ∃ e : Date, start ≤ e.year ∧ e.year < start + 400 ∧
      e.month = d.month ∧ e.day = d.day ∧ e.weekday = w := by
  obtain ⟨k, hk, hk', hindex⟩ := exists_onIndex
    ((d.inLeapYear (rfl : isLeapYear 2000 = true)).dayNumber - 1) w.index_lt
  -- periods of the calendar lead from the years behind 2000 to those behind `start`
  obtain ⟨m, hstart, hstop⟩ : ∃ m : Int, start ≤ 2000 + 4 * k + 400 * m ∧
      2000 + 4 * k + 400 * m < start + 400 :=
    ⟨-((2000 + 4 * k - start) / 400), by omega, by omega⟩
  have hcentury : k < 25 := by omega
  refine ⟨d.inLeapYear (isLeapYear_cycle hk hcentury m), hstart, hstop, rfl, rfl, ?_⟩
  rw [weekday_eq_iff, dayNumber_inLeapYear d hk hcentury]
  omega

/-! ## Steps over the end of a year -/

variable {year : Int} {month day n : Nat}

theorem year_lt_of_lastDay_lt (h : d.IsAt year 12 31) (hlt : d < e) :
    year < e.year := by
  obtain ⟨rfl, hmonth, hday⟩ := h
  rcases lt_iff.1 hlt with hyear | ⟨_, hmonth' | ⟨hmonth', hday'⟩⟩
  · exact hyear
  · have hle := e.month_le
    omega
  · have hle := e.day_le_daysInMonth
    rw [← hmonth', hmonth] at hle
    have hlong : daysInMonth e.year 12 = 31 := rfl
    omega

theorem year_lt_of_lt_firstDay (h : d.IsAt year 1 1) (hlt : e < d) :
    e.year < year := by
  obtain ⟨rfl, hmonth, hday⟩ := h
  rcases lt_iff.1 hlt with hyear | ⟨_, hmonth' | ⟨_, hday'⟩⟩
  · exact hyear
  · have hpos := e.month_pos
    omega
  · have hpos := e.day_pos
    omega

theorem IsAt.year_lt_forward (h : d.IsAt year 12 day) (hbeyond : 31 < day + n) :
    year < (d.forward n).year := by
  have hday : day ≤ 31 := h.hasDay.2
  have hlast : (d.forward (31 - day)).IsAt year 12 31 := by
    have hend : day + (31 - day) = 31 := Nat.add_sub_cancel' hday
    have hwithin := h.forward_within (n := 31 - day) (Nat.le_of_eq hend)
    rwa [hend] at hwithin
  apply year_lt_of_lastDay_lt hlast
  rw [lt_iff_dayNumber_lt, dayNumber_forward, dayNumber_forward]
  omega

theorem IsAt.backward_year_lt (h : d.IsAt year 1 day) (hbeyond : day ≤ n) :
    (d.backward n).year < year := by
  have hday : 1 ≤ day := h.hasDay.1
  have hfirst : (d.backward (day - 1)).IsAt year 1 1 := by
    have hwithin := h.backward_within (n := day - 1) (by omega)
    rwa [Nat.sub_sub_self hday] at hwithin
  apply year_lt_of_lt_firstDay hfirst
  rw [lt_iff_dayNumber_lt, dayNumber_backward, dayNumber_backward]
  omega

theorem exists_ofParts?_onWeekday {start : Int} (hleast : Year.least ≤ start)
    (hnever : start + 400 ≤ Year.never) (h₁ : 1 ≤ month) (h₂ : month ≤ 12)
    (hday : HasDay year month day) (w : Weekday) :
    ∃ limit : Date, start ≤ limit.year ∧ limit.year < start + 400 ∧
      ofParts? limit.year month day = some limit ∧ limit.weekday = w := by
  have hle : day ≤ monthLength year month := monthLength_eq year month ▸ hday.2
  obtain ⟨limit, hstart, hstop, hmonth, hday', hweekday⟩ :=
    exists_onWeekday ⟨year, month, day, h₁, h₂, hday.1, hle⟩ w start
  refine ⟨limit, hstart, hstop, ?_, hweekday⟩
  unfold Year.least at hleast
  unfold Year.never at hnever
  rw [ofParts?_eq_some_iff]
  refine ⟨⟨rfl, hmonth, hday'⟩, ?_, ?_⟩
  · unfold firstYear
    omega
  · unfold lastYear
    omega

end Date

/-! ## Days that leave their year -/

namespace DaySpec

variable {spec : DaySpec} {month : Nat}

theorem exists_dateIn_leaving {start : Int} (hproper : spec.IsProper)
    (hleave : spec.mayLeaveYear month = true) (hleast : Year.least ≤ start)
    (hnever : start + 400 ≤ Year.never) :
    ∃ year date, start ≤ year ∧ year < start + 400 ∧
      spec.dateIn year month = some date ∧ date.year ≠ year := by
  cases spec with
  | exact day => cases hleave
  | last w => cases hleave
  | onOrAfter w day =>
    obtain ⟨rfl, hlate⟩ : month = 12 ∧ 25 < day := by
      simpa [mayLeaveYear] using hleave
    have hday : HasDay start 12 day := hproper
    -- a year in which the weekday is as far ahead as it can be
    obtain ⟨limit, hstart, hstop, hlimit, hweekday⟩ :=
      Date.exists_ofParts?_onWeekday hleast hnever (by decide) (by decide) hday
        (.ofIndex (w.index + 1))
    refine ⟨limit.year, limit.onOrAfter w, hstart, hstop, ?_, ?_⟩
    · rw [dateIn, hlimit, Option.map_some]
    · apply Int.ne_of_gt
      apply (Date.isAt_of_ofParts? hlimit).year_lt_forward
      rw [hweekday, Weekday.daysTo_of_dayAfter]
      omega
  | onOrBefore w day =>
    obtain ⟨rfl, hearly⟩ : month = 1 ∧ day < 7 := by
      simpa [mayLeaveYear] using hleave
    have hday : HasDay start 1 day := hproper
    -- and one in which it is as far back
    obtain ⟨limit, hstart, hstop, hlimit, hweekday⟩ :=
      Date.exists_ofParts?_onWeekday hleast hnever (by decide) (by decide) hday
        (.ofIndex (w.index + 6))
    refine ⟨limit.year, limit.onOrBefore w, hstart, hstop, ?_, ?_⟩
    · rw [dateIn, hlimit, Option.map_some]
    · apply Int.ne_of_lt
      apply (Date.isAt_of_ofParts? hlimit).backward_year_lt
      rw [hweekday, Weekday.daysTo_dayBefore]
      omega

/-- The test for days that may leave their year is exact: a date that it lets pass
lies in the year for which it is chosen, whichever that is, and one that it stops
lies outside in some year of tables, and even in some of any 400 of them. -/
theorem mayLeaveYear_exact (hproper : spec.IsProper) :
    (spec.mayLeaveYear month = false →
      ∀ year date, spec.dateIn year month = some date → date.year = year) ∧
    (spec.mayLeaveYear month = true →
      ∀ start, Year.least ≤ start → start + 400 ≤ Year.never →
        ∃ year date, start ≤ year ∧ year < start + 400 ∧
          spec.dateIn year month = some date ∧ date.year ≠ year) := by
  constructor
  · intro hstay year date hdate
    exact (month_of_dateIn hstay hdate).1
  · intro hleave start hleast hnever
    exact exists_dateIn_leaving hproper hleave hleast hnever

/-- The Saturday from 26 December on leaves its year sometimes, and the one from 25
December on never does. -/
theorem mayLeaveYear_exact_christmas :
    ((onOrAfter .saturday 26).mayLeaveYear 12 = true ∧
      ∃ year date, 2000 ≤ year ∧ year < 2400 ∧
        (onOrAfter .saturday 26).dateIn year 12 = some date ∧ date.year ≠ year) ∧
    ((onOrAfter .saturday 25).mayLeaveYear 12 = false ∧
      ∀ year date, (onOrAfter .saturday 25).dateIn year 12 = some date →
        date.year = year) := by
  have hleaves : (onOrAfter .saturday 26).mayLeaveYear 12 = true := by decide
  have hstays : (onOrAfter .saturday 25).mayLeaveYear 12 = false := by decide
  have hproper : (onOrAfter .saturday 26).IsProper := ⟨by decide, by decide⟩
  have hproper' : (onOrAfter .saturday 25).IsProper := ⟨by decide, by decide⟩
  refine ⟨⟨hleaves, ?_⟩, hstays, ?_⟩
  · exact (mayLeaveYear_exact hproper).2 hleaves 2000 (by decide) (by decide)
  · exact (mayLeaveYear_exact hproper').1 hstays

end DaySpec

end ZoneTables
