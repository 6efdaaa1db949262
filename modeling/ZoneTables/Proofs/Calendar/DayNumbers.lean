import ZoneTables.Proofs.Calendar.Months
import ZoneTables.Proofs.Calendar.Order
import ZoneTables.Proofs.Calendar.YearStart

/-!
# Day numbers

Day numbers count the days of the calendar one by one: the next day has the next
number, over the ends of months and years, and a date is before another exactly
if its number is.  So the order of dates, steps from day to day and days of the
week are all told by numbers.
-/

namespace ZoneTables

/-! ## From day to day -/

theorem daysBeforeMonth_le_succ (year : Int) {month : Nat} (h : month ≤ 12) :
    daysBeforeMonth year month ≤ daysBeforeMonth year (month + 1) := by
  unfold daysBeforeMonth
  cases hasLeapDay year <;> interval_cases month <;> decide

theorem daysBeforeMonth_succ (year : Int) {month : Nat} (h : month ≤ 12) :
    daysBeforeMonth year (month + 1) =
      daysBeforeMonth year month + monthLength year month :=
  (Nat.add_sub_cancel' (daysBeforeMonth_le_succ year h)).symm

theorem daysBeforeMonth_mono (year : Int) {month month' : Nat} (hle : month ≤ month')
    (h : month' ≤ 13) : daysBeforeMonth year month ≤ daysBeforeMonth year month' := by
  induction month', hle using Nat.le_induction with
  | base => exact Nat.le_refl _
  | succ next hle ih =>
    have hnext := daysBeforeMonth_le_succ year (by omega : next ≤ 12)
    have hrest := ih (by omega)
    omega

theorem daysBeforeMonth_december (year : Int) :
    365 + leapDays year = leapDays (year - 1) + (daysBeforeMonth year 12 + 31 : Nat) := by
  have htable : daysBeforeMonth year 12 = 334 + if hasLeapDay year then 1 else 0 := by
    unfold daysBeforeMonth
    cases hasLeapDay year <;> rfl
  rw [htable]
  unfold hasLeapDay leapDays
  simp only [decide_eq_true_eq]
  split <;> omega

namespace Date

variable {d e limit : Date} {w : Weekday}

theorem dayNumber_next (d : Date) : d.next.dayNumber = d.dayNumber + 1 := by
  have hday := d.day_le
  unfold next
  split_ifs with hwithin hmonth
  · unfold dayNumber
    dsimp only
    omega
  · have hsucc := daysBeforeMonth_succ d.year d.month_le
    unfold dayNumber
    dsimp only
    omega
  · -- the first day of the next year
    have hdecember : d.month = 12 := by
      have := d.month_le
      omega
    have hlast : monthLength d.year 12 = 31 := monthLength_eq d.year 12
    have hyear := daysBeforeMonth_december d.year
    have hfirst : daysBeforeMonth (d.year + 1) 1 = 0 := rfl
    have hnext : d.year + 1 - 1 = d.year := by omega
    rw [hdecember, hlast] at hday hwithin
    unfold dayNumber
    dsimp only
    rw [hdecember, hfirst, hnext]
    omega

theorem dayNumber_prev (d : Date) : d.prev.dayNumber = d.dayNumber - 1 := by
  have hpos := d.day_pos
  unfold prev
  split_ifs with hwithin hmonth
  · unfold dayNumber
    dsimp only
    omega
  · have hmonth' : d.month - 1 ≤ 12 := Nat.le_trans (Nat.sub_le ..) d.month_le
    have hsucc := daysBeforeMonth_succ d.year hmonth'
    rw [Nat.sub_add_cancel d.month_pos] at hsucc
    unfold dayNumber
    dsimp only
    omega
  · -- the last day of the year before
    have hjanuary : d.month = 1 := by
      have := d.month_pos
      omega
    have hyear := daysBeforeMonth_december (d.year - 1)
    have hfirst : daysBeforeMonth d.year 1 = 0 := rfl
    unfold dayNumber
    dsimp only
    rw [hjanuary, hfirst]
    omega

theorem dayNumber_forward (n : Nat) (d : Date) :
    (d.forward n).dayNumber = d.dayNumber + n := by
  induction n generalizing d with
  | zero => exact (Int.add_zero _).symm
  | succ n ih =>
    show (d.next.forward n).dayNumber = _
    rw [ih, dayNumber_next]
    omega

theorem dayNumber_backward (n : Nat) (d : Date) :
    (d.backward n).dayNumber = d.dayNumber - n := by
  induction n generalizing d with
  | zero => exact (Int.sub_zero _).symm
  | succ n ih =>
    show (d.prev.backward n).dayNumber = _
    rw [ih, dayNumber_prev]
    omega

/-! ## The order of dates -/

theorem dayNumber_lt_of_lt (h : d < e) : d.dayNumber < e.dayNumber := by
  rcases lt_iff.1 h with hyear | ⟨hyear, hmonth | ⟨hmonth, hday⟩⟩
  · have hd := d.le_firstSecond 0
    have he := e.firstSecond_le 0
    have hmono := Year.firstSecond_mono (Int.add_one_le_iff.2 hyear)
    unfold unixSeconds at hd he
    omega
  · have hday := d.day_le
    have hsucc := daysBeforeMonth_succ d.year d.month_le
    have hmonth' := e.month_le
    have hmono := daysBeforeMonth_mono d.year (Nat.succ_le_of_lt hmonth)
      (by omega : e.month ≤ 13)
    rw [Nat.succ_eq_add_one] at hmono
    have hpos := e.day_pos
    unfold dayNumber
    rw [← hyear]
    dsimp only
    omega
  · unfold dayNumber
    rw [← hyear, ← hmonth]
    dsimp only
    omega

theorem lt_iff_dayNumber_lt : d < e ↔ d.dayNumber < e.dayNumber := by
  refine ⟨dayNumber_lt_of_lt, fun h => ?_⟩
  rcases lt_trichotomy d e with hlt | rfl | hlt
  · exact hlt
  · omega
  · have := dayNumber_lt_of_lt hlt
    omega

theorem next_spec (d : Date) : d < d.next ∧ ∀ e, d < e → ¬ e < d.next := by
  simp only [lt_iff_dayNumber_lt, dayNumber_next]
  exact ⟨by omega, fun e h => by omega⟩

/-! ## Seconds -/

theorem unixSeconds_next (d : Date) (seconds : Int) :
    d.next.unixSeconds seconds = d.unixSeconds seconds + 86400 := by
  unfold unixSeconds
  rw [dayNumber_next]
  omega

theorem lt_iff_unixSeconds_lt (seconds : Int) :
    d < e ↔ d.unixSeconds seconds < e.unixSeconds seconds := by
  rw [lt_iff_dayNumber_lt]
  unfold unixSeconds
  omega

/-! ## Days of the week -/

theorem weekday_eq_iff :
    d.weekday = w ↔ (d.dayNumber - 1) % 7 = w.index := by
  rw [← Weekday.index_inj, ← index_weekday]
  omega

theorem daysTo_weekday_next (d : Date) : d.weekday.daysTo d.next.weekday = 1 := by
  have hd := index_weekday d
  have hnext := index_weekday d.next
  rw [dayNumber_next] at hnext
  unfold Weekday.daysTo
  omega

structure IsFirstFrom (d : Date) (w : Weekday) (limit : Date) : Prop where
  weekday_eq : d.weekday = w
  not_lt : ¬ d < limit
  first : ∀ other : Date, other.weekday = w → ¬ other < limit → ¬ other < d

structure IsLastUpTo (d : Date) (w : Weekday) (limit : Date) : Prop where
  weekday_eq : d.weekday = w
  not_lt : ¬ limit < d
  last : ∀ other : Date, other.weekday = w → ¬ limit < other → ¬ d < other

theorem dayNumber_onOrAfter (limit : Date) (w : Weekday) :
    (limit.onOrAfter w).dayNumber =
      limit.dayNumber + (w.index - (limit.dayNumber - 1)) % 7 := by
  have hlimit := index_weekday limit
  have hlt := limit.weekday.index_lt
  unfold onOrAfter Weekday.daysTo
  rw [dayNumber_forward]
  omega

theorem dayNumber_onOrBefore (limit : Date) (w : Weekday) :
    (limit.onOrBefore w).dayNumber =
      limit.dayNumber - (limit.dayNumber - 1 - w.index) % 7 := by
  have hlimit := index_weekday limit
  have hlt := w.index_lt
  unfold onOrBefore Weekday.daysTo
  rw [dayNumber_backward]
  omega

theorem isFirstFrom_onOrAfter (limit : Date) (w : Weekday) :
    (limit.onOrAfter w).IsFirstFrom w limit := by
  have hlt := w.index_lt
  have hnumber := dayNumber_onOrAfter limit w
  refine ⟨weekday_eq_iff.2 (by omega), by rw [lt_iff_dayNumber_lt]; omega,
    fun other hother hfrom => ?_⟩
  -- both are on one weekday, and less than a week behind the limit is only one
  rw [weekday_eq_iff] at hother
  rw [lt_iff_dayNumber_lt] at hfrom ⊢
  omega

theorem isLastUpTo_onOrBefore (limit : Date) (w : Weekday) :
    (limit.onOrBefore w).IsLastUpTo w limit := by
  have hlt := w.index_lt
  have hnumber := dayNumber_onOrBefore limit w
  refine ⟨weekday_eq_iff.2 (by omega), by rw [lt_iff_dayNumber_lt]; omega,
    fun other hother hupTo => ?_⟩
  rw [weekday_eq_iff] at hother
  rw [lt_iff_dayNumber_lt] at hupTo ⊢
  omega

/-! ## Years of dates -/

theorem year_of_near (h : d.dayNumber < e.dayNumber + 7)
    (h' : e.dayNumber < d.dayNumber + 7) :
    d.year - 1 ≤ e.year ∧ e.year ≤ d.year + 1 := by
  have hahead : ∀ d e : Date, e.dayNumber < d.dayNumber + 7 →
      e.year ≤ d.year + 1 := by
    intro d e hnear
    by_contra hfar
    have hd := d.le_firstSecond 0
    have he := e.firstSecond_le 0
    have hbetween := Year.firstSecond_add_le (by omega : d.year + 1 < e.year)
    unfold unixSeconds at hd he
    omega
  have hback := hahead e d h
  exact ⟨by omega, hahead d e h'⟩

end Date

theorem DaySpec.year_of_dateIn {spec : DaySpec} {year : Int} {month : Nat}
    {date : Date} (h : spec.dateIn year month = some date) :
    year - 1 ≤ date.year ∧ date.year ≤ year + 1 := by
  cases spec with
  | exact day =>
    have hyear := (Date.isAt_of_ofParts? h).year_eq
    omega
  | last w =>
    obtain ⟨limit, hlimit, rfl⟩ := Option.map_eq_some_iff.1 h
    have hnumber := limit.dayNumber_onOrBefore w
    rw [← (Date.isAt_of_ofParts? hlimit).year_eq]
    exact Date.year_of_near (by omega) (by omega)
  | onOrAfter w day =>
    obtain ⟨limit, hlimit, rfl⟩ := Option.map_eq_some_iff.1 h
    have hnumber := limit.dayNumber_onOrAfter w
    rw [← (Date.isAt_of_ofParts? hlimit).year_eq]
    exact Date.year_of_near (by omega) (by omega)
  | onOrBefore w day =>
    obtain ⟨limit, hlimit, rfl⟩ := Option.map_eq_some_iff.1 h
    have hnumber := limit.dayNumber_onOrBefore w
    rw [← (Date.isAt_of_ofParts? hlimit).year_eq]
    exact Date.year_of_near (by omega) (by omega)

end ZoneTables
