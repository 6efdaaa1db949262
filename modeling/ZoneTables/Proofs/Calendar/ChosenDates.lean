import ZoneTables.Proofs.Calendar.DayNumbers

/-!
# Chosen dates

Which date a day specification chooses is said by the order of dates: a day that
its month has, the last date of a month on a weekday, or the closest date on a
weekday to a day that the month has.  Nothing is chosen only if the month lacks
the day.
-/

namespace ZoneTables

variable {year : Int} {month day : Nat} {w : Weekday}

namespace Date

variable {d e limit : Date}

theorem IsFirstFrom.unique (h : d.IsFirstFrom w limit)
    (h' : e.IsFirstFrom w limit) : d = e :=
  ((lt_trichotomy d e).resolve_left (h'.first d h.weekday_eq h.not_lt)).resolve_right
    (h.first e h'.weekday_eq h'.not_lt)

theorem IsLastUpTo.unique (h : d.IsLastUpTo w limit)
    (h' : e.IsLastUpTo w limit) : d = e :=
  ((lt_trichotomy d e).resolve_left (h.last e h'.weekday_eq h'.not_lt)).resolve_right
    (h'.last d h.weekday_eq h.not_lt)

structure IsLastInMonth (d : Date) (year : Int) (month : Nat) (w : Weekday) :
    Prop where
  year_eq : d.year = year
  month_eq : d.month = month
  weekday_eq : d.weekday = w
  last : ∀ other : Date, other.year = year → other.month = month →
    other.weekday = w → ¬ d < other

theorem IsLastInMonth.unique (h : d.IsLastInMonth year month w)
    (h' : e.IsLastInMonth year month w) : d = e :=
  ((lt_trichotomy d e).resolve_left
    (h.last e h'.year_eq h'.month_eq h'.weekday_eq)).resolve_right
    (h'.last d h.year_eq h.month_eq h.weekday_eq)

theorem IsAt.eq (h : d.IsAt year month day) (h' : e.IsAt year month day) :
    d = e :=
  ext_iff.2 ⟨h.year_eq.trans h'.year_eq.symm, h.month_eq.trans h'.month_eq.symm,
    h.day_eq.trans h'.day_eq.symm⟩

end Date

def HasDay (year : Int) (month day : Nat) : Prop :=
  1 ≤ day ∧ day ≤ daysInMonth year month

theorem Date.IsAt.hasDay {d : Date} (h : d.IsAt year month day) :
    HasDay year month day := by
  obtain ⟨rfl, rfl, rfl⟩ := h
  exact ⟨d.day_pos, d.day_le_daysInMonth⟩

theorem Date.exists_ofParts? (hleast : Year.least ≤ year)
    (hnever : year ≤ Year.never) (h₁ : 1 ≤ month) (h₂ : month ≤ 12)
    (hday : HasDay year month day) : ∃ date, ofParts? year month day = some date := by
  unfold Year.least at hleast
  unfold Year.never at hnever
  rw [← Option.isSome_iff_exists, ofParts?_isSome_iff h₁ h₂ hday.1
    (by unfold firstYear; omega) (by unfold lastYear; omega)]
  exact hday.2

namespace DaySpec

/-- Whether a date is the one that a specification chooses in a month. -/
def Chooses (year : Int) (month : Nat) : DaySpec → Date → Prop
  | exact day, date => date.IsAt year month day
  | last w, date => date.IsLastInMonth year month w
  | onOrAfter w day, date =>
    ∃ limit : Date, limit.IsAt year month day ∧ date.IsFirstFrom w limit
  | onOrBefore w day, date =>
    ∃ limit : Date, limit.IsAt year month day ∧ date.IsLastUpTo w limit

variable {spec : DaySpec} {date other : Date}

theorem Chooses.unique (h : spec.Chooses year month date)
    (h' : spec.Chooses year month other) : date = other := by
  cases spec with
  | exact day => exact Date.IsAt.eq h h'
  | last w => exact Date.IsLastInMonth.unique h h'
  | onOrAfter w day =>
    obtain ⟨limit, hlimit, hfirst⟩ := h
    obtain ⟨limit', hlimit', hfirst'⟩ := h'
    rw [← hlimit.eq hlimit'] at hfirst'
    exact hfirst.unique hfirst'
  | onOrBefore w day =>
    obtain ⟨limit, hlimit, hlast⟩ := h
    obtain ⟨limit', hlimit', hlast'⟩ := h'
    rw [← hlimit.eq hlimit'] at hlast'
    exact hlast.unique hlast'

theorem Chooses.hasDay (h : spec.Chooses year month date) :
    ∀ day ∈ spec.limit?, HasDay year month day := by
  intro day hday
  cases spec with
  | exact _ => cases hday; exact Date.IsAt.hasDay h
  | last _ => cases hday
  | onOrAfter _ _ => cases hday; exact h.choose_spec.1.hasDay
  | onOrBefore _ _ => cases hday; exact h.choose_spec.1.hasDay

theorem chooses_of_dateIn (h : spec.dateIn year month = some date) :
    spec.Chooses year month date := by
  cases spec with
  | exact day => exact Date.isAt_of_ofParts? h
  | last w =>
    obtain ⟨_, _, hat⟩ := exists_isAt_last h
    obtain ⟨limit, hlimit, rfl⟩ := Option.map_eq_some_iff.1 h
    obtain ⟨rfl, rfl, hday⟩ := Date.isAt_of_ofParts? hlimit
    have hlast := limit.isLastUpTo_onOrBefore w
    refine ⟨hat.year_eq, hat.month_eq, hlast.weekday_eq,
      fun other hyear hmonth hother => hlast.last other hother ?_⟩
    -- no date of the month is behind its last day
    have hle := other.day_le_daysInMonth
    rw [Date.lt_iff]
    rw [hyear, hmonth] at hle ⊢
    omega
  | onOrAfter w day =>
    obtain ⟨limit, hlimit, rfl⟩ := Option.map_eq_some_iff.1 h
    exact ⟨limit, Date.isAt_of_ofParts? hlimit, limit.isFirstFrom_onOrAfter w⟩
  | onOrBefore w day =>
    obtain ⟨limit, hlimit, rfl⟩ := Option.map_eq_some_iff.1 h
    exact ⟨limit, Date.isAt_of_ofParts? hlimit, limit.isLastUpTo_onOrBefore w⟩

theorem exists_dateIn (hleast : Year.least ≤ year) (hnever : year ≤ Year.never)
    (h₁ : 1 ≤ month) (h₂ : month ≤ 12)
    (hday : ∀ day ∈ spec.limit?, HasDay year month day) :
    ∃ date, spec.dateIn year month = some date := by
  have hlimit := fun {day : Nat} (hday : HasDay year month day) =>
    Date.exists_ofParts? hleast hnever h₁ h₂ hday
  cases spec with
  | exact day => exact hlimit (hday day rfl)
  | last w =>
    have hlast : HasDay year month (daysInMonth year month) :=
      ⟨daysInMonth_pos h₁ h₂, Nat.le_refl _⟩
    obtain ⟨limit, hparts⟩ := hlimit hlast
    exact ⟨_, by rw [dateIn, hparts, Option.map_some]⟩
  | onOrAfter w day =>
    obtain ⟨limit, hparts⟩ := hlimit (hday day rfl)
    exact ⟨_, by rw [dateIn, hparts, Option.map_some]⟩
  | onOrBefore w day =>
    obtain ⟨limit, hparts⟩ := hlimit (hday day rfl)
    exact ⟨_, by rw [dateIn, hparts, Option.map_some]⟩

/-- In each month of the years of tables the date that is found is the one that
is chosen, and one is found unless the month lacks the day next to which it
lies.  From a day to the next one are 86400 seconds, so that seconds are in the
order of dates; no date lies between the two, and the days of the week follow
each other. -/
theorem dateIn_eq_some_iff_chooses (hleast : Year.least ≤ year)
    (hnever : year ≤ Year.never) (h₁ : 1 ≤ month) (h₂ : month ≤ 12) :
    (∀ spec date, dateIn year month spec = some date ↔
        spec.Chooses year month date) ∧
      (∀ spec, (dateIn year month spec).isSome ↔
        ∀ day ∈ spec.limit?, HasDay year month day) ∧
      (∀ (d : Date) (seconds : Int),
        d.next.unixSeconds seconds = d.unixSeconds seconds + 86400) ∧
      (∀ (d e : Date) (seconds : Int),
        d < e ↔ d.unixSeconds seconds < e.unixSeconds seconds) ∧
      ∀ d : Date, (d < d.next ∧ ∀ e, d < e → ¬ e < d.next) ∧
        d.weekday.daysTo d.next.weekday = 1 := by
  have hfound : ∀ spec : DaySpec, (∀ day ∈ spec.limit?, HasDay year month day) →
      ∃ date, spec.dateIn year month = some date :=
    fun _ hday => exists_dateIn hleast hnever h₁ h₂ hday
  refine ⟨fun spec date => ⟨chooses_of_dateIn, fun h => ?_⟩,
    fun spec => ⟨fun h => ?_, fun hday => ?_⟩, Date.unixSeconds_next,
    fun _ _ => Date.lt_iff_unixSeconds_lt,
    fun d => ⟨d.next_spec, d.daysTo_weekday_next⟩⟩
  · obtain ⟨other, hother⟩ := hfound spec h.hasDay
    rw [hother, (chooses_of_dateIn hother).unique h]
  · obtain ⟨date, hdate⟩ := Option.isSome_iff_exists.1 h
    exact (chooses_of_dateIn hdate).hasDay
  · exact Option.isSome_iff_exists.2 (hfound spec hday)

/-- The Saturday from the last day of the last year of tables on lies behind all of
them, and the month of that day has no 32nd day. -/
theorem dateIn_eq_some_iff_chooses_lastDay :
    ∃ date : Date, (onOrAfter .saturday 31).dateIn Year.never 12 = some date ∧
      (onOrAfter .saturday 31).Chooses Year.never 12 date ∧
      date.IsAt 32768 1 6 ∧
      ((exact 32).dateIn Year.never 12).isSome = false := by
  have hfound : ∃ date ∈ (onOrAfter .saturday 31).dateIn Year.never 12,
      date.year = 32768 ∧ date.month = 1 ∧ date.day = 6 := by
    decide +kernel
  obtain ⟨hchooses, hexists, _⟩ := dateIn_eq_some_iff_chooses
    (by decide : Year.least ≤ Year.never) (Int.le_refl _)
    (by decide : 1 ≤ 12) (by decide)
  obtain ⟨date, hdate, hyear, hmonth, hday⟩ := hfound
  refine ⟨date, hdate, (hchooses _ _).1 hdate, ⟨hyear, hmonth, hday⟩, ?_⟩
  rw [← Bool.not_eq_true, hexists]
  exact fun h => absurd (h 32 rfl).2 (by decide)

end DaySpec

end ZoneTables
