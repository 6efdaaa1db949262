import ZoneTables.Proofs.Calendar.Days

/-!
# Days next to the ends of months

Going on for less than four weeks from a day ends in its month or in the next
one, by how many days the month has left, and going back ends in its month or
in the one before.  So the month that a day specification leads to is known
from the length of the month and a distance of weekdays.
-/

namespace ZoneTables

namespace Weekday

theorem index_inj {a b : Weekday} : a.index = b.index ↔ a = b := by
  refine ⟨fun h => ?_, fun h => by rw [h]⟩
  rw [← ofIndex_index a, h, ofIndex_index]

theorem daysTo_eq_zero_iff {a b : Weekday} : a.daysTo b = 0 ↔ a = b := by
  have ha := a.index_lt
  have hb := b.index_lt
  rw [← index_inj]
  unfold daysTo
  omega

end Weekday

namespace Date

/-! ## Steps within a year -/

structure IsAt (d : Date) (year : Int) (month day : Nat) : Prop where
  year_eq : d.year = year
  month_eq : d.month = month
  day_eq : d.day = day

variable {d : Date} {year : Int} {month day n : Nat}

theorem isAt_of_ofParts? (h : ofParts? year month day = some d) :
    d.IsAt year month day :=
  have hparts := (ofParts?_eq_some_iff.1 h).1
  ⟨hparts.1, hparts.2.1, hparts.2.2⟩

theorem forward_add (m n : Nat) (d : Date) :
    d.forward (m + n) = (d.forward m).forward n := by
  induction m generalizing d with
  | zero => rw [Nat.zero_add]; rfl
  | succ m ih =>
    rw [Nat.succ_add]
    show d.next.forward (m + n) = (d.next.forward m).forward n
    exact ih d.next

theorem backward_add (m n : Nat) (d : Date) :
    d.backward (m + n) = (d.backward m).backward n := by
  induction m generalizing d with
  | zero => rw [Nat.zero_add]; rfl
  | succ m ih =>
    rw [Nat.succ_add]
    show d.prev.backward (m + n) = (d.prev.backward m).backward n
    exact ih d.prev

namespace IsAt

theorem unique {year' : Int} {month' day' : Nat} (h : d.IsAt year month day)
    (h' : d.IsAt year' month' day') :
    year = year' ∧ month = month' ∧ day = day' :=
  ⟨h.year_eq.symm.trans h'.year_eq, h.month_eq.symm.trans h'.month_eq,
    h.day_eq.symm.trans h'.day_eq⟩

theorem next_of_lt (h : d.IsAt year month day)
    (hlt : day < daysInMonth year month) : d.next.IsAt year month (day + 1) := by
  obtain ⟨rfl, rfl, rfl⟩ := h
  rw [← monthLength_eq] at hlt
  unfold next
  rw [dif_pos hlt]
  exact ⟨rfl, rfl, rfl⟩

theorem next_of_last (h : d.IsAt year month (daysInMonth year month))
    (hmonth : month < 12) : d.next.IsAt year (month + 1) 1 := by
  obtain ⟨rfl, rfl, hday⟩ := h
  rw [← monthLength_eq] at hday
  unfold next
  rw [dif_neg (by omega), dif_pos hmonth]
  exact ⟨rfl, rfl, rfl⟩

theorem prev_of_lt (h : d.IsAt year month day) (hlt : 1 < day) :
    d.prev.IsAt year month (day - 1) := by
  obtain ⟨rfl, rfl, rfl⟩ := h
  unfold prev
  rw [dif_pos hlt]
  exact ⟨rfl, rfl, rfl⟩

theorem prev_of_first (h : d.IsAt year month 1) (hmonth : 1 < month) :
    d.prev.IsAt year (month - 1) (daysInMonth year (month - 1)) := by
  obtain ⟨rfl, rfl, hday⟩ := h
  rw [← monthLength_eq]
  unfold prev
  rw [dif_neg (by omega), dif_pos hmonth]
  exact ⟨rfl, rfl, rfl⟩

theorem forward_within (h : d.IsAt year month day)
    (hle : day + n ≤ daysInMonth year month) :
    (d.forward n).IsAt year month (day + n) := by
  induction n generalizing d day with
  | zero => exact h
  | succ n ih =>
    have hnext : d.next.IsAt year month (day + 1) := h.next_of_lt (by omega)
    have hrest := ih hnext (by omega)
    rwa [Nat.add_assoc, Nat.add_comm 1 n] at hrest

theorem backward_within (h : d.IsAt year month day) (hlt : n < day) :
    (d.backward n).IsAt year month (day - n) := by
  induction n generalizing d day with
  | zero => exact h
  | succ n ih =>
    have hprev : d.prev.IsAt year month (day - 1) := h.prev_of_lt (by omega)
    have hrest := ih hprev (by omega)
    rwa [Nat.sub_sub, Nat.add_comm 1 n] at hrest

theorem forward_beyond (h : d.IsAt year month day)
    (hlt : daysInMonth year month < day + n) (hmonth : month < 12)
    (hn : n ≤ 28) :
    (d.forward n).IsAt year (month + 1) (day + n - daysInMonth year month) := by
  have hday : day ≤ daysInMonth year month := by
    rw [← h.year_eq, ← h.month_eq, ← h.day_eq]
    exact d.day_le_daysInMonth
  -- the rest of the month, a step into the next one, and the days behind it
  obtain ⟨rest, hrest⟩ : ∃ rest,
      n = daysInMonth year month - day + (1 + rest) :=
    ⟨n - (daysInMonth year month - day) - 1, by omega⟩
  have hlast : (d.forward (daysInMonth year month - day)).IsAt year month
      (daysInMonth year month) := by
    have hwithin := h.forward_within
      (n := daysInMonth year month - day) (by omega)
    rwa [Nat.add_sub_cancel' hday] at hwithin
  have hfirst := hlast.next_of_last hmonth
  have hbehind := hfirst.forward_within (n := rest)
    (le_daysInMonth_of_le (by omega) hmonth (by omega))
  rw [hrest, forward_add, forward_add]
  have hcount : day + (daysInMonth year month - day + (1 + rest)) -
      daysInMonth year month = 1 + rest := by omega
  rw [hcount]
  exact hbehind

theorem backward_beyond (h : d.IsAt year month day) (hle : day ≤ n)
    (hmonth : 1 < month) (hn : n ≤ 28) :
    (d.backward n).IsAt year (month - 1)
      (daysInMonth year (month - 1) + day - n) := by
  have hday : 1 ≤ day := by
    rw [← h.day_eq]
    exact d.day_pos
  have hmonth' : month ≤ 12 := by
    rw [← h.month_eq]
    exact d.month_le
  have hlong : 28 ≤ daysInMonth year (month - 1) :=
    le_daysInMonth_of_le (by omega) (by omega) (Nat.le_refl 28)
  obtain ⟨rest, hrest⟩ : ∃ rest, n = day - 1 + (1 + rest) :=
    ⟨n - day, by omega⟩
  have hfirst : (d.backward (day - 1)).IsAt year month 1 := by
    have hwithin := h.backward_within (n := day - 1) (by omega)
    rwa [Nat.sub_sub_self hday] at hwithin
  have hlast := hfirst.prev_of_first hmonth
  have hbefore := hlast.backward_within (n := rest) (by omega)
  rw [hrest, backward_add, backward_add]
  have hcount : daysInMonth year (month - 1) + day - (day - 1 + (1 + rest)) =
      daysInMonth year (month - 1) - rest := by omega
  rw [hcount]
  exact hbefore

theorem dayNumber_sub {e : Date} {day' : Nat} (h : d.IsAt year month day)
    (h' : e.IsAt year month day') :
    e.dayNumber - d.dayNumber = (day' : Int) - day := by
  obtain ⟨rfl, rfl, rfl⟩ := h
  obtain ⟨hyear, hmonth, rfl⟩ := h'
  unfold dayNumber
  rw [hyear, hmonth]
  dsimp only
  omega

end IsAt

/-! ## Distances of weekdays -/

theorem index_weekday (d : Date) :
    (d.weekday.index : Int) = (d.dayNumber - 1) % 7 := by
  unfold weekday
  rw [Weekday.index_ofIndex]
  omega

/-- The date that is fewer than seven days back is the last one on its
weekday. -/
theorem daysTo_weekday_eq_iff {e : Date} {w : Weekday}
    (h : e.dayNumber - d.dayNumber = (n : Int)) (hn : n < 7) :
    w.daysTo e.weekday = n ↔ w = d.weekday := by
  have hd := index_weekday d
  have he := index_weekday e
  have hlt := w.index_lt
  rw [← Weekday.index_inj]
  unfold Weekday.daysTo
  omega

end Date

/-! ## The month of a chosen date -/

namespace DaySpec

/-- The neighbouring month that the weekday next to a day lies in, if it does
not lie in the month of the day. -/
def strayMonth? (year : Int) (month : Nat) : DaySpec → Option Nat
  | exact _ | last _ => none
  | onOrAfter w day =>
    (Date.ofParts? year month day).bind fun limit =>
      if daysInMonth year month < day + limit.weekday.daysTo w then
        some (month + 1)
      else none
  | onOrBefore w day =>
    (Date.ofParts? year month day).bind fun limit =>
      if day ≤ w.daysTo limit.weekday then some (month - 1) else none

def mayLeaveMonth : DaySpec → Bool
  | exact _ | last _ => false
  | onOrAfter _ day => decide (22 < day)
  | onOrBefore _ day => decide (day < 7)

variable {year : Int} {month day : Nat} {spec : DaySpec} {w : Weekday}
  {date limit : Date}

theorem strayMonth?_onOrAfter (h : Date.ofParts? year month day = some limit) :
    (onOrAfter w day).strayMonth? year month =
      if daysInMonth year month < day + limit.weekday.daysTo w then
        some (month + 1)
      else none := by
  show (Date.ofParts? year month day).bind _ = _
  rw [h, Option.bind_some]

theorem strayMonth?_onOrBefore (h : Date.ofParts? year month day = some limit) :
    (onOrBefore w day).strayMonth? year month =
      if day ≤ w.daysTo limit.weekday then some (month - 1) else none := by
  show (Date.ofParts? year month day).bind _ = _
  rw [h, Option.bind_some]

theorem exists_isAt_last (h : (last w).dateIn year month = some date) :
    ∃ day, 22 ≤ day ∧ date.IsAt year month day := by
  obtain ⟨limit, hlimit, rfl⟩ := Option.map_eq_some_iff.1 h
  have hat := Date.isAt_of_ofParts? hlimit
  have hlong : 28 ≤ daysInMonth year month := by
    rw [← hat.month_eq]
    exact le_daysInMonth_of_le limit.month_pos limit.month_le (Nat.le_refl 28)
  have hback := Weekday.daysTo_lt w limit.weekday
  exact ⟨_, by omega, hat.backward_within (n := w.daysTo limit.weekday)
    (by omega)⟩

/-- The weekday from a day on lies in the next month if the month ends before,
which December does not unless the year may be left. -/
theorem isAt_onOrAfter_beyond (hlimit : Date.ofParts? year month day = some limit)
    (hstay : (onOrAfter w day).mayLeaveYear month = false)
    (hbeyond : daysInMonth year month < day + limit.weekday.daysTo w) :
    (limit.onOrAfter w).IsAt year (month + 1)
      (day + limit.weekday.daysTo w - daysInMonth year month) := by
  have hat := Date.isAt_of_ofParts? hlimit
  have hahead := Weekday.daysTo_lt limit.weekday w
  have hmonth : month < 12 := by
    have hle := limit.month_le
    rw [hat.month_eq] at hle
    refine Nat.lt_of_le_of_ne hle fun hdecember => ?_
    subst hdecember
    have hday : ¬ 25 < day := by simpa [mayLeaveYear] using hstay
    have hlong : daysInMonth year 12 = 31 := rfl
    omega
  exact hat.forward_beyond hbeyond hmonth (by omega)

theorem isAt_onOrBefore_beyond (hlimit : Date.ofParts? year month day = some limit)
    (hstay : (onOrBefore w day).mayLeaveYear month = false)
    (hbeyond : day ≤ w.daysTo limit.weekday) :
    (limit.onOrBefore w).IsAt year (month - 1)
      (daysInMonth year (month - 1) + day - w.daysTo limit.weekday) := by
  have hat := Date.isAt_of_ofParts? hlimit
  have hback := Weekday.daysTo_lt w limit.weekday
  have hmonth : 1 < month := by
    have hpos := limit.month_pos
    rw [hat.month_eq] at hpos
    refine Nat.lt_of_le_of_ne hpos fun hjanuary => ?_
    subst hjanuary
    have hday : ¬ day < 7 := by simpa [mayLeaveYear] using hstay
    omega
  exact hat.backward_beyond hbeyond hmonth (by omega)

theorem month_of_dateIn (hstay : spec.mayLeaveYear month = false)
    (h : spec.dateIn year month = some date) :
    date.year = year ∧
      date.month = (spec.strayMonth? year month).getD month := by
  cases spec with
  | exact day =>
    have hat := Date.isAt_of_ofParts? h
    exact ⟨hat.year_eq, hat.month_eq⟩
  | last w =>
    obtain ⟨_, _, hat⟩ := exists_isAt_last h
    exact ⟨hat.year_eq, hat.month_eq⟩
  | onOrAfter w day =>
    obtain ⟨limit, hlimit, rfl⟩ := Option.map_eq_some_iff.1 h
    rw [strayMonth?_onOrAfter hlimit]
    split
    · rename_i hbeyond
      have hat := isAt_onOrAfter_beyond hlimit hstay hbeyond
      exact ⟨hat.year_eq, hat.month_eq⟩
    · rename_i hwithin
      have hat := (Date.isAt_of_ofParts? hlimit).forward_within
        (Nat.le_of_not_lt hwithin)
      exact ⟨hat.year_eq, hat.month_eq⟩
  | onOrBefore w day =>
    obtain ⟨limit, hlimit, rfl⟩ := Option.map_eq_some_iff.1 h
    rw [strayMonth?_onOrBefore hlimit]
    split
    · rename_i hbeyond
      have hat := isAt_onOrBefore_beyond hlimit hstay hbeyond
      exact ⟨hat.year_eq, hat.month_eq⟩
    · rename_i hwithin
      have hat := (Date.isAt_of_ofParts? hlimit).backward_within
        (Nat.lt_of_not_le hwithin)
      exact ⟨hat.year_eq, hat.month_eq⟩

theorem strayMonth?_eq_none (h₁ : 1 ≤ month) (h₂ : month ≤ 12)
    (hstay : spec.mayLeaveMonth = false) :
    spec.strayMonth? year month = none := by
  have hlong : 28 ≤ daysInMonth year month :=
    le_daysInMonth_of_le h₁ h₂ (Nat.le_refl 28)
  cases spec with
  | exact day => rfl
  | last w => rfl
  | onOrAfter w day =>
    have hday : day ≤ 22 := by simpa [mayLeaveMonth] using hstay
    refine Option.bind_eq_none_iff.2 fun limit _ => if_neg ?_
    have hahead := Weekday.daysTo_lt limit.weekday w
    omega
  | onOrBefore w day =>
    have hday : 7 ≤ day := by simpa [mayLeaveMonth] using hstay
    refine Option.bind_eq_none_iff.2 fun limit _ => if_neg ?_
    have hback := Weekday.daysTo_lt w limit.weekday
    omega

end DaySpec

end ZoneTables
