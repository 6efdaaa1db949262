import ZoneTables.Proofs.Calendar.Months
import ZoneTables.Proofs.Calendar.Order
import ZoneTables.Proofs.Database.Dates

/-!
# The times at which rules take effect

A rule takes effect once in each year that it covers.  As long as it does so within
the year itself, it does so later in later years.  The latest time of a rule is thus
that of a single year, and the latest time of some rules is the latest of these.
-/

namespace ZoneTables

/-! ## One rule -/

namespace Rule

def Occurs (r : Rule) (t : LocalTime) : Prop :=
  ∃ year, r.covers year ∧ r.occurrence? year = some t

/-- Whether a rule takes effect at a local time, in a year that it covers and that
is not behind a given one. -/
def OccursBy (r : Rule) (last : Int) (t : LocalTime) : Prop :=
  ∃ year ≤ last, r.covers year ∧ r.occurrence? year = some t

/-- Whether a rule takes effect within each year that it covers, up to a given
one. -/
def StaysInYears (r : Rule) (last : Int) : Prop :=
  ∀ year ≤ last, r.covers year →
    ∃ t, r.occurrence? year = some t ∧ t.date.year = year

variable {r : Rule} {last year year' : Int} {t t' : LocalTime}

theorem OccursBy.occurs (h : r.OccursBy last t) : r.Occurs t :=
  h.imp fun _ h => h.2

theorem StaysInYears.not_lt (h : r.StaysInYears last) (hle : year ≤ year')
    (hlast : year' ≤ last) (hcovers : r.covers year) (hcovers' : r.covers year')
    (ht : r.occurrence? year = some t) (ht' : r.occurrence? year' = some t') :
    ¬ t' < t := by
  obtain ⟨_, hsome, hyear⟩ := h year (Int.le_trans hle hlast) hcovers
  obtain ⟨_, hsome', hyear'⟩ := h year' hlast hcovers'
  cases ht.symm.trans hsome
  cases ht'.symm.trans hsome'
  rcases Int.lt_or_eq_of_le hle with hlt | rfl
  · exact LocalTime.lt_asymm (LocalTime.lt_of_year_lt (by omega))
  · cases ht.symm.trans ht'
    exact LocalTime.lt_irrefl t

theorem StaysInYears.not_lt_of_occursBy (h : r.StaysInYears last)
    (hyear : year ≤ last) (hcovers : r.covers year)
    (hmax : ∀ y ≤ last, r.covers y → y ≤ year)
    (ht : r.occurrence? year = some t) (ht' : r.OccursBy last t') : ¬ t < t' := by
  obtain ⟨year', hlast, hcovers', ht'⟩ := ht'
  exact h.not_lt (hmax year' hlast hcovers') hyear hcovers' hcovers ht' ht

end Rule

/-- Whether a time is the last of some times, if there are any. -/
structure LastTime (times : LocalTime → Prop) (last : Option LocalTime) :
    Prop where
  attained : ∀ t, last = some t → times t
  latest : ∀ t, last = some t → ∀ t', times t' → ¬ t < t'
  isSome : ∀ t, times t → last.isSome

theorem Rule.staysInYears_of_only {r : Rule} (hyears : r.toYear ≤ r.fromYear)
    (h : ∃ t ∈ r.occurrence? r.fromYear, t.date.year = r.fromYear) (last : Int) :
    r.StaysInYears last := by
  intro year _ hcovers
  obtain ⟨hfrom, hto⟩ := covers_iff.1 hcovers
  obtain rfl : year = r.fromYear := by omega
  exact h

theorem LastTime.exists_last {times : LocalTime → Prop} {last : Option LocalTime}
    (h : LastTime times last) {t : LocalTime} (ht : times t) :
    ∃ t', last = some t' ∧ ¬ t' < t := by
  obtain ⟨t', ht'⟩ := Option.isSome_iff_exists.1 (h.isSome t ht)
  exact ⟨t', ht', h.latest t' ht' t ht⟩

theorem LastTime.eq_none_iff {times : LocalTime → Prop} {last : Option LocalTime}
    (h : LastTime times last) : last = none ↔ ∀ t, ¬ times t := by
  constructor
  · rintro rfl t ht
    exact absurd (h.isSome t ht) Bool.false_ne_true
  · intro hno
    exact Option.eq_none_iff_forall_not_mem.2 fun t ht => hno t (h.attained t ht)

/-! ## Some rules -/

namespace Rule

structure IsLatest (times : Rule → LocalTime → Prop) (rules : List Rule)
    (time : LocalTime) (r : Rule) : Prop where
  attained : times r time
  latest : ∀ r' ∈ rules, ∀ t, times r' t → ¬ time < t

def IsFirstLatest (times : Rule → LocalTime → Prop) (rules : List Rule)
    (r : Rule) : Prop :=
  ∃ front back time, rules = front ++ r :: back ∧
    r.IsLatest times rules time ∧ ∀ r' ∈ front, ¬ times r' time

def IsLastLatest (times : Rule → LocalTime → Prop) (rules : List Rule)
    (r : Rule) : Prop :=
  ∃ front back time, rules = front ++ r :: back ∧
    r.IsLatest times rules time ∧ ∀ r' ∈ back, ¬ times r' time

section Latest

variable {times : Rule → LocalTime → Prop} {last : Rule → Option LocalTime}
  {rules : List Rule} {r : Rule} {time : LocalTime}
  (h : ∀ r ∈ rules, LastTime (times r) (last r))

include h

theorem isLatest_iff (hr : r ∈ rules) :
    r.IsLatest times rules time ↔
      last r = some time ∧ ∀ r' ∈ rules, ∀ t, last r' = some t → ¬ time < t := by
  constructor
  · rintro ⟨hattained, hlatest⟩
    obtain ⟨t, ht, hnot⟩ := (h r hr).exists_last hattained
    have hnot' := hlatest r hr t ((h r hr).attained t ht)
    obtain rfl : time = t := LocalTime.eq_of_not_lt hnot' hnot
    exact ⟨ht, fun r' hr' t' ht' => hlatest r' hr' t' ((h r' hr').attained t' ht')⟩
  · rintro ⟨htime, hall⟩
    refine ⟨(h r hr).attained time htime, fun r' hr' t ht hlt => ?_⟩
    obtain ⟨t', ht', hnot⟩ := (h r' hr').exists_last ht
    rcases LocalTime.lt_trichotomy t' time with hlt' | rfl | hlt'
    · exact hnot (LocalTime.lt_trans hlt' hlt)
    · exact hnot hlt
    · exact hall r' hr' t' ht' hlt'

/-- A rule without later times does not take effect at a time exactly if its last
time is before. -/
theorem not_times_iff (hr : r ∈ rules)
    (hnot : ∀ t, last r = some t → ¬ time < t) :
    ¬ times r time ↔ ∀ t, last r = some t → t < time := by
  constructor
  · intro hno t ht
    rcases LocalTime.lt_trichotomy t time with hlt | rfl | hlt
    · exact hlt
    · exact absurd ((h r hr).attained t ht) hno
    · exact absurd hlt (hnot t ht)
  · intro hall hattained
    obtain ⟨t, ht, hle⟩ := (h r hr).exists_last hattained
    exact hle (hall t ht)

theorem isLatest_and_iff (hr : r ∈ rules) {others : List Rule}
    (hothers : ∀ r' ∈ others, r' ∈ rules) :
    (r.IsLatest times rules time ∧ ∀ r' ∈ others, ¬ times r' time) ↔
      last r = some time ∧ (∀ r' ∈ rules, ∀ t, last r' = some t → ¬ time < t) ∧
        ∀ r' ∈ others, ∀ t, last r' = some t → t < time := by
  rw [isLatest_iff h hr, and_assoc, and_congr_right_iff, and_congr_right_iff]
  intro _ hall
  exact forall₂_congr fun r' hr' =>
    not_times_iff h (hothers r' hr') (hall r' (hothers r' hr'))

end Latest

end Rule

/-! ## Resolved rules -/

theorem staysInYears_of_resolvePolicy {w : Widths} {strict : Bool}
    {sources : List SourceRule} {rules : List Rule}
    (hsources : ∀ source ∈ sources, source.IsProper)
    (h : (resolvePolicy w strict sources).result = .ok rules) {r : Rule}
    (hr : r ∈ rules) {last : Int} (hday : ∀ year ≤ last, ¬ r.LacksDay year) :
    r.StaysInYears last := by
  intro year hle hcovers
  obtain ⟨source, hsource, hresolve⟩ :=
    forall₂_exists_left (resolvePolicy_eq_ok.1 h) hr
  have hsome := (SourceRule.isSome_occurrence?_resolved (hsources source hsource)
    hresolve hcovers).2 (hday year hle)
  obtain ⟨t, ht⟩ := Option.isSome_iff_exists.1 hsome
  obtain ⟨date, hdate, rfl⟩ := Option.map_eq_some_iff.1 ht
  exact ⟨_, ht, (DaySpec.month_of_dateIn
    (SourceRule.mayLeaveYear_of_resolve hresolve) hdate).1⟩

end ZoneTables
