import ZoneTables.Proofs.Buffer.Lookback
import ZoneTables.Proofs.Database.Occurrences
import ZoneTables.Proofs.Database.Simplicity

/-!
# The latest time before a local time

A look-up goes through two years of a rule only: the last one that it covers up to
the year of the local time, and the one before.  This is enough as long as rules
stay in the years that they are looked for in.  Years behind the local time are not
looked at, so that a rule which is early for the next year can be missed.
-/

namespace ZoneTables

variable {bound : LocalTime} {rules : List Rule} {r : Rule} {year : Int}
  {t : LocalTime}

/-! ## One rule -/

namespace Rule

def timeBefore? (r : Rule) (bound : LocalTime) (year : Int) : Option LocalTime :=
  if r.fromYear ≤ year then
    (r.occurrence? year).filter fun time => decide (time < bound)
  else none

theorem timeBefore?_eq_some_iff :
    r.timeBefore? bound year = some t ↔
      r.fromYear ≤ year ∧ r.occurrence? year = some t ∧ t < bound := by
  unfold timeBefore?
  by_cases hfrom : r.fromYear ≤ year
  · rw [if_pos hfrom, Option.filter_eq_some_iff, decide_eq_true_eq]
    exact ⟨fun h => ⟨hfrom, h⟩, fun h => h.2⟩
  · rw [if_neg hfrom]
    exact ⟨nofun, fun h => absurd h.1 hfrom⟩

theorem lastBeforeTime?_eq :
    r.lastBeforeTime? bound =
      (r.timeBefore? bound (min r.toYear bound.date.year)).or
        (r.timeBefore? bound (min r.toYear bound.date.year - 1)) := by
  unfold lastBeforeTime? timeBefore?
  simp only [List.findSome?_cons, List.findSome?_nil]
  split
  · rename_i time htime
    rw [htime, Option.some_or]
  · rename_i hnone
    rw [hnone, Option.none_or]
    split
    · rename_i time htime
      rw [htime]
    · rename_i hnone'
      rw [hnone']

/-- In a rule that stays in its years the two years that are looked at hold the
last time before a local time. -/
theorem lastTime_lastBeforeTime? (h : r.StaysInYears bound.date.year) :
    LastTime (fun t => r.OccursBy bound.date.year t ∧ t < bound)
      (r.lastBeforeTime? bound) where
  attained t ht := by
    obtain ⟨year, hfrom, hle, hocc, hlt⟩ := lastBeforeTime?_eq_some ht
    exact ⟨⟨year, by omega, covers_iff.2 ⟨hfrom, by omega⟩, hocc⟩, hlt⟩
  latest t ht := by
    rintro t' ⟨⟨year', hle', hcovers', hocc'⟩, hlt'⟩
    obtain ⟨hfrom', hto'⟩ := covers_iff.1 hcovers'
    rw [lastBeforeTime?_eq, Option.or_eq_some_iff] at ht
    rcases ht with ht | ⟨hnone, ht⟩
    · obtain ⟨hfrom, hocc, _⟩ := timeBefore?_eq_some_iff.1 ht
      exact h.not_lt (by omega) (by omega) hcovers'
        (covers_iff.2 ⟨hfrom, by omega⟩) hocc' hocc
    · obtain ⟨hfrom, hocc, _⟩ := timeBefore?_eq_some_iff.1 ht
      -- what was not found in the last year is not before the local time
      have hne : year' ≠ min r.toYear bound.date.year := by
        rintro rfl
        rw [timeBefore?_eq_some_iff.2 ⟨hfrom', hocc', hlt'⟩] at hnone
        cases hnone
      exact h.not_lt (by omega) (by omega) hcovers'
        (covers_iff.2 ⟨hfrom, by omega⟩) hocc' hocc
  isSome t ht := by
    obtain ⟨⟨year, hle, hcovers, hocc⟩, hlt⟩ := ht
    obtain ⟨hfrom, hto⟩ := covers_iff.1 hcovers
    rw [lastBeforeTime?_eq, Option.isSome_or, Bool.or_eq_true]
    by_cases hyear : year = min r.toYear bound.date.year
    · left
      rw [← hyear, timeBefore?_eq_some_iff.2 ⟨hfrom, hocc, hlt⟩]
      rfl
    · -- the year before the last one lies before the local time
      right
      obtain ⟨t', hocc', hyear'⟩ := h (min r.toYear bound.date.year - 1)
        (by omega) (covers_iff.2 ⟨by omega, by omega⟩)
      rw [timeBefore?_eq_some_iff.2
        ⟨by omega, hocc', LocalTime.lt_of_year_lt (by omega)⟩]
      rfl

end Rule

/-! ## The rule that is found -/

/-- Whether of some rules the last one at the latest of their times is found, and
none only if they have no times. -/
structure Rule.FindsLast (times : Rule → LocalTime → Prop) (rules : List Rule)
    (found : Option Rule) : Prop where
  eq_none_iff : found = none ↔ ∀ r ∈ rules, ∀ t, ¬ times r t
  eq_some_iff : ∀ r, found = some r ↔ r.IsLastLatest times rules

theorem Rule.FindsLast.congr {times times' : Rule → LocalTime → Prop}
    {found : Option Rule} (h : FindsLast times rules found)
    (hsame : ∀ r ∈ rules, ∀ t, times r t ↔ times' r t) :
    FindsLast times' rules found where
  eq_none_iff := by
    rw [h.eq_none_iff]
    exact forall₂_congr fun r hr => forall_congr' fun t => not_congr (hsame r hr t)
  eq_some_iff r := by
    rw [h.eq_some_iff]
    refine exists_congr fun front => exists_congr fun back =>
      exists_congr fun time => and_congr_right fun hsplit => ?_
    have hr : r ∈ rules := by simp [hsplit]
    have hback : ∀ r' ∈ back, r' ∈ rules := fun r' hr' => by simp [hsplit, hr']
    refine and_congr ⟨fun h => ⟨(hsame r hr time).1 h.attained, ?_⟩,
      fun h => ⟨(hsame r hr time).2 h.attained, ?_⟩⟩ ?_
    · exact fun r' hr' t ht => h.latest r' hr' t ((hsame r' hr' t).2 ht)
    · exact fun r' hr' t ht => h.latest r' hr' t ((hsame r' hr' t).1 ht)
    · exact forall₂_congr fun r' hr' => not_congr (hsame r' (hback r' hr') time)

theorem findsLast_of_lastTime {times : Rule → LocalTime → Prop}
    (h : ∀ r ∈ rules, LastTime (times r) (r.lastBeforeTime? bound)) :
    Rule.FindsLast times rules (latestRule? rules bound) where
  eq_none_iff := by
    rw [latestRule?_eq_none]
    exact forall₂_congr fun r hr => (h r hr).eq_none_iff
  eq_some_iff rule := by
    constructor
    · intro hfound
      obtain ⟨front, back, time, rfl, htime, hfront, hback⟩ :=
        latestRule?_eq_some hfound
      refine ⟨front, back, time, rfl, (Rule.isLatest_and_iff h (by simp)
        (by simp +contextual)).2 ⟨htime, fun r hr t ht => ?_, hback⟩⟩
      rcases List.mem_append.1 hr with hr | hr
      · exact hfront r hr t ht
      · rcases List.mem_cons.1 hr with rfl | hr
        · cases htime.symm.trans ht
          exact LocalTime.lt_irrefl time
        · exact LocalTime.lt_asymm (hback r hr t ht)
    · rintro ⟨front, back, time, rfl, hlatest⟩
      obtain ⟨htime, hall, hback⟩ := (Rule.isLatest_and_iff h (by simp)
        (by simp +contextual)).1 hlatest
      exact latestRule?_of_split htime
        (fun r hr => hall r (List.mem_append_left _ hr)) hback

/-- If no rule takes effect before a local time in a year behind it, then the times
before it are those in the years up to its own. -/
theorem Rule.FindsLast.of_occursBy {found : Option Rule}
    (h : FindsLast (fun r t => r.OccursBy bound.date.year t ∧ t < bound) rules
      found)
    (hyears : ∀ r ∈ rules, ∀ t, r.Occurs t → t < bound →
      r.OccursBy bound.date.year t) :
    FindsLast (fun r t => r.Occurs t ∧ t < bound) rules found :=
  h.congr fun r hr t => ⟨fun ht => ⟨ht.1.occurs, ht.2⟩,
    fun ht => ⟨hyears r hr t ht.1 ht.2, ht.2⟩⟩

theorem findsLast_of_staysInYears
    (h : ∀ r ∈ rules, r.StaysInYears bound.date.year) :
    Rule.FindsLast (fun r t => r.OccursBy bound.date.year t ∧ t < bound) rules
      (latestRule? rules bound) :=
  findsLast_of_lastTime fun r hr => Rule.lastTime_lastBeforeTime? (h r hr)

/-! ## Made databases -/

namespace MadeOf

variable {o : Options} {s : Source} {db : Database} {name : String}
  (h : MadeOf o s db) (hget : db.policies.get? name = some rules)

include h hget

theorem year_of_occurrence? (hr : r ∈ rules) (ht : r.occurrence? year = some t) :
    t.date.year = year := by
  obtain ⟨_, _, _, hresolve, hselected⟩ := h.exists_policy hget
  have hstay : r.day.mayLeaveYear r.month = false := by
    rcases RuleSelection.mem_selected.1 (hselected ▸ hr) with rfl | hkept
    · rfl
    · have hanchor := not_isAnchor_of_resolvePolicy hresolve r
        (RuleSelection.mem_kept.1 hkept).1
      exact h.mayLeaveYear_eq_false hget hr hanchor
  obtain ⟨date, hdate, rfl⟩ := Option.map_eq_some_iff.1 ht
  exact (DaySpec.month_of_dateIn hstay hdate).1

theorem staysInYears (hr : r ∈ rules) {last : Int}
    (hday : ∀ year ≤ last, ¬ r.LacksDay year) :
    r.StaysInYears last := by
  intro year hle hcovers
  have hsome := (h.datable name rules hget r hr year hcovers).2 (hday year hle)
  obtain ⟨t, ht⟩ := Option.isSome_iff_exists.1 hsome
  exact ⟨t, ht, h.year_of_occurrence? hget hr ht⟩

theorem occursBy (hr : r ∈ rules) (ht : r.Occurs t) (hlt : t < bound) :
    r.OccursBy bound.date.year t := by
  obtain ⟨year, hcovers, hocc⟩ := ht
  refine ⟨year, ?_, hcovers, hocc⟩
  rw [← h.year_of_occurrence? hget hr hocc]
  exact LocalTime.year_le_of_lt hlt

theorem findsLast
    (hday : ∀ r ∈ rules, ∀ year ≤ bound.date.year, ¬ r.LacksDay year) :
    Rule.FindsLast (fun r t => r.Occurs t ∧ t < bound) rules
      (latestRule? rules bound) := by
  have hstays : ∀ r ∈ rules, r.StaysInYears bound.date.year :=
    fun r hr => h.staysInYears hget hr (hday r hr)
  exact (findsLast_of_staysInYears hstays).of_occursBy
    fun r hr t ht hlt => h.occursBy hget hr ht hlt

end MadeOf

/-! ## Years behind the local time -/

/-- A look-up finds the last rule at the latest of the times before a local time,
in the years up to its own in which the rules stay.  It is the latest of all
times before the local time if years behind it hold none of them. -/
theorem findsLast_latestRule?
    (h : ∀ r ∈ rules, r.StaysInYears bound.date.year) :
    Rule.FindsLast (fun r t => r.OccursBy bound.date.year t ∧ t < bound) rules
        (latestRule? rules bound) ∧
      ((∀ r ∈ rules, ∀ t, r.Occurs t → t < bound →
          r.OccursBy bound.date.year t) →
        Rule.FindsLast (fun r t => r.Occurs t ∧ t < bound) rules
          (latestRule? rules bound)) :=
  ⟨findsLast_of_staysInYears h, (findsLast_of_staysInYears h).of_occursBy⟩

def lastSundaysText : SourceText where
  name := "t"
  text := "R P 2000 ma - Mar lastSun 2 1 D\n" ++
    "R P 2000 ma - Oct lastSun 2 0 S\n" ++
    "Z Z 0 P E%s\n"

def marchOf2001 : LocalTime :=
  ⟨⟨2001, 3, 25, by decide, by decide, by decide, by decide⟩, 7200⟩

/-- The rule that takes effect at the local time itself does not count there, and
the one of the year before is found. -/
theorem findsLast_latestRule?_lastSundaysText :
    ∃ db rules r, MadeFrom basicYears [lastSundaysText] db ∧
      db.policies.get? "P" = some rules ∧
      (∀ r ∈ rules, r.StaysInYears marchOf2001.date.year) ∧
      (∀ r ∈ rules, ∀ t, r.Occurs t → t < marchOf2001 →
        r.OccursBy marchOf2001.date.year t) ∧
      latestRule? rules marchOf2001 = some r ∧ r.letter = "S" ∧
      Rule.FindsLast (fun r t => r.Occurs t ∧ t < marchOf2001) rules (some r) := by
  have hrun : (Source.empty.readTexts [] [lastSundaysText]).fault = none ∧
      ∃ db ∈ (Database.ofSource basicYears (Source.empty.readTexts []
          [lastSundaysText]).source).result.toOption,
        ∃ rules ∈ db.policies.get? "P",
          (∀ r ∈ rules, r.day = .exact 1 ∨ r.day = .last .sunday) ∧
          ∃ r ∈ latestRule? rules marchOf2001, r.letter = "S" := by
    decide +kernel
  obtain ⟨hread, hmade⟩ := hrun
  obtain ⟨db, hdb, rules, hget, hdays, r, hfound, hletter⟩ :=
    exists_eq_ok_of_toOption hmade
  have h : MadeFrom basicYears [lastSundaysText] db := ⟨hread, hdb⟩
  have hstays : ∀ r ∈ rules, r.StaysInYears marchOf2001.date.year := by
    intro r hr
    refine h.madeOf.staysInYears hget hr fun year _ ⟨_, _, _, hday, _⟩ => ?_
    rcases hdays r hr with hexact | hlast
    · simp [hexact] at hday
    · simp [hlast] at hday
  have hoccurs : ∀ r ∈ rules, ∀ t, r.Occurs t → t < marchOf2001 →
      r.OccursBy marchOf2001.date.year t :=
    fun r hr t ht hlt => h.madeOf.occursBy hget hr ht hlt
  exact ⟨db, rules, r, h, hget, hstays, hoccurs, hfound, hletter,
    hfound ▸ (findsLast_latestRule? hstays).2 hoccurs⟩

/-- Rules of one year each.  In 2001 the second one takes effect on the last day
of 2000. -/
def strayingRules : List Rule :=
  [⟨1990, 1990, 1, .exact 1, 0, .wall, 0, "", false, ""⟩,
    ⟨2001, 2001, 1, .onOrBefore .sunday 3, 2700, .wall, 3600, "D", false, ""⟩,
    ⟨2000, 2000, 12, .exact 31, 1800, .utc, 0, "", false, ""⟩]

/-- A rule that leaves its year for an earlier one is not found in it, though all
rules stay in the years up to the one of the local time. -/
theorem not_findsLast_strayingRules :
    ∃ bound : LocalTime, Date.ofParts? 2000 12 31 = some bound.date ∧
      bound.seconds = 3600 ∧
      (∀ r ∈ strayingRules, r.StaysInYears bound.date.year) ∧
      ¬ Rule.FindsLast (fun r t => r.Occurs t ∧ t < bound) strayingRules
        (latestRule? strayingRules bound) := by
  obtain ⟨date, hdate, hyear, r, hfound, hyears, s, hs, hcovers, t, ht, hlt, hnot⟩ :
      ∃ date ∈ Date.ofParts? 2000 12 31, date.year = 2000 ∧
        ∃ r ∈ latestRule? strayingRules ⟨date, 3600⟩,
          (r.fromYear = 2000 ∧ r.toYear = 2000) ∧
          ∃ s ∈ strayingRules, s.covers 2001 ∧ ∃ t ∈ s.occurrence? 2001,
            t < ⟨date, 3600⟩ ∧ ∀ t' ∈ r.occurrence? 2000, t' < t := by
    decide
  refine ⟨⟨date, 3600⟩, hdate, rfl, ?_, ?_⟩
  · intro r hr
    have hcases : r.fromYear = 2001 ∨ (r.toYear ≤ r.fromYear ∧
        ∃ t ∈ r.occurrence? r.fromYear, t.date.year = r.fromYear) := by
      revert r hr
      decide
    rcases hcases with hfrom | ⟨hyears, hocc⟩
    · -- the rule starts behind the years in question
      intro year hlast hcovers
      have hle : year ≤ date.year := hlast
      have := (Rule.covers_iff.1 hcovers).1
      omega
    · exact Rule.staysInYears_of_only hyears hocc _
  · intro h
    obtain ⟨_, _, time, _, ⟨⟨⟨year, hyear, htime⟩, _⟩, hlatest⟩, _⟩ :=
      (h.eq_some_iff r).1 hfound
    obtain ⟨hfrom, hto⟩ := Rule.covers_iff.1 hyear
    obtain rfl : year = 2000 := by omega
    exact hlatest s hs t ⟨⟨2001, hcovers, ht⟩, hlt⟩ (hnot time htime)

end ZoneTables
