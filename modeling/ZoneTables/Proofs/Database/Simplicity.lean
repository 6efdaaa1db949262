import ZoneTables.Proofs.Buffer.Lookback
import ZoneTables.Proofs.Calendar.Months
import ZoneTables.Proofs.Database.Dates

/-!
# What simple rules leave out

Narrow tables take no transition on 1 January and at most one in a month, and
the rules of a policy are reviewed for both by the month and the day that they
are given for.  The weekday next to a day may be found elsewhere: up to 7
January it may be 1 January, and next to the end of a month it may be in the
other month, where another rule takes effect.  What the review leaves open is
told here by the weekdays of the year.
-/

namespace ZoneTables

/-! ## First days of years -/

section NewYear

variable {year : Int} {month day : Nat} {spec : DaySpec} {d : Date}

theorem Date.isAt_newYear (year : Int) : (newYear year).IsAt year 1 1 :=
  ⟨rfl, rfl, rfl⟩

theorem Date.eq_newYear_iff : d = newYear year ↔ d.IsAt year 1 1 := by
  rw [ext_iff]
  exact ⟨fun h => ⟨h.1, h.2.1, h.2.2⟩,
    fun h => ⟨h.year_eq, h.month_eq, h.day_eq⟩⟩

theorem Date.daysTo_seventh_eq_six_iff {limit : Date} {w : Weekday}
    (h : limit.IsAt year 1 7) :
    w.daysTo limit.weekday = 6 ↔ w = (newYear year).weekday :=
  daysTo_weekday_eq_iff ((isAt_newYear year).dayNumber_sub h) (by decide)

theorem Date.onOrAfter_eq_newYear_iff {limit : Date} {w : Weekday}
    (hlimit : ofParts? year month day = some limit)
    (hstay : (DaySpec.onOrAfter w day).mayLeaveYear month = false) :
    limit.onOrAfter w = newYear year ↔
      limit = newYear year ∧ w = (newYear year).weekday := by
  have hat := isAt_of_ofParts? hlimit
  have hmonth := hat.month_eq ▸ limit.month_pos
  have hday := hat.day_eq ▸ limit.day_pos
  constructor
  · intro h
    by_cases hbeyond : daysInMonth year month < day + limit.weekday.daysTo w
    · -- no month leads into January without a change of year
      have hfound := DaySpec.isAt_onOrAfter_beyond hlimit hstay hbeyond
      rw [h] at hfound
      have hfirst := (isAt_newYear year).unique hfound
      omega
    · have hfound : (limit.onOrAfter w).IsAt year month _ :=
        hat.forward_within (Nat.le_of_not_lt hbeyond)
      rw [h] at hfound
      obtain ⟨_, rfl, hsum⟩ := (isAt_newYear year).unique hfound
      obtain rfl : day = 1 := by omega
      obtain rfl : limit = newYear year := eq_newYear_iff.2 hat
      exact ⟨rfl, (Weekday.daysTo_eq_zero_iff.1 (by omega)).symm⟩
  · rintro ⟨rfl, rfl⟩
    unfold onOrAfter
    rw [Weekday.daysTo_eq_zero_iff.2 rfl]
    rfl

theorem Date.onOrBefore_eq_newYear_iff {limit : Date} {w : Weekday}
    (hlimit : ofParts? year month day = some limit)
    (hstay : (DaySpec.onOrBefore w day).mayLeaveYear month = false) :
    limit.onOrBefore w = newYear year ↔
      limit.IsAt year 1 7 ∧ w = (newYear year).weekday := by
  have hat := isAt_of_ofParts? hlimit
  have hback := Weekday.daysTo_lt w limit.weekday
  constructor
  · intro h
    by_cases hbeyond : day ≤ w.daysTo limit.weekday
    · -- going back from February ends in the last days of January
      have hfound := DaySpec.isAt_onOrBefore_beyond hlimit hstay hbeyond
      rw [h] at hfound
      obtain ⟨_, hmonth, hday⟩ := (isAt_newYear year).unique hfound
      have hlong : daysInMonth year (month - 1) = 31 := by
        rw [← hmonth]
        rfl
      omega
    · have hfound : (limit.onOrBefore w).IsAt year month _ :=
        hat.backward_within (Nat.lt_of_not_le hbeyond)
      rw [h] at hfound
      obtain ⟨_, rfl, hday⟩ := (isAt_newYear year).unique hfound
      have hseven : ¬ day < 7 := by
        simpa [DaySpec.mayLeaveYear] using hstay
      obtain rfl : day = 7 := by omega
      exact ⟨hat, (daysTo_seventh_eq_six_iff hat).1 (by omega)⟩
  · rintro ⟨hseventh, rfl⟩
    rw [eq_newYear_iff]
    unfold onOrBefore
    rw [(daysTo_seventh_eq_six_iff hseventh).2 rfl]
    exact hseventh.backward_within (by decide)

/-- The days that are 1 January: that day itself, and its weekday from 1 January
on or up to 7 January. -/
theorem DaySpec.dateIn_eq_newYear_iff (hfirst : Date.firstYear ≤ year)
    (hlast : year ≤ Date.lastYear) (hstay : spec.mayLeaveYear month = false) :
    spec.dateIn year month = some (.newYear year) ↔
      month = 1 ∧ (spec = exact 1 ∨
        spec = onOrAfter (Date.newYear year).weekday 1 ∨
        spec = onOrBefore (Date.newYear year).weekday 7) := by
  have hnew : Date.ofParts? year 1 1 = some (.newYear year) :=
    Date.ofParts?_eq_some_iff.2 ⟨⟨rfl, rfl, rfl⟩, hfirst, hlast⟩
  have hat := Date.isAt_newYear year
  constructor
  · intro h
    cases spec with
    | exact day =>
      obtain ⟨_, hmonth, hday⟩ := hat.unique (Date.isAt_of_ofParts? h)
      subst hmonth hday
      exact ⟨rfl, .inl rfl⟩
    | last w =>
      obtain ⟨day, hday, hat'⟩ := exists_isAt_last h
      have hfirst := hat.unique hat'
      omega
    | onOrAfter w day =>
      obtain ⟨limit, hlimit, hdate⟩ := Option.map_eq_some_iff.1 h
      obtain ⟨rfl, rfl⟩ :=
        (Date.onOrAfter_eq_newYear_iff hlimit hstay).1 hdate
      obtain ⟨_, hmonth, hday⟩ := hat.unique (Date.isAt_of_ofParts? hlimit)
      subst hmonth hday
      exact ⟨rfl, .inr (.inl rfl)⟩
    | onOrBefore w day =>
      obtain ⟨limit, hlimit, hdate⟩ := Option.map_eq_some_iff.1 h
      obtain ⟨hseventh, rfl⟩ :=
        (Date.onOrBefore_eq_newYear_iff hlimit hstay).1 hdate
      obtain ⟨_, hmonth, hday⟩ :=
        hseventh.unique (Date.isAt_of_ofParts? hlimit)
      subst hmonth hday
      exact ⟨rfl, .inr (.inr rfl)⟩
  · rintro ⟨rfl, rfl | rfl | rfl⟩
    · exact hnew
    · exact Option.map_eq_some_iff.2 ⟨_, hnew,
        (Date.onOrAfter_eq_newYear_iff hnew hstay).2 ⟨rfl, rfl⟩⟩
    · have hseventh : (Date.ofParts? year 1 7).isSome := by
        rw [Date.ofParts?_isSome_iff (by decide) (by decide) (by decide) hfirst
          hlast]
        exact le_daysInMonth_of_le (by decide) (by decide) (by decide)
      obtain ⟨limit, hlimit⟩ := Option.isSome_iff_exists.1 hseventh
      exact Option.map_eq_some_iff.2 ⟨limit, hlimit,
        (Date.onOrBefore_eq_newYear_iff hlimit hstay).2
          ⟨Date.isAt_of_ofParts? hlimit, rfl⟩⟩

end NewYear

/-! ## What the review of rules finds -/

theorem Rule.day_ne_of_isNewYear_eq_false {r : Rule}
    (h : r.isNewYear = false) (hmonth : r.month = 1) :
    r.day ≠ .exact 1 ∧ ∀ w, r.day ≠ .onOrAfter w 1 := by
  unfold isNewYear at h
  rw [hmonth] at h
  constructor
  · intro hday
    rw [hday] at h
    cases h
  · intro w hday
    rw [hday] at h
    cases h

theorem Rule.month_ne {a b : Rule} {year : Int} (h : a.sharesMonth b = false)
    (ha : a.covers year) (hb : b.covers year) : a.month ≠ b.month := by
  intro hmonth
  obtain ⟨ha, ha'⟩ := covers_iff.1 ha
  obtain ⟨hb, hb'⟩ := covers_iff.1 hb
  have hshares : a.sharesMonth b = true := by
    unfold sharesMonth
    rw [hmonth, decide_eq_true (by omega), decide_eq_true (by omega)]
    simp
  rw [hshares] at h
  cases h

theorem ruleViolation?_eq_none_iff {rules : List Rule} :
    ruleViolation? rules = none ↔
      (∀ r ∈ rules, r.letter.length ≤ 1 ∧ r.isNewYear = false) ∧
        rules.Pairwise fun a b => a.sharesMonth b = false := by
  induction rules with
  | nil => simp [ruleViolation?]
  | cons a rest ih =>
    rw [List.forall_mem_cons, List.pairwise_cons]
    unfold ruleViolation?
    by_cases hletter : 1 < a.letter.length
    · rw [if_pos hletter]
      exact ⟨nofun, fun h => absurd h.1.1.1 (by omega)⟩
    rw [if_neg hletter]
    cases hnew : a.isNewYear with
    | true => exact ⟨nofun, fun h => nomatch h.1.1.2⟩
    | false =>
      rw [if_neg Bool.false_ne_true]
      cases hfind : rest.find? a.sharesMonth with
      | some b =>
        have hb := List.find?_some hfind
        have hmem := List.mem_of_find?_eq_some hfind
        refine ⟨nofun, fun h => ?_⟩
        have hnot := h.2.1 b hmem
        rw [hb] at hnot
        cases hnot
      | none =>
        have hnone : ∀ b ∈ rest, a.sharesMonth b = false := fun b hb => by
          simpa using List.find?_eq_none.1 hfind b hb
        rw [ih]
        exact ⟨fun h => ⟨⟨⟨by omega, rfl⟩, h.1⟩, hnone, h.2⟩,
          fun h => ⟨h.1.2, h.2.2⟩⟩

theorem Passes.ruleViolation?_eq_none {o : Options} {s : Source} {name : String}
    {rules : List Rule} (hsimple : o.widths.simpleRules = true)
    (h : (Passes.of o s).simplePolicies.kept.get? name = some rules) :
    ruleViolation? (rules.filter fun r => !r.isAnchor) = none := by
  have hreview : ∃ selected,
      (Passes.of o s).selectedPolicies.kept.get? name = some selected ∧
        (if o.widths.simpleRules then reviewSimplePolicy selected
          else .keep selected).result = .ok rules :=
    NameMap.get?_kept_review.1 h
  obtain ⟨selected, _, hkeep⟩ := hreview
  rw [if_pos hsimple] at hkeep
  unfold reviewSimplePolicy at hkeep
  split at hkeep
  · cases hkeep
  · cases hkeep
    assumption

/-! ## Databases of simple rules -/

/-- The month in which a rule takes effect: the one that it is given for, unless
the weekday next to its day is not in it. -/
def Rule.monthIn (year : Int) (r : Rule) : Nat :=
  (r.day.strayMonth? year r.month).getD r.month

def Rule.ApartIn (year : Int) (a b : Rule) : Prop :=
  ∃ s ∈ a.occurrence? year, ∃ t ∈ b.occurrence? year,
    s.date.year = year ∧ t.date.year = year ∧ s.date.month ≠ t.date.month

instance (year : Int) (a b : Rule) : Decidable (a.ApartIn year b) :=
  inferInstanceAs (Decidable (∃ s ∈ a.occurrence? year,
    ∃ t ∈ b.occurrence? year,
      s.date.year = year ∧ t.date.year = year ∧ s.date.month ≠ t.date.month))

namespace MadeOf

variable {o : Options} {s : Source} {db : Database} {name : String}
  {rules : List Rule} {r : Rule} {year : Int}

theorem ruleViolation?_eq_none (h : MadeOf o s db) (hscope : o.scope = .basic)
    (hget : db.policies.get? name = some rules) :
    ruleViolation? (rules.filter fun r => !r.isAnchor) = none := by
  rw [h.policies] at hget
  refine Passes.ruleViolation?_eq_none ?_ (Passes.get?_policies.1 hget).1
  unfold Options.widths
  rw [hscope]
  rfl

theorem mayLeaveYear_eq_false (h : MadeOf o s db)
    (hget : db.policies.get? name = some rules) (hr : r ∈ rules)
    (hanchor : r.isAnchor = false) : r.day.mayLeaveYear r.month = false := by
  obtain ⟨sources, resolved, _, hresolve, rfl⟩ := h.exists_policy hget
  rcases RuleSelection.mem_selected.1 hr with rfl | hkept
  · cases hanchor
  · obtain ⟨source, _, hsource⟩ := forall₂_exists_left
      (resolvePolicy_eq_ok.1 hresolve) (RuleSelection.mem_kept.1 hkept).1
    exact SourceRule.mayLeaveYear_of_resolve hsource

theorem month_of_occurrence? (h : MadeOf o s db)
    (hget : db.policies.get? name = some rules) (hr : r ∈ rules)
    (hanchor : r.isAnchor = false) {time : LocalTime}
    (htime : r.occurrence? year = some time) :
    time.date.year = year ∧ time.date.month = r.monthIn year := by
  obtain ⟨date, hdate, rfl⟩ := Option.map_eq_some_iff.1 htime
  exact DaySpec.month_of_dateIn (h.mayLeaveYear_eq_false hget hr hanchor) hdate

theorem apartIn_iff (h : MadeOf o s db)
    (hget : db.policies.get? name = some rules) {a b : Rule} (ha : a ∈ rules)
    (hb : b ∈ rules) (ha' : a.isAnchor = false) (hb' : b.isAnchor = false)
    (hacovers : a.covers year) (hbcovers : b.covers year) :
    a.ApartIn year b ↔
      ¬ a.LacksDay year ∧ ¬ b.LacksDay year ∧ a.monthIn year ≠ b.monthIn year := by
  rw [← h.datable name rules hget a ha year hacovers,
    ← h.datable name rules hget b hb year hbcovers,
    Option.isSome_iff_exists, Option.isSome_iff_exists]
  constructor
  · rintro ⟨x, hx, y, hy, _, _, hne⟩
    refine ⟨⟨x, hx⟩, ⟨y, hy⟩, ?_⟩
    rwa [← (h.month_of_occurrence? hget ha ha' hx).2,
      ← (h.month_of_occurrence? hget hb hb' hy).2]
  · rintro ⟨⟨x, hx⟩, ⟨y, hy⟩, hne⟩
    obtain ⟨hxyear, hxmonth⟩ := h.month_of_occurrence? hget ha ha' hx
    obtain ⟨hyyear, hymonth⟩ := h.month_of_occurrence? hget hb hb' hy
    exact ⟨x, hx, y, hy, hxyear, hyyear, by rwa [hxmonth, hymonth]⟩

end MadeOf

theorem Rule.monthIn_eq {w : Widths} {r : Rule} (hproper : r.IsProper w)
    (hstay : r.day.mayLeaveMonth = false) (year : Int) :
    r.monthIn year = r.month := by
  unfold monthIn
  rw [DaySpec.strayMonth?_eq_none hproper.month.1 hproper.month.2 hstay]
  rfl

theorem Rule.exists_occurrence?_iff {r : Rule} {year : Int} {date : Date} :
    (∃ time ∈ r.occurrence? year, time.date = date) ↔
      r.day.dateIn year r.month = some date := by
  unfold occurrence?
  constructor
  · rintro ⟨_, htime, rfl⟩
    obtain ⟨date, hdate, rfl⟩ := Option.map_eq_some_iff.1 htime
    exact hdate
  · intro hdate
    exact ⟨⟨date, r.time⟩, Option.map_eq_some_iff.2 ⟨date, hdate, rfl⟩, rfl⟩

def basicYears : Options := ⟨⟨2000, 2002⟩, .basic, false, none⟩

/-- A rule of a narrow database takes effect on 1 January exactly in the years in
which that is the weekday of the rule and the rule is for the last of them up to
7 January. -/
theorem MadeFrom.newYear_iff {o : Options} {texts : List SourceText}
    {db : Database} (h : MadeFrom o texts db) (hscope : o.scope = .basic)
    {name : String} {rules : List Rule}
    (hget : db.policies.get? name = some rules) {r : Rule} (hr : r ∈ rules)
    (hanchor : r.isAnchor = false) {year : Int} (hcovers : r.covers year) :
    (∃ time ∈ r.occurrence? year, time.date = .newYear year) ↔
      r.month = 1 ∧ r.day = .onOrBefore (Date.newYear year).weekday 7 := by
  have hmade := h.madeOf
  have hproper := hmade.rule_isProper hget r hr
  obtain ⟨hfrom, hto⟩ := Rule.covers_iff.1 hcovers
  have hfirst : Date.firstYear ≤ year :=
    Int.le_trans (by decide) (Int.le_trans hproper.least_le hfrom)
  have hlast : year ≤ Date.lastYear :=
    Int.le_trans (Int.le_trans hto hproper.le_endless) (by decide)
  have hstay := hmade.mayLeaveYear_eq_false hget hr hanchor
  have hsimple :=
    (ruleViolation?_eq_none_iff.1 (hmade.ruleViolation?_eq_none hscope hget)).1
      r (List.mem_filter.2 ⟨hr, by rw [hanchor]; rfl⟩)
  rw [Rule.exists_occurrence?_iff,
    DaySpec.dateIn_eq_newYear_iff hfirst hlast hstay]
  refine and_congr_right fun hmonth => ?_
  obtain ⟨hexact, hafter⟩ :=
    Rule.day_ne_of_isNewYear_eq_false hsimple.2 hmonth
  exact ⟨fun h => (h.resolve_left hexact).resolve_left (hafter _),
    fun h => .inr (.inr h)⟩

def firstSaturdayText : SourceText :=
  ⟨"t", "R P 2000 2001 - Jan Sat<=7 0 1 D\nZ Z 0 P E%s\n"⟩

theorem newYear_iff_firstSaturdayText :
    ∃ db rules r, MadeFrom basicYears [firstSaturdayText] db ∧
      db.policies.get? "P" = some rules ∧ r ∈ rules ∧ r.isAnchor = false ∧
      r.covers 2001 ∧
      ((∃ time ∈ r.occurrence? 2001, time.date = .newYear 2001) ↔
        r.month = 1 ∧ r.day = .onOrBefore (Date.newYear 2001).weekday 7) := by
  have hrun : (Source.empty.readTexts [] [firstSaturdayText]).fault = none ∧
      ∃ db ∈ (Database.ofSource basicYears (Source.empty.readTexts []
          [firstSaturdayText]).source).result.toOption,
        ∃ rules ∈ db.policies.get? "P",
          ∃ r ∈ rules, r.isAnchor = false ∧ r.covers 2001 := by
    decide +kernel
  obtain ⟨hread, hmade⟩ := hrun
  obtain ⟨db, hdb, rules, hget, r, hr, hanchor, hcovers⟩ :=
    exists_eq_ok_of_toOption hmade
  exact ⟨db, rules, r, ⟨hread, hdb⟩, hget, hr, hanchor, hcovers,
    MadeFrom.newYear_iff ⟨hread, hdb⟩ rfl hget hr hanchor hcovers⟩

theorem occurrence?_firstSaturdayText :
    ∃ db rules r, MadeFrom basicYears [firstSaturdayText] db ∧
      db.policies.get? "P" = some rules ∧ r ∈ rules ∧ r.isAnchor = false ∧
      r.covers 2000 ∧
      ∃ time ∈ r.occurrence? 2000, time.date = .newYear 2000 := by
  have hrun : (Source.empty.readTexts [] [firstSaturdayText]).fault = none ∧
      ∃ db ∈ (Database.ofSource basicYears (Source.empty.readTexts []
          [firstSaturdayText]).source).result.toOption,
        ∃ rules ∈ db.policies.get? "P",
          ∃ r ∈ rules, r.isAnchor = false ∧ r.covers 2000 ∧
            ∃ time ∈ r.occurrence? 2000, time.date = .newYear 2000 := by
    decide +kernel
  obtain ⟨hread, hmade⟩ := hrun
  obtain ⟨db, hdb, rules, hget, r, hr, hanchor, hcovers, htime⟩ :=
    exists_eq_ok_of_toOption hmade
  exact ⟨db, rules, r, ⟨hread, hdb⟩, hget, hr, hanchor, hcovers, htime⟩

/-- Two rules of a narrow policy that cover the same year are given for
different months, and take effect in different months exactly if both have their
day and no weekday next to it brings them together.  Rules that are not given
for a day near the ends of a month are never brought together. -/
theorem MadeFrom.pairwise_apartIn_iff {o : Options} {texts : List SourceText}
    {db : Database} (h : MadeFrom o texts db) (hscope : o.scope = .basic)
    {name : String} {rules : List Rule}
    (hget : db.policies.get? name = some rules) :
    (rules.filter fun r => !r.isAnchor).Pairwise fun a b =>
      ∀ year, a.covers year → b.covers year →
        (a.ApartIn year b ↔ ¬ a.LacksDay year ∧ ¬ b.LacksDay year ∧
          a.monthIn year ≠ b.monthIn year) ∧
        (a.day.mayLeaveMonth = false → b.day.mayLeaveMonth = false →
          a.monthIn year ≠ b.monthIn year) := by
  have hmade := h.madeOf
  have hsimple :=
    (ruleViolation?_eq_none_iff.1 (hmade.ruleViolation?_eq_none hscope hget)).2
  refine hsimple.imp_of_mem fun {a b} ha hb hmonths year hacovers hbcovers => ?_
  obtain ⟨ha, ha'⟩ := List.mem_filter.1 ha
  obtain ⟨hb, hb'⟩ := List.mem_filter.1 hb
  constructor
  · exact hmade.apartIn_iff hget ha hb (by simpa using ha') (by simpa using hb')
      hacovers hbcovers
  · intro hastay hbstay
    rw [Rule.monthIn_eq (hmade.rule_isProper hget a ha) hastay,
      Rule.monthIn_eq (hmade.rule_isProper hget b hb) hbstay]
    exact Rule.month_ne hmonths hacovers hbcovers

def lateAprilText : SourceText where
  name := "t"
  text := "R P 2000 2001 - Apr Mon>=30 0 1 D\nR P 2000 2001 - May 20 0 0 S\n" ++
    "Z Z 0 P E%s\n"

theorem pairwise_apartIn_iff_lateAprilText :
    ∃ db rules, MadeFrom basicYears [lateAprilText] db ∧
      db.policies.get? "P" = some rules ∧
      (rules.filter fun r => !r.isAnchor).length = 2 ∧
      (rules.filter fun r => !r.isAnchor).Pairwise fun a b =>
        ∀ year, a.covers year → b.covers year →
          (a.ApartIn year b ↔ ¬ a.LacksDay year ∧ ¬ b.LacksDay year ∧
            a.monthIn year ≠ b.monthIn year) ∧
          (a.day.mayLeaveMonth = false → b.day.mayLeaveMonth = false →
            a.monthIn year ≠ b.monthIn year) := by
  have hrun : (Source.empty.readTexts [] [lateAprilText]).fault = none ∧
      ∃ db ∈ (Database.ofSource basicYears (Source.empty.readTexts []
          [lateAprilText]).source).result.toOption,
        ∃ rules ∈ db.policies.get? "P",
          (rules.filter fun r => !r.isAnchor).length = 2 := by
    decide +kernel
  obtain ⟨hread, hmade⟩ := hrun
  obtain ⟨db, hdb, rules, hget, hlength⟩ := exists_eq_ok_of_toOption hmade
  exact ⟨db, rules, ⟨hread, hdb⟩, hget, hlength,
    MadeFrom.pairwise_apartIn_iff ⟨hread, hdb⟩ rfl hget⟩

/-- In 2000 the first Monday from 30 April on is 1 May. -/
theorem not_apartIn_lateAprilText :
    ∃ db rules, MadeFrom basicYears [lateAprilText] db ∧
      db.policies.get? "P" = some rules ∧
      ¬ (rules.filter fun r => !r.isAnchor).Pairwise fun a b =>
        ∀ year, a.covers year → b.covers year → a.ApartIn year b := by
  have hrun : (Source.empty.readTexts [] [lateAprilText]).fault = none ∧
      ∃ db ∈ (Database.ofSource basicYears (Source.empty.readTexts []
          [lateAprilText]).source).result.toOption,
        ∃ rules ∈ db.policies.get? "P",
          ¬ (rules.filter fun r => !r.isAnchor).Pairwise fun a b =>
            a.covers 2000 → b.covers 2000 → a.ApartIn 2000 b := by
    decide +kernel
  obtain ⟨hread, hmade⟩ := hrun
  obtain ⟨db, hdb, rules, hget, hnot⟩ := exists_eq_ok_of_toOption hmade
  exact ⟨db, rules, ⟨hread, hdb⟩, hget,
    fun hall => hnot (hall.imp fun hab => hab 2000)⟩

end ZoneTables
