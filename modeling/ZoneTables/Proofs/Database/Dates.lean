import ZoneTables.Proofs.Calendar.Days
import ZoneTables.Proofs.Database.Contents
import ZoneTables.Buffer.Replay

/-!
# Dates of rules and years

A rule of a made database has a date in every year that it covers, except on
the weekday next to a day that its month does not have.  Only rules of an
exact day are reviewed for this when they are resolved.
-/

namespace ZoneTables

/-! ## Rules without a day -/

/-- Whether a rule takes effect in a year on the weekday next to a day that
its month does not have in the year. -/
def Rule.LacksDay (year : Int) (r : Rule) : Prop :=
  r.covers year ∧ ∃ weekday day,
    (r.day = .onOrAfter weekday day ∨ r.day = .onOrBefore weekday day) ∧
    daysInMonth year r.month < day

def Era.LacksDay (policies : Policies) (year : Int) (era : Era) : Prop :=
  ∃ name rules, era.saving = .policy name ∧
    policies.get? name = some rules ∧ ∃ r ∈ rules, r.LacksDay year

/-- Whether the rules of all policies have dates except where they lack their
day. -/
def Datable (policies : Policies) : Prop :=
  ∀ name rules, policies.get? name = some rules →
    ∀ r ∈ rules, ∀ year, r.covers year →
      ((r.occurrence? year).isSome ↔ ¬ r.LacksDay year)

theorem Rule.covers_iff {r : Rule} {year : Int} :
    r.covers year ↔ r.fromYear ≤ year ∧ year ≤ r.toYear := by
  unfold covers
  rw [Bool.and_eq_true, decide_eq_true_eq, decide_eq_true_eq]

theorem SourceRule.exists_of_reviewDay {rule : SourceRule} {day : Nat}
    (h : rule.reviewDay.result = .ok ()) (hday : rule.day = .exact day) :
    existsEveryYear rule.fromYear rule.toYear rule.month day := by
  unfold reviewDay at h
  rw [hday] at h
  by_contra hnot
  rw [if_neg (by unfold DaySpec.mayLeaveYear; exact Bool.false_ne_true)] at h
  dsimp only at h
  rw [if_neg hnot] at h
  cases h

theorem SourceRule.mayLeaveYear_of_resolve {w : Widths} {strict : Bool}
    {source : SourceRule} {r : Rule}
    (h : (source.resolve w strict).result = .ok r) :
    r.day.mayLeaveYear r.month = false := by
  obtain ⟨hreview, rfl, _⟩ := SourceRule.resolve_eq_ok.1 h
  unfold reviewDay at hreview
  split at hreview
  · cases hreview
  · rename_i hstay
    exact (Bool.not_eq_true _).mp hstay

theorem Rule.isSome_occurrence?_iff {w : Widths} {r : Rule} {year : Int}
    (hproper : r.IsProper w) (hcovers : r.covers year) :
    (r.occurrence? year).isSome ↔
      ∀ day, r.day.limit? = some day → day ≤ daysInMonth year r.month := by
  obtain ⟨hfrom, hto⟩ := covers_iff.1 hcovers
  have hleast := hproper.least_le
  have hendless := hproper.le_endless
  unfold Year.least at hleast
  unfold Year.endless at hendless
  unfold occurrence?
  rw [Option.isSome_map]
  apply DaySpec.isSome_dateIn_iff hproper.month.1 hproper.month.2 hproper.day
  · unfold Date.firstYear
    omega
  · unfold Date.lastYear
    omega

theorem SourceRule.isSome_occurrence?_resolved {w : Widths} {strict : Bool}
    {source : SourceRule} {r : Rule} {year : Int} (hsource : source.IsProper)
    (hresolve : (source.resolve w strict).result = .ok r)
    (hcovers : r.covers year) :
    (r.occurrence? year).isSome ↔ ¬ r.LacksDay year := by
  obtain ⟨hreview, rfl, _⟩ := SourceRule.resolve_eq_ok.1 hresolve
  have hproper : (source.resolved w).IsProper w :=
    SourceRule.isProper_resolved hsource
  rw [Rule.isSome_occurrence?_iff hproper hcovers]
  obtain ⟨hfrom, hto⟩ := Rule.covers_iff.1 hcovers
  constructor
  · rintro hlimit ⟨_, weekday, day, hday, hlt⟩
    have hle : day ≤ daysInMonth year (source.resolved w).month := by
      apply hlimit
      rcases hday with hday | hday
      · rw [hday]
        rfl
      · rw [hday]
        rfl
    omega
  · intro hnot day hlimit
    by_contra hlt
    cases hday : (source.resolved w).day with
    | exact day' =>
      rw [hday] at hlimit
      cases hlimit
      have hexists := SourceRule.exists_of_reviewDay hreview hday
      exact hlt (le_daysInMonth_of_existsEveryYear hsource.le_endless
        hsource.month.1 hsource.month.2 hexists hfrom hto)
    | last weekday =>
      rw [hday] at hlimit
      cases hlimit
    | onOrAfter weekday day' =>
      rw [hday] at hlimit
      cases hlimit
      exact hnot ⟨hcovers, weekday, day, .inl hday, by omega⟩
    | onOrBefore weekday day' =>
      rw [hday] at hlimit
      cases hlimit
      exact hnot ⟨hcovers, weekday, day, .inr hday, by omega⟩

theorem isSome_occurrence?_anchorRule {rules : List Rule} {start year : Int}
    (hcovers : (anchorRule rules start).covers year) :
    ((anchorRule rules start).occurrence? year).isSome ↔
      ¬ (anchorRule rules start).LacksDay year := by
  obtain ⟨hfrom, hto⟩ := Rule.covers_iff.1 hcovers
  rw [fromYear_anchorRule] at hfrom
  rw [toYear_anchorRule] at hto
  obtain rfl : year = Year.least := by omega
  constructor
  · rintro _ ⟨_, weekday, day, hday, _⟩
    rw [day_anchorRule] at hday
    rcases hday with hday | hday
    · cases hday
    · cases hday
  · exact fun _ => rfl

theorem MadeOf.datable {o : Options} {s : Source} {db : Database}
    (h : MadeOf o s db) : Datable db.policies := by
  intro name rules hrules r hr year hcovers
  obtain ⟨sources, resolved, hsources, hresolve, rfl⟩ := h.exists_policy hrules
  rcases RuleSelection.mem_selected.1 hr with rfl | hkept
  · exact isSome_occurrence?_anchorRule hcovers
  · obtain ⟨source, hmem, hsource⟩ := forall₂_exists_left
      (resolvePolicy_eq_ok.1 hresolve) (RuleSelection.mem_kept.1 hkept).1
    exact SourceRule.isSome_occurrence?_resolved
      ((h.proper.rules hsources).2 source hmem) hsource hcovers

/-! ## Years with dates -/

theorem Date.dayNumber_first {d : Date} (hmonth : d.month = 1)
    (hday : d.day = 1) :
    d.dayNumber = 365 * (d.year - 1) + (d.year - 1) / 4 - (d.year - 1) / 100 +
      (d.year - 1) / 400 + 1 := by
  unfold dayNumber leapDays
  rw [hmonth, hday]
  show _ + ((0 : Nat) : Int) + ((1 : Nat) : Int) = _
  omega

theorem Date.exists_first {year : Int} (h : Year.least ≤ year)
    (h' : year ≤ Year.never) :
    ∃ date, ofParts? year 1 1 = some date ∧ date.year = year ∧
      date.month = 1 ∧ date.day = 1 := by
  unfold Year.least at h
  unfold Year.never at h'
  have hsome : (ofParts? year 1 1).isSome := by
    rw [ofParts?_isSome_iff (by decide) (by decide) (by decide)
      (by unfold firstYear; omega) (by unfold lastYear; omega)]
    exact daysInMonth_pos (by decide) (by decide)
  obtain ⟨date, hdate⟩ := Option.isSome_iff_exists.1 hsome
  exact ⟨date, hdate, (ofParts?_eq_some_iff.1 hdate).1⟩

theorem exists_yearBounds {year : Int} (h : Year.least ≤ year)
    (h' : year ≤ Year.endless) :
    ∃ bounds, yearBounds? year = some bounds ∧ bounds.start < bounds.stop := by
  have hnever : year + 1 ≤ Year.never := by
    unfold Year.endless at h'
    unfold Year.never
    omega
  obtain ⟨first, hfirst, hyear, hmonth, hday⟩ :=
    Date.exists_first h (by omega)
  obtain ⟨next, hnext, hyear', hmonth', hday'⟩ :=
    Date.exists_first (by omega : Year.least ≤ year + 1) hnever
  refine ⟨⟨first.unixSeconds 0, next.unixSeconds 0⟩, ?_, ?_⟩
  · unfold yearBounds?
    rw [hfirst, hnext]
  · unfold Date.unixSeconds
    dsimp only
    rw [Date.dayNumber_first hmonth hday, Date.dayNumber_first hmonth' hday',
      hyear, hyear']
    omega

end ZoneTables
