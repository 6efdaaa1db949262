import ZoneTables.Proofs.Database.Occurrences
import ZoneTables.Proofs.Retention.Rules
import ZoneTables.Proofs.Source.WellFormed

/-!
# What anchors carry on

Of each rule only the last year before a window is looked at.  As long as rules
stay in their years this is the last time at which the rule takes effect before
the window, and the anchor carries on the first rule at the latest of these times.
Without one it is on standard time and takes the letter of the rule for standard
time that starts first.
-/

namespace ZoneTables

variable {rules : List Rule} {r : Rule} {year : Int}

/-! ## The rule in force -/

def Rule.OccursBefore (year : Int) (r : Rule) (t : LocalTime) : Prop :=
  r.isAnchor = false ∧ r.OccursBy (year - 1) t

/-- In a rule that stays in its years the one year that is looked at holds the
last time before a year. -/
theorem Rule.lastTime_lastBefore?
    (hyears : r.isAnchor = false → r.fromYear < year → r.fromYear ≤ r.toYear)
    (hstays : r.isAnchor = false → r.StaysInYears (year - 1)) :
    LastTime (r.OccursBefore year) (r.lastBefore? year) := by
  cases hanchor : r.isAnchor with
  | true =>
    have hnone : r.lastBefore? year = none := by
      unfold lastBefore?
      rw [hanchor, Bool.true_or, if_pos rfl]
    rw [hnone]
    refine ⟨nofun, nofun, fun t ht => ?_⟩
    rw [ht.1] at hanchor
    cases hanchor
  | false =>
    have hstays := hstays hanchor
    by_cases hfrom : year ≤ r.fromYear
    · have hnone : r.lastBefore? year = none := by
        unfold lastBefore?
        rw [decide_eq_true hfrom, Bool.or_true, if_pos rfl]
      rw [hnone]
      refine ⟨nofun, nofun, fun t ht => ?_⟩
      obtain ⟨_, year', hle, hcovers, _⟩ := ht
      have := (covers_iff.1 hcovers).1
      omega
    · have hlast : r.lastBefore? year =
          r.occurrence? (min r.toYear (year - 1)) := by
        unfold lastBefore?
        rw [hanchor, decide_eq_false hfrom, Bool.or_false, if_neg]
        exact Bool.false_ne_true
      have hcovers : r.covers (min r.toYear (year - 1)) := by
        have hle := hyears hanchor (by omega)
        exact covers_iff.2 ⟨by omega, by omega⟩
      rw [hlast]
      refine ⟨fun t ht => ⟨hanchor, _, by omega, hcovers, ht⟩, ?_, ?_⟩
      · rintro t ht t' ⟨_, ht'⟩
        refine hstays.not_lt_of_occursBy (by omega) hcovers ?_ ht ht'
        intro y hy hycovers
        have := (covers_iff.1 hycovers).2
        omega
      · intro _ _
        obtain ⟨t, ht, _⟩ := hstays _ (by omega) hcovers
        rw [ht]
        rfl

theorem ruleInForce?_eq_none :
    ruleInForce? rules year = none ↔
      ∀ r ∈ rules, r.lastBefore? year = none := by
  unfold ruleInForce? firstGreatest?
  rw [Option.map_eq_none_iff, choose?_eq_none, List.filterMap_eq_nil_iff]
  exact forall₂_congr fun r _ => Option.map_eq_none_iff

theorem isFirstLatest_of_ruleInForce?
    (h : ∀ r ∈ rules, LastTime (r.OccursBefore year) (r.lastBefore? year))
    (hrule : ruleInForce? rules year = some r) :
    r.IsFirstLatest (Rule.OccursBefore year) rules := by
  obtain ⟨front, back, time, rfl, htime, hfront, hback⟩ :=
    choose?_measured_eq_some LocalTime.isRanking.flip.isPreference hrule
  refine ⟨front, back, time, rfl, (Rule.isLatest_and_iff h (by simp)
    (by simp +contextual)).2 ⟨htime, fun r' hr' t ht => ?_, fun r' hr' t ht => ?_⟩⟩
  · rcases List.mem_append.1 hr' with hr' | hr'
    · exact LocalTime.lt_asymm (of_decide_eq_true (hfront r' hr' t ht))
    · rcases List.mem_cons.1 hr' with rfl | hr'
      · cases htime.symm.trans ht
        exact LocalTime.lt_irrefl time
      · exact fun hlt => hback r' hr' t ht (decide_eq_true hlt)
  · exact of_decide_eq_true (hfront r' hr' t ht)

/-! ## The first rule for standard time -/

namespace Rule

/-- Whether a rule starts in an earlier year than another, or in the same year and
on an earlier date of it.  Without a date there it starts before those with one. -/
def StartsEarlier (a b : Rule) : Prop :=
  a.fromYear < b.fromYear ∨
    (a.fromYear = b.fromYear ∧ ∃ t ∈ b.occurrence? b.fromYear,
      ∀ s ∈ a.occurrence? a.fromYear, s.date < t.date)

theorem startsBefore_iff {a b : Rule} : a.startsBefore b ↔ a.StartsEarlier b := by
  unfold startsBefore StartsEarlier
  by_cases hyear : a.fromYear = b.fromYear
  · rw [if_pos hyear]
    cases ha : a.occurrence? a.fromYear <;> cases hb : b.occurrence? b.fromYear <;>
      simp [hyear]
  · rw [if_neg hyear, decide_eq_true_eq]
    simp [hyear]

theorem isRanking_startsBefore : IsRanking startsBefore where
  asymm {a b} hab := by
    rw [startsBefore_iff] at hab ⊢
    rcases hab with hlt | ⟨heq, t, ht, hall⟩
    · rintro (hlt' | ⟨heq', _⟩) <;> omega
    · rintro (hlt' | ⟨_, s, hs, hall'⟩)
      · omega
      · exact Date.lt_asymm (hall s hs) (hall' t ht)
  split {a b c} hac := by
    rw [startsBefore_iff] at hac
    rw [startsBefore_iff, startsBefore_iff]
    rcases hac with hlt | ⟨heq, t, ht, hall⟩
    · by_cases hab : a.fromYear < b.fromYear
      · exact .inl (.inl hab)
      · exact .inr (.inl (by omega))
    · rcases Int.lt_trichotomy a.fromYear b.fromYear with hab | hab | hab
      · exact .inl (.inl hab)
      · by_cases hbc : ∀ s ∈ b.occurrence? b.fromYear, s.date < t.date
        · exact .inr (.inr ⟨by omega, t, ht, hbc⟩)
        · -- the second rule does not start before the date of the third one
          push Not at hbc
          obtain ⟨s, hs, hnot⟩ := hbc
          refine .inl (.inr ⟨hab, s, hs, fun x hx => ?_⟩)
          have hlt := hall x hx
          rcases Date.lt_trichotomy s.date t.date with h | h | h
          · exact absurd h hnot
          · exact h ▸ hlt
          · exact Date.lt_trans hlt h
      · exact .inr (.inl (by omega))

def IsStandard (r : Rule) : Prop :=
  r.isAnchor = false ∧ r.save = 0

/-- Whether a rule is the first of those for standard time that start first. -/
def IsFirstStandard (rules : List Rule) (r : Rule) : Prop :=
  ∃ front back, rules = front ++ r :: back ∧ r.IsStandard ∧
    (∀ r' ∈ front, r'.IsStandard → r.StartsEarlier r') ∧
    ∀ r' ∈ back, r'.IsStandard → ¬ r'.StartsEarlier r

end Rule

theorem firstStandardRule?_eq_none :
    firstStandardRule? rules = none ↔ ∀ r ∈ rules, ¬ r.IsStandard := by
  unfold firstStandardRule? firstLeast? Rule.IsStandard
  rw [choose?_eq_none, List.filter_eq_nil_iff]
  simp

theorem isFirstStandard_of_firstStandardRule?
    (h : firstStandardRule? rules = some r) : r.IsFirstStandard rules := by
  obtain ⟨front, back, hsplit, hfront, hback⟩ :=
    choose?_eq_some Rule.isRanking_startsBefore.isPreference h
  -- the list is split where its rules for standard time are
  obtain ⟨before, rest, rfl, rfl, hrest⟩ := List.filter_eq_append_iff.1 hsplit
  obtain ⟨skipped, behind, rfl, hskipped, hr, rfl⟩ :=
    List.filter_eq_cons_iff.1 hrest
  refine ⟨before ++ skipped, behind, (List.append_assoc ..).symm, ?_,
    fun r' hr' hstandard => ?_, fun r' hr' hstandard => ?_⟩
  · simpa [Rule.IsStandard] using hr
  · rcases List.mem_append.1 hr' with hr' | hr'
    · exact Rule.startsBefore_iff.1 (hfront r' (List.mem_filter.2 ⟨hr', by
        simpa [Rule.IsStandard] using hstandard⟩))
    · exact absurd (by simpa [Rule.IsStandard] using hstandard) (hskipped r' hr')
  · exact fun hlt => hback r' (List.mem_filter.2 ⟨hr', by
      simpa [Rule.IsStandard] using hstandard⟩) (Rule.startsBefore_iff.2 hlt)

/-! ## What is carried on -/

theorem anchorRule_of_ruleInForce? (h : ruleInForce? rules year = some r) :
    (anchorRule rules year).save = r.save ∧
      (anchorRule rules year).letter = r.letter := by
  unfold anchorRule
  rw [h]
  exact ⟨rfl, rfl⟩

theorem anchorRule_of_eq_none (h : ruleInForce? rules year = none) :
    (anchorRule rules year).save = 0 ∧ (anchorRule rules year).letter =
      (firstStandardRule? rules).elim "" (·.letter) := by
  unfold anchorRule
  rw [h]
  cases firstStandardRule? rules <;> exact ⟨rfl, rfl⟩

/-- If no rule ends before it starts, an anchor carries on the first rule at the
latest of all times before its year.  Without such a time it is on standard time,
with the letter of the rule for standard time that starts first. -/
theorem anchorRule_carries
    (hyears : ∀ r ∈ rules, r.isAnchor = false → r.fromYear < year →
      r.fromYear ≤ r.toYear)
    (hstays : ∀ r ∈ rules, r.isAnchor = false → r.StaysInYears (year - 1)) :
    ((∃ r ∈ rules, r.isAnchor = false ∧ ∃ y < year, r.covers y) →
      ∃ r : Rule, r.IsFirstLatest (Rule.OccursBefore year) rules ∧
        (anchorRule rules year).save = r.save ∧
        (anchorRule rules year).letter = r.letter) ∧
    ((∀ r ∈ rules, r.isAnchor = false → ∀ y < year, ¬ r.covers y) →
      (anchorRule rules year).save = 0 ∧
        ((∃ r : Rule, r.IsFirstStandard rules ∧
            (anchorRule rules year).letter = r.letter) ∨
          (∀ r ∈ rules, ¬ r.IsStandard) ∧
            (anchorRule rules year).letter = "")) := by
  have hlast : ∀ r ∈ rules, LastTime (r.OccursBefore year) (r.lastBefore? year) :=
    fun r hr => Rule.lastTime_lastBefore? (hyears r hr) (hstays r hr)
  constructor
  · rintro ⟨r, hr, hanchor, y, hy, hcovers⟩
    obtain ⟨t, ht, _⟩ := hstays r hr hanchor y (by omega) hcovers
    have htime : r.OccursBefore year t := ⟨hanchor, y, by omega, hcovers, ht⟩
    cases hforce : ruleInForce? rules year with
    | none =>
      have hnone := ruleInForce?_eq_none.1 hforce r hr
      exact absurd htime ((hlast r hr).eq_none_iff.1 hnone t)
    | some rule =>
      exact ⟨rule, isFirstLatest_of_ruleInForce? hlast hforce,
        anchorRule_of_ruleInForce? hforce⟩
  · intro hno
    have hforce : ruleInForce? rules year = none := by
      refine ruleInForce?_eq_none.2 fun r hr => (hlast r hr).eq_none_iff.2 ?_
      rintro t ⟨hanchor, y, hy, hcovers, _⟩
      exact hno r hr hanchor y (by omega) hcovers
    obtain ⟨hsave, hletter⟩ := anchorRule_of_eq_none hforce
    refine ⟨hsave, ?_⟩
    cases hstandard : firstStandardRule? rules with
    | none =>
      rw [hstandard] at hletter
      exact .inr ⟨firstStandardRule?_eq_none.1 hstandard, hletter⟩
    | some rule =>
      rw [hstandard] at hletter
      exact .inl ⟨rule, isFirstStandard_of_firstStandardRule? hstandard, hletter⟩

def sharedTimeText : SourceText where
  name := "t"
  text := "R P 1990 1999 - Apr 1 0 1 D\n" ++
    "R P 1999 o - Oct 1 0 1 M\n" ++
    "R P 1990 2005 - Oct 1 0 0 S\n" ++
    "Z Z 0 P E%s\n"

/-- Of the rules at the same time the first one is carried on into 2000.  Into the
first year of the rules it is the letter for standard time. -/
theorem anchorRule_carries_sharedTimeText :
    ∃ sources, ∃ rules : List Rule, ∃ r s : Rule,
      (Source.empty.readTexts [] [sharedTimeText]).source.policies.get? "P" =
        some sources ∧
      (resolvePolicy Scope.extended.widths false sources).result = .ok rules ∧
      (∀ year, ∀ r ∈ rules, r.isAnchor = false → r.fromYear < year →
        r.fromYear ≤ r.toYear) ∧
      (∀ year, ∀ r ∈ rules, r.isAnchor = false → r.StaysInYears (year - 1)) ∧
      (∃ r ∈ rules, r.isAnchor = false ∧ ∃ y < 2000, r.covers y) ∧
      r.IsFirstLatest (Rule.OccursBefore 2000) rules ∧
      (anchorRule rules 2000).save = r.save ∧
      (anchorRule rules 2000).letter = r.letter ∧ r.letter = "M" ∧
      (∀ r ∈ rules, r.isAnchor = false → ∀ y < 1990, ¬ r.covers y) ∧
      (anchorRule rules 1990).save = 0 ∧ s.IsFirstStandard rules ∧
      (anchorRule rules 1990).letter = s.letter ∧ s.letter = "S" := by
  have hrun : (Source.empty.readTexts [] [sharedTimeText]).fault = none ∧
      ∃ sources ∈ (Source.empty.readTexts []
          [sharedTimeText]).source.policies.get? "P",
      ∃ rules ∈ (resolvePolicy Scope.extended.widths false
          sources).result.toOption,
        (∀ r ∈ rules, r.day = .exact 1 ∧ 1990 ≤ r.fromYear) ∧
        (∃ r ∈ rules, r.isAnchor = false ∧ r.covers 1999) ∧
        (∃ r ∈ rules, r.isAnchor = false ∧ r.save = 0) ∧
        (anchorRule rules 2000).letter = "M" ∧
        (anchorRule rules 1990).letter = "S" := by
    decide +kernel
  obtain ⟨hread, sources, hsources, hresolved⟩ := hrun
  obtain ⟨rules, hresolve, hfields, ⟨r, hr, hanchor, hcovers⟩,
    ⟨r', hr', hstandard⟩, h2000, h1990⟩ := exists_eq_ok_of_toOption hresolved
  have hproper := (Source.isWellFormed_of_readTexts hread).rules "P" sources
    hsources
  have hyears : ∀ year, ∀ r ∈ rules, r.isAnchor = false → r.fromYear < year →
      r.fromYear ≤ r.toYear := by
    intro _ r hr _ _
    obtain ⟨source, hsource, hr⟩ :=
      forall₂_exists_left (resolvePolicy_eq_ok.1 hresolve) hr
    obtain ⟨_, rfl, _⟩ := SourceRule.resolve_eq_ok.1 hr
    exact (hproper source hsource).years
  have hstays : ∀ year, ∀ r ∈ rules, r.isAnchor = false →
      r.StaysInYears (year - 1) := by
    intro _ r hr _
    refine staysInYears_of_resolvePolicy hproper hresolve hr
      fun year _ ⟨_, _, _, hday, _⟩ => ?_
    simp [(hfields r hr).1] at hday
  have hbefore : ∃ r ∈ rules, r.isAnchor = false ∧ ∃ y < 2000, r.covers y :=
    ⟨r, hr, hanchor, 1999, by decide, hcovers⟩
  have hnone : ∀ r ∈ rules, r.isAnchor = false → ∀ y < 1990, ¬ r.covers y := by
    intro r hr _ y hy hcovers
    have := (Rule.covers_iff.1 hcovers).1
    have := (hfields r hr).2
    omega
  obtain ⟨first, hfirst, hsave, hletter⟩ :=
    (anchorRule_carries (hyears 2000) (hstays 2000)).1 hbefore
  obtain ⟨hsave', ⟨s, hs, hletter'⟩ | ⟨hno, _⟩⟩ :=
    (anchorRule_carries (hyears 1990) (hstays 1990)).2 hnone
  · exact ⟨sources, rules, first, s, hsources, hresolve, hyears, hstays, hbefore,
      hfirst, hsave, hletter, hletter ▸ h2000, hnone, hsave', hs, hletter',
      hletter' ▸ h1990⟩
  · exact absurd hstandard (hno r' hr')

def reversedRule : Rule :=
  ⟨2000, 1990, 1, .exact 1, 0, .wall, 3600, "D", false, ""⟩

def leapDayRule : Rule :=
  ⟨2001, 2004, 2, .exact 29, 0, .wall, 0, "A", false, ""⟩

def firstDayRule : Rule :=
  ⟨2001, 2001, 1, .exact 1, 0, .wall, 0, "B", false, ""⟩

/-- A rule is carried on though it covers no year.  Of two rules that start in the
same year the one without a date in it gives its letter, though the other one takes
effect before it. -/
theorem anchorRule_of_reversedRule_and_leapDayRule :
    (reversedRule.StaysInYears (2010 - 1) ∧
      (∀ y, ¬ reversedRule.covers y) ∧
      (anchorRule [reversedRule] 2010).save = 3600) ∧
    (leapDayRule.StaysInYears (2001 - 1) ∧
      firstDayRule.StaysInYears (2001 - 1) ∧
      (∀ y < 2001, ¬ leapDayRule.covers y ∧ ¬ firstDayRule.covers y) ∧
      leapDayRule.fromYear = firstDayRule.fromYear ∧
      (∃ t, firstDayRule.Occurs t ∧ ∀ s, leapDayRule.Occurs s → t < s) ∧
      (anchorRule [leapDayRule, firstDayRule] 2001).letter = "A") := by
  have hreversed : ∀ y, ¬ reversedRule.covers y := by
    intro y hcovers
    obtain ⟨hfrom, hto⟩ := Rule.covers_iff.1 hcovers
    exact absurd (Int.le_trans hfrom hto) (by decide)
  have hlater : ∀ y < 2001, ¬ leapDayRule.covers y ∧ ¬ firstDayRule.covers y :=
    fun y hy => ⟨fun hcovers => Int.not_le.2 hy (Rule.covers_iff.1 hcovers).1,
      fun hcovers => Int.not_le.2 hy (Rule.covers_iff.1 hcovers).1⟩
  refine ⟨⟨fun y _ hcovers => absurd hcovers (hreversed y), hreversed, by decide⟩,
    fun y hy hcovers => absurd hcovers (hlater y (by omega)).1,
    fun y hy hcovers => absurd hcovers (hlater y (by omega)).2, hlater, rfl, ?_,
    by decide⟩
  obtain ⟨t, ht, hall⟩ : ∃ t ∈ firstDayRule.occurrence? 2001,
      ∀ y ∈ [2001, 2002, 2003, 2004], ∀ s ∈ leapDayRule.occurrence? y, t < s := by
    decide
  refine ⟨t, ⟨2001, rfl, ht⟩, ?_⟩
  rintro s ⟨y, hcovers, hs⟩
  have hfrom : 2001 ≤ y := (Rule.covers_iff.1 hcovers).1
  have hto : y ≤ 2004 := (Rule.covers_iff.1 hcovers).2
  refine hall y ?_ s hs
  simp only [List.mem_cons, List.not_mem_nil, or_false]
  omega

end ZoneTables
