import ZoneTables.Anchor
import ZoneTables.Database.Review
import ZoneTables.Sort

/-!
# Retention of rules

Of the rules of a policy those are kept that cover a year of an era that
refers to the policy, and those of the last month before and of the first
month after these years.  An anchor rule stands for all rules before them.
-/

namespace ZoneTables

/-- The years of an era: the year in which it starts and the last year of
interest in it. -/
structure EraYears where
  first : Int
  last : Int
deriving DecidableEq

/-- Eras with their years; the first of them is taken to start in the given
year, the others when the one before them ends. -/
def eraYears (stop startYear : Int) : List Era → List (Era × EraYears)
  | [] => []
  | era :: rest =>
    (era, ⟨startYear, min era.ends.year stop⟩) ::
      eraYears stop era.ends.year rest

def policyYears (window : Window) (zones : Zones) (policy : String) :
    List EraYears :=
  zones.values.flatMap fun eras =>
    ((eraYears window.stop (window.start - 1) eras).filter fun p =>
      p.1.saving.policy? == some policy).map Prod.snd

structure LastMonth where
  year : Int
  month : Nat
deriving DecidableEq

namespace LastMonth

def isBefore (a b : LastMonth) : Bool :=
  decide (a.year < b.year ∨ (a.year = b.year ∧ a.month < b.month))

end LastMonth

def Rule.lastMonth (r : Rule) : LastMonth := ⟨r.toYear, r.month⟩

def latestBefore? (rules : List Rule) (year : Int) : Option LastMonth :=
  lastGreatest? LastMonth.isBefore
    ((rules.filter fun r => decide (r.toYear < year)).map Rule.lastMonth)

def earliestFrom? (rules : List Rule) (year : Int) : Option LastMonth :=
  firstLeast? LastMonth.isBefore
    ((rules.filter fun r => decide (year ≤ r.toYear)).map Rule.lastMonth)

structure RuleNeed where
  years : EraYears
  before : Option LastMonth
  after : Option LastMonth
deriving DecidableEq

namespace RuleNeed

def of (rules : List Rule) (years : EraYears) : RuleNeed :=
  ⟨years, latestBefore? rules years.first, earliestFrom? rules (years.last + 1)⟩

def needs (need : RuleNeed) (r : Rule) : Bool :=
  (decide (r.fromYear < need.years.last + 1) &&
      decide (need.years.first ≤ r.toYear)) ||
    need.before == some r.lastMonth || need.after == some r.lastMonth

end RuleNeed

def Rule.inOrder (rules : List Rule) : List Rule :=
  sortByKey (·.fromYear) rules

structure RuleSelection where
  rules : List Rule
  kept : List Rule
  dropped : List (Nat × Rule)

namespace RuleSelection

def of (years : List EraYears) (rules : List Rule) : RuleSelection :=
  let needs := years.map (RuleNeed.of rules)
  let isKept := fun r => needs.any fun need => need.needs r
  { rules
    kept := rules.filter isKept
    dropped := (rules.zipIdx.filter fun p => !isKept p.1).map fun p =>
      (p.2, p.1) }

/-- The kept rules behind their anchor, by their first years. -/
def selected (window : Window) (s : RuleSelection) : List Rule :=
  Rule.inOrder (anchorRule s.rules (window.start - 1) :: s.kept)

/-- Selects the kept rules with their anchor.  A policy of which no rule is
needed is removed. -/
def review (window : Window) (s : RuleSelection) : Review (List Rule) :=
  if s.kept.isEmpty then .remove (.noRulesNeeded window)
  else
    ⟨s.dropped.map fun p => .ruleDropped p.1 p.2, .ok (s.selected window)⟩

def cutsBefore (window : Window) (s : RuleSelection) : Bool :=
  !s.kept.isEmpty && s.dropped.any fun p =>
    decide (p.2.toYear < window.start)

def cutsAfter (window : Window) (s : RuleSelection) : Bool :=
  !s.kept.isEmpty && s.dropped.any fun p =>
    decide (window.start ≤ p.2.toYear) && decide (window.stop ≤ p.2.fromYear)

end RuleSelection

end ZoneTables
