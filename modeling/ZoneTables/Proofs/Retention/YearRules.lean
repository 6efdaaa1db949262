import ZoneTables.Proofs.Retention.Covering
import ZoneTables.Proofs.Retention.Nesting

/-!
# The rules of a year

Rules are dropped for whole policies, by the years of all eras that follow them.
In each year of such an era, from the one in which it begins to the last one of
interest, both included, no rule that covers the year is dropped.  So what is left
for the year are the rules that the source has for it, by their first years.
-/

namespace ZoneTables

/-! ## The years of an era -/

/-- The year in which an era behind others begins: the one in which the last of
them ends, and the given one if there are none. -/
def beginYear (startYear : Int) (before : List Era) : Int :=
  (before.getLast?.map (·.ends.year)).getD startYear

theorem beginYear_cons (startYear : Int) (era : Era) (before : List Era) :
    beginYear startYear (era :: before) = beginYear era.ends.year before := by
  unfold beginYear
  rw [List.getLast?_cons]
  cases before.getLast? <;> rfl

theorem mem_eraYears_append (stop startYear : Int) (before after : List Era)
    (era : Era) :
    (era, ⟨beginYear startYear before, min era.ends.year stop⟩) ∈
      eraYears stop startYear (before ++ era :: after) := by
  induction before generalizing startYear with
  | nil => exact List.mem_cons_self
  | cons first before ih =>
    rw [beginYear_cons]
    exact List.mem_cons_of_mem _ (ih first.ends.year)

/-! ## The rules that are left -/

theorem RuleSelection.filter_covers_kept {years : List EraYears}
    {rules : List Rule} {y : EraYears} {year : Int} (hy : y ∈ years)
    (hfirst : y.first ≤ year) (hlast : year ≤ y.last) :
    (RuleSelection.of years rules).kept.filter (·.covers year) =
      rules.filter (·.covers year) := by
  show (rules.filter _).filter (·.covers year) = _
  rw [List.filter_filter]
  apply List.filter_congr
  intro r hr
  by_cases hcovers : r.covers year
  · have hyears := Rule.covers_iff.1 hcovers
    have hneeds : (RuleNeed.of rules y).needs r :=
      RuleNeed.needs_iff.2 (.inl (by omega))
    have hkept := (List.mem_filter.1 (mem_kept.2 ⟨hr, y, hy, hneeds⟩)).2
    rw [hcovers, hkept, Bool.and_self]
  · rw [Bool.not_eq_true] at hcovers
    rw [hcovers, Bool.false_and]

theorem RuleSelection.stablySorted_covers {window : Window}
    {years : List EraYears} {rules : List Rule}
    (hrules : ∀ r ∈ rules, r.isAnchor = false) {y : EraYears} {year : Int}
    (hy : y ∈ years) (hfirst : y.first ≤ year) (hlast : year ≤ y.last) :
    StablySorted (·.fromYear) (rules.filter (·.covers year))
      (((RuleSelection.of years rules).selected window).filter fun r =>
        !r.isAnchor && r.covers year) := by
  have hcommute : (((RuleSelection.of years rules).selected window).filter
      fun r => !r.isAnchor && r.covers year) =
      (((RuleSelection.of years rules).selected window).filter
        (!·.isAnchor)).filter (·.covers year) := by
    rw [List.filter_filter]
    exact List.filter_congr fun r _ => Bool.and_comm _ _
  rw [hcommute, filter_not_isAnchor_selected hrules, Rule.inOrder,
    filter_sortByKey_eq, filter_covers_kept hy hfirst hlast]
  exact stablySorted_sortByKey _

/-- In each year of an era that follows a policy, up to the last one of interest,
a database has all rules of the policy in its source that cover the year, by their
first years and else in the order of the source, and no others but the anchor. -/
theorem Database.rules_of_year {o : Options} {s : Source} {db : Database}
    (h : (ofSource o s).result = .ok db) {zone : String}
    {before after : List Era} {era : Era}
    (hzone : db.zones.get? zone = some (before ++ era :: after))
    {policy : String} (hsaving : era.saving = .policy policy) :
    ∃ sources resolved rules, s.policies.get? policy = some sources ∧
      (resolvePolicy o.widths o.strict sources).result = .ok resolved ∧
      db.policies.get? policy = some rules ∧
      ∀ year, beginYear (o.window.start - 1) before ≤ year →
        year ≤ min era.ends.year o.window.stop →
        StablySorted (·.fromYear) (resolved.filter (·.covers year))
          (rules.filter fun r => !r.isAnchor && r.covers year) := by
  obtain ⟨_, _, _, rfl⟩ := ofSource_eq_ok.1 h
  have hmem : era ∈ before ++ era :: after :=
    List.mem_append_right _ List.mem_cons_self
  obtain ⟨husable, hpolicies⟩ := Passes.get?_zones.1 hzone
  obtain ⟨rules, hrules⟩ := Option.isSome_iff_exists.1
    (hpolicies era hmem policy hsaving)
  have hget := Passes.get?_policies_of_zone hzone hmem hsaving hrules
  obtain ⟨sources, resolved, hsources, hresolve, _, _, rfl⟩ :=
    Passes.exists_policy hget
  refine ⟨sources, resolved, _, hsources, hresolve, hget,
    fun year hfirst hlast => ?_⟩
  exact RuleSelection.stablySorted_covers (not_isAnchor_of_resolvePolicy hresolve)
    (mem_policyYears husable (mem_eraYears_append _ _ before after era) hsaving)
    hfirst hlast

/-- A zone that follows a policy until the year after two years from 2000 on.
Behind the rules of these years stand two from before them. -/
def marginRulesText : SourceText where
  name := "t"
  text := "R P 2002 o - Apr 1 0 1 D\n" ++
    "R P 1999 o - Oct 1 0 0 S\n" ++
    "R P 1995 ma - Jun 1 0 2 M\n" ++
    "R P 1980 o - Apr 1 0 1 X\n" ++
    "R P 1985 o - Apr 1 0 1 L\n" ++
    "Z Z 0 P E%s 2002 May\n" ++
    " 0 - G\n"

/-- One rule is dropped.  In the first and in the last year of the era those of the
source are left, of which one goes in front of the one that was read before it. -/
theorem rules_of_year_marginRulesText :
    ∃ db era after, ∃ resolved rules : List Rule,
      MadeFrom twoYears [marginRulesText] db ∧
      db.zones.get? "Z" = some ([] ++ era :: [after]) ∧
      era.saving = .policy "P" ∧ beginYear 1999 [] = 1999 ∧
      min era.ends.year 2002 = 2002 ∧ db.policies.get? "P" = some rules ∧
      rules.map (·.letter) = ["M", "L", "M", "S", "D"] ∧
      resolved.map (·.letter) = ["D", "S", "M", "X", "L"] ∧
      StablySorted (·.fromYear) (resolved.filter (·.covers 1999))
        (rules.filter fun r => !r.isAnchor && r.covers 1999) ∧
      (resolved.filter (·.covers 1999)).map (·.letter) = ["S", "M"] ∧
      StablySorted (·.fromYear) (resolved.filter (·.covers 2002))
        (rules.filter fun r => !r.isAnchor && r.covers 2002) ∧
      (resolved.filter (·.covers 2002)).map (·.letter) = ["D", "M"] := by
  have hrun : (Source.empty.readTexts [] [marginRulesText]).fault = none ∧
      ∃ db ∈ (Database.ofSource twoYears
        (Source.empty.readTexts [] [marginRulesText]).source).result.toOption,
      (∃ era ∈ (db.zones.get? "Z").bind (·.head?),
        ∃ after ∈ (db.zones.get? "Z").bind (·[1]?),
          db.zones.get? "Z" = some ([] ++ era :: [after]) ∧
          era.saving = .policy "P" ∧ min era.ends.year 2002 = 2002) ∧
      ∃ rules ∈ db.policies.get? "P",
        rules.map (·.letter) = ["M", "L", "M", "S", "D"] := by
    decide +kernel
  have hresolved : ∀ sources ∈ (Source.empty.readTexts []
      [marginRulesText]).source.policies.get? "P",
      ∀ resolved ∈ (resolvePolicy twoYears.widths twoYears.strict
        sources).result.toOption,
      resolved.map (·.letter) = ["D", "S", "M", "X", "L"] ∧
        (resolved.filter (·.covers 1999)).map (·.letter) = ["S", "M"] ∧
        (resolved.filter (·.covers 2002)).map (·.letter) = ["D", "M"] := by
    decide +kernel
  obtain ⟨hread, hmade⟩ := hrun
  obtain ⟨db, hdb, ⟨era, _, after, _, hzone, hsaving, hlast⟩, rules, hrules,
    hletters⟩ := exists_eq_ok_of_toOption hmade
  obtain ⟨sources, resolved, rules', hsources, hresolve, hrules', hyears⟩ :=
    Database.rules_of_year hdb hzone hsaving
  obtain rfl : rules' = rules := Option.some.inj (hrules'.symm.trans hrules)
  obtain ⟨hall, h1999, h2002⟩ := hresolved sources hsources resolved
    (except_toOption_eq_some.2 hresolve)
  have hfirst : beginYear (twoYears.window.start - 1) [] = 1999 := rfl
  have hstop : twoYears.window.stop = 2002 := rfl
  rw [hfirst, hstop, hlast] at hyears
  exact ⟨db, era, after, resolved, rules', ⟨hread, hdb⟩, hzone, hsaving, rfl,
    hlast, hrules', hletters, hall, hyears 1999 (by decide) (by decide), h1999,
    hyears 2002 (by decide) (by decide), h2002⟩

end ZoneTables
