import ZoneTables.Proofs.Retention.Nesting

/-!
# The shape of policies

A policy of a database is one anchor and some of the rules of its source, by
their first years.  The anchor goes in front before they are sorted, so that it
stays in front of the rules of its own year.  What it carries on is read off all
rules of the source, and not of those only that are kept.
-/

namespace ZoneTables

structure Rule.IsInitial (r : Rule) : Prop where
  isAnchor : r.isAnchor = true
  fromYear : r.fromYear = Year.least
  toYear : r.toYear = Year.least
  month : r.month = 1
  day : r.day = .exact 1
  time : r.time = 0
  frame : r.frame = .wall

theorem isInitial_anchorRule (rules : List Rule) (year : Int) :
    (anchorRule rules year).IsInitial :=
  ⟨rfl, rfl, rfl, rfl, rfl, rfl, rfl⟩

/-- Whether rules are an anchor and some other rules, in order.  In front of the
anchor there is room for rules from before the least year only. -/
structure Anchored (anchor : Rule) (kept rules : List Rule) : Prop where
  initial : anchor.IsInitial
  unique : rules.filter (·.isAnchor) = [anchor]
  others : StablySorted (·.fromYear) kept (rules.filter (!·.isAnchor))
  kept_ne_nil : kept ≠ []
  ordered : rules.Pairwise fun a b => a.fromYear ≤ b.fromYear
  place : ∃ early late, rules = early ++ anchor :: late ∧
    ∀ r ∈ early, r.fromYear < Year.least

namespace Anchored

variable {anchor : Rule} {kept rules : List Rule}

theorem eq_cons (h : Anchored anchor kept rules)
    (hkept : ∀ r ∈ kept, Year.least ≤ r.fromYear) :
    ∃ rest, rules = anchor :: rest ∧ rest ≠ [] ∧
      (∀ r ∈ rest, r.isAnchor = false) ∧ StablySorted (·.fromYear) kept rest := by
  have hall : ∀ r ∈ rules, Year.least ≤ r.fromYear := by
    intro r hr
    by_cases hr' : r.isAnchor
    · have hmem : r ∈ rules.filter (·.isAnchor) := List.mem_filter.2 ⟨hr, hr'⟩
      rw [h.unique, List.mem_singleton] at hmem
      rw [hmem, h.initial.fromYear]
    · have hmem : r ∈ rules.filter (!·.isAnchor) :=
        List.mem_filter.2 ⟨hr, by simpa using hr'⟩
      exact hkept r (h.others.perm.mem_iff.1 hmem)
  obtain ⟨early, late, rfl, hearly⟩ := h.place
  obtain rfl : early = [] := by
    apply List.eq_nil_iff_forall_not_mem.2
    intro r hr
    have := hall r (List.mem_append_left _ hr)
    have := hearly r hr
    omega
  have hunique := h.unique
  have hothers := h.others
  rw [List.nil_append, List.filter_cons_of_pos h.initial.isAnchor,
    List.cons.injEq, List.filter_eq_nil_iff] at hunique
  have hlate : ∀ r ∈ late, r.isAnchor = false := by simpa using hunique.2
  have hself : late.filter (!·.isAnchor) = late := by
    rw [List.filter_eq_self]
    simpa using hlate
  rw [List.nil_append, List.filter_cons_of_neg (by simp [h.initial.isAnchor]),
    hself] at hothers
  refine ⟨late, rfl, ?_, hlate, hothers⟩
  rintro rfl
  exact h.kept_ne_nil hothers.perm.nil_eq.symm

end Anchored

theorem RuleSelection.anchored_selected {window : Window}
    {years : List EraYears} {rules : List Rule}
    (hrules : ∀ r ∈ rules, r.isAnchor = false)
    (hne : (RuleSelection.of years rules).kept ≠ []) :
    Anchored (anchorRule rules (window.start - 1))
      (RuleSelection.of years rules).kept
      ((RuleSelection.of years rules).selected window) where
  initial := isInitial_anchorRule rules _
  unique := by
    have hkept : (RuleSelection.of years rules).kept.filter (·.isAnchor) =
        [] := by
      rw [List.filter_eq_nil_iff]
      intro r hr
      rw [hrules r (mem_kept.1 hr).1]
      decide
    unfold selected Rule.inOrder
    rw [filter_sortByKey_eq, List.filter_cons_of_pos (isAnchor_anchorRule _ _),
      hkept]
    rfl
  others := by
    rw [filter_not_isAnchor_selected hrules]
    exact stablySorted_sortByKey _
  kept_ne_nil := hne
  ordered := Rule.inOrder_sorted _
  place := by
    refine ⟨_, _, insertByKey_eq _ _, fun r hr => ?_⟩
    exact of_decide_eq_true (List.all_eq_true.1 List.all_takeWhile r hr)

/-- A policy of a database is the anchor of all its resolved rules and some of
them, of which there is one at least, by their first years and in the order of
the source.  If no rule starts before the least year, and none that is read
does, then the anchor comes first. -/
theorem Database.policy_anchored {o : Options} {s : Source} {db : Database}
    (h : (ofSource o s).result = .ok db) {name : String} {rules : List Rule}
    (hget : db.policies.get? name = some rules) :
    ∃ sources resolved kept, s.policies.get? name = some sources ∧
      (resolvePolicy o.widths o.strict sources).result = .ok resolved ∧
      kept.Sublist resolved ∧
      Anchored (anchorRule resolved (o.window.start - 1)) kept rules ∧
      ((∀ source ∈ sources, Year.least ≤ source.fromYear) →
        ∃ rest, rules = anchorRule resolved (o.window.start - 1) :: rest ∧
          rest ≠ [] ∧ (∀ r ∈ rest, r.isAnchor = false) ∧
          StablySorted (·.fromYear) kept rest) := by
  obtain ⟨_, _, _, rfl⟩ := ofSource_eq_ok.1 h
  obtain ⟨sources, resolved, hsources, hresolve, _, hne, rfl⟩ :=
    Passes.exists_policy hget
  have hanchored : Anchored (anchorRule resolved (o.window.start - 1)) _ _ :=
    RuleSelection.anchored_selected (not_isAnchor_of_resolvePolicy hresolve) hne
  refine ⟨sources, resolved, _, hsources, hresolve, List.filter_sublist,
    hanchored, fun hleast => hanchored.eq_cons fun r hr => ?_⟩
  obtain ⟨source, hsource, hrule⟩ := forall₂_exists_left
    (resolvePolicy_eq_ok.1 hresolve) (RuleSelection.mem_kept.1 hr).1
  obtain ⟨_, rfl, _⟩ := SourceRule.resolve_eq_ok.1 hrule
  exact hleast source hsource

def leastYearText : SourceText where
  name := "t"
  text := "R P 1990 o - Apr 1 0 1 D\n" ++
    "R P -32767 1999 - Jan 1 0 0 S\n" ++
    "Z Z 0 P E%s\n"

/-- The anchor stays in front of a rule of its year, which comes before the one
that was read first. -/
theorem policy_anchored_leastYearText :
    ∃ db, MadeFrom twoYears [leastYearText] db ∧
      ∃ rules resolved rest, db.policies.get? "P" = some rules ∧
        rules = anchorRule resolved 1999 :: rest ∧
        rest.map (·.fromYear) = [Year.least, 1990] ∧
        (∀ r ∈ rest, r.isAnchor = false) := by
  have hrun : (Source.empty.readTexts [] [leastYearText]).fault = none ∧
      ∃ db ∈ (Database.ofSource twoYears
        (Source.empty.readTexts [] [leastYearText]).source).result.toOption,
        (∃ rules ∈ db.policies.get? "P",
          rules.map (·.fromYear) = [Year.least, Year.least, 1990]) := by
    decide +kernel
  have hleast : ∀ sources ∈
      (Source.empty.readTexts [] [leastYearText]).source.policies.get? "P",
      ∀ source ∈ sources, Year.least ≤ source.fromYear := by
    decide +kernel
  obtain ⟨hread, hmade⟩ := hrun
  obtain ⟨db, hdb, rules, hrules, hyears⟩ := exists_eq_ok_of_toOption hmade
  obtain ⟨sources, resolved, _, hsources, _, _, _, hshape⟩ :=
    Database.policy_anchored hdb hrules
  obtain ⟨rest, rfl, _, hrest, _⟩ := hshape (hleast sources hsources)
  refine ⟨db, ⟨hread, hdb⟩, _, resolved, rest, hrules, rfl, ?_, hrest⟩
  exact (List.cons.inj hyears).2

def earlyRuleSource : Source :=
  (Source.empty.readTexts [] [⟨"t", "R P 1990 2001 - Apr 1 0 1 D\n" ++
    "Z Z 0 P E%s\n"⟩]).source.mapRules fun r => { r with fromYear := -40000 }

/-- A rule from before the least year stands in front of the anchor. -/
theorem not_isAnchor_head_earlyRuleSource :
    (∀ p ∈ earlyRuleSource.policies.entries, p.2 ≠ []) ∧
      ∃ db rules first, (Database.ofSource twoYears earlyRuleSource).result = .ok db ∧
        db.policies.get? "P" = some rules ∧ rules.head? = some first ∧
        first.isAnchor = false := by
  have hrun : (∀ p ∈ earlyRuleSource.policies.entries, p.2 ≠ []) ∧
      ∃ db ∈ (Database.ofSource twoYears earlyRuleSource).result.toOption,
        ∃ rules ∈ db.policies.get? "P", ∃ first ∈ rules.head?,
          first.isAnchor = false := by
    decide +kernel
  obtain ⟨hne, hmade⟩ := hrun
  obtain ⟨db, hdb, rules, hrules, first, hfirst, hanchor⟩ :=
    exists_eq_ok_of_toOption hmade
  exact ⟨hne, db, rules, first, hdb, hrules, hfirst, hanchor⟩

end ZoneTables
