import ZoneTables.Proofs.Database.Survival

/-!
# Retention under nested windows

If the years in which the eras of a zone end never decrease, a window keeps a
contiguous part of what a wider one keeps, and the years of need of an era grow
with the window.  A rule is needed for one of three reasons.  In wider years it
is needed again if it ends no earlier than it starts, perhaps for another reason:
a rule that was the last before the years, or the first after them, may cover one
of the wider years.
-/

namespace ZoneTables

/-! ## Kept eras -/

/-- Whether the years in which eras end never decrease, from the year on in
which the first of them starts. -/
structure YearsAscend (startYear : Option Int) (eras : List SourceEra) :
    Prop where
  ends : eras.Pairwise fun a b => a.endYear ≤ b.endYear
  start : ∀ year, startYear = some year → ∀ era ∈ eras, year ≤ era.endYear

section Kept

variable {w w' : Window} {startYear : Option Int} {era : SourceEra}
  {eras : List SourceEra}

theorem YearsAscend.tail (h : YearsAscend startYear (era :: eras)) :
    YearsAscend (some era.endYear) eras where
  ends := h.ends.of_cons
  start := by
    rintro _ ⟨rfl⟩
    exact (List.pairwise_cons.1 h.ends).1

theorem YearsAscend.keptFrom_eq_nil {year : Int}
    (h : YearsAscend (some year) eras) (hlate : w.stop + 1 < year) :
    keptFrom w (some year) eras = [] := by
  induction eras generalizing year with
  | nil => rfl
  | cons era eras ih =>
    have hera := h.start year rfl era List.mem_cons_self
    have hrest := ih h.tail (by omega)
    have hplace : (era.place w (some year) == .kept) = false := by
      unfold SourceEra.place
      by_cases hold : era.endYear < w.start - 1 <;> simp [hold, hlate]
    unfold keptFrom at hrest ⊢
    rw [erasWithPlace, List.filter_cons, hplace]
    exact hrest

theorem YearsAscend.keptFrom_cons (h : YearsAscend startYear (era :: eras))
    (w : Window) :
    ((∃ year, startYear = some year ∧ w.stop + 1 < year) ∧
        keptFrom w startYear (era :: eras) = []) ∨
      (era.endYear < w.start - 1 ∧ keptFrom w startYear (era :: eras) =
        keptFrom w (some era.endYear) eras) ∨
      ((∀ year, startYear = some year → year ≤ w.stop + 1) ∧
        w.start - 1 ≤ era.endYear ∧ keptFrom w startYear (era :: eras) =
          era :: keptFrom w (some era.endYear) eras) := by
  by_cases hlate : ∃ year, startYear = some year ∧ w.stop + 1 < year
  · left
    refine ⟨hlate, ?_⟩
    obtain ⟨year, rfl, hyear⟩ := hlate
    exact h.keptFrom_eq_nil hyear
  · right
    have hstart : ∀ year, startYear = some year → year ≤ w.stop + 1 :=
      fun year hyear => Int.not_lt.1 fun hlt => hlate ⟨year, hyear, hlt⟩
    by_cases hold : era.endYear < w.start - 1
    · exact .inl ⟨hold, keptFrom_cons_of_lt hold⟩
    · exact .inr ⟨hstart, by omega, keptFrom_cons_of_le hstart (by omega)⟩

theorem YearsAscend.isChain_keptFrom (h : YearsAscend startYear eras)
    (w : Window) :
    (keptFrom w startYear eras).IsChain fun a _ => a.endYear ≤ w.stop + 1 := by
  induction eras generalizing startYear with
  | nil => exact .nil
  | cons era eras ih =>
    have hrest := ih h.tail
    rcases h.keptFrom_cons w with ⟨_, heq⟩ | ⟨_, heq⟩ | ⟨_, _, heq⟩
    · rw [heq]
      exact .nil
    · rw [heq]
      exact hrest
    · rw [heq]
      by_cases hlate : w.stop + 1 < era.endYear
      · rw [h.tail.keptFrom_eq_nil hlate]
        exact .singleton era
      · cases hkept : keptFrom w (some era.endYear) eras with
        | nil => exact .singleton era
        | cons next rest =>
          rw [hkept] at hrest
          exact .cons_cons (by omega) hrest

theorem YearsAscend.exists_last (h : YearsAscend startYear eras)
    (hw : w.start ≤ w.stop)
    (hstart : ∀ year, startYear = some year → year ≤ w.stop + 1)
    (hnew : (erasWithPlace w startYear eras).countP (fun p => p.2 == .tooNew) ≠
      0) :
    ∃ front last, keptFrom w startYear eras = front ++ [last] ∧
      w.stop + 1 < last.endYear := by
  induction eras generalizing startYear with
  | nil => exact absurd rfl hnew
  | cons era eras ih =>
    have hplace : (era.place w startYear == .tooNew) = false := by
      have hany : (startYear.any fun year => decide (w.stop + 1 < year)) =
          false := by
        cases startYear with
        | none => rfl
        | some year => simpa using hstart year rfl
      unfold SourceEra.place
      rw [hany]
      split <;> rfl
    rw [erasWithPlace, List.countP_cons, hplace] at hnew
    by_cases hlate : w.stop + 1 < era.endYear
    · refine ⟨[], era, ?_, hlate⟩
      rw [keptFrom_cons_of_le hstart (by omega),
        h.tail.keptFrom_eq_nil hlate]
      rfl
    · obtain ⟨front, last, heq, hlast⟩ :=
        ih h.tail (by rintro _ ⟨rfl⟩; omega) hnew
      by_cases hold : era.endYear < w.start - 1
      · exact ⟨front, last, by rw [keptFrom_cons_of_lt hold, heq], hlast⟩
      · refine ⟨era :: front, last, ?_, hlast⟩
        rw [keptFrom_cons_of_le hstart (by omega), heq]
        rfl

theorem YearsAscend.kept_eq (h : YearsAscend none eras) (hw : w.start ≤ w.stop) :
    (TrimmedZone.of w eras).kept = keptFrom w none eras ∨
      ∃ front last, keptFrom w none eras = front ++ [last] ∧
        w.stop + 1 < last.endYear ∧
        (TrimmedZone.of w eras).kept =
          front ++ [{ last with ends := none }] := by
  unfold TrimmedZone.of
  dsimp only
  by_cases hnew : (erasWithPlace w none eras).countP
      (fun p => p.2 == .tooNew) = 0
  · rw [if_pos hnew]
    exact .inl rfl
  · rw [if_neg hnew]
    obtain ⟨front, last, heq, hlate⟩ := h.exists_last hw nofun hnew
    refine .inr ⟨front, last, heq, hlate, ?_⟩
    rw [← openLast_append, ← heq]
    rfl

variable (hfrom : w'.start ≤ w.start) (hto : w.stop ≤ w'.stop)

include hfrom hto

theorem YearsAscend.keptFrom_prefix (h : YearsAscend startYear eras)
    (hlate : ∀ era ∈ eras, w.start - 1 ≤ era.endYear) :
    keptFrom w startYear eras <+: keptFrom w' startYear eras := by
  induction eras generalizing startYear with
  | nil => exact List.nil_prefix
  | cons era eras ih =>
    rw [List.forall_mem_cons] at hlate
    rcases h.keptFrom_cons w with ⟨_, heq⟩ | ⟨hold, _⟩ | ⟨hstart, _, heq⟩
    · rw [heq]
      exact List.nil_prefix
    · omega
    · rw [heq, keptFrom_cons_of_le (fun year hyear =>
        Int.le_trans (hstart year hyear) (by omega)) (by omega),
        List.prefix_cons_inj]
      exact ih h.tail hlate.2

theorem YearsAscend.exists_keptFrom_append (h : YearsAscend startYear eras) :
    ∃ old new, keptFrom w' startYear eras =
        old ++ keptFrom w startYear eras ++ new ∧
      ∀ era ∈ old, era.endYear < w.start - 1 := by
  induction eras generalizing startYear with
  | nil => exact ⟨[], [], rfl, by simp⟩
  | cons era eras ih =>
    by_cases hold : era.endYear < w.start - 1
    · obtain ⟨old, new, htail, hends⟩ := ih h.tail
      rw [keptFrom_cons_of_lt hold]
      rcases h.keptFrom_cons w' with ⟨⟨year, rfl, hyear⟩, heq⟩ | ⟨_, heq⟩ |
        ⟨_, _, heq⟩
      · have hera := h.start year rfl era List.mem_cons_self
        rw [heq, h.tail.keptFrom_eq_nil (by omega)]
        exact ⟨[], [], rfl, by simp⟩
      · exact ⟨old, new, by rw [heq, htail], hends⟩
      · refine ⟨era :: old, new, by rw [heq, htail]; rfl, ?_⟩
        rw [List.forall_mem_cons]
        exact ⟨hold, hends⟩
    · have hlate : ∀ e ∈ era :: eras, w.start - 1 ≤ e.endYear := by
        rw [List.forall_mem_cons]
        refine ⟨by omega, fun e he => ?_⟩
        have := List.rel_of_pairwise_cons h.ends he
        omega
      obtain ⟨new, hnew⟩ := h.keptFrom_prefix hfrom hto hlate
      exact ⟨[], new, hnew.symm, by simp⟩

end Kept

/-! ## Years of need -/

/-- The policies of eras of a source, each with the years in which it is needed
as far as a window goes. -/
def sourceUse (stop startYear : Int) :
    List SourceEra → List (Option String × EraYears)
  | [] => []
  | era :: rest =>
    (era.policy?, ⟨startYear, min era.endYear stop⟩) ::
      sourceUse stop era.endYear rest

section Use

variable {stop stop' startYear startYear' : Int} {l : List SourceEra}
  {policy : Option String} {y : EraYears}

theorem map_eraYears {widths : Widths} {strict : Bool} {eras : List Era}
    (h : List.Forall₂ (fun source era =>
      (source.resolve widths strict).result = .ok era) l eras) :
    (eraYears stop startYear eras).map (fun p => (p.1.saving.policy?, p.2)) =
      sourceUse stop startYear l := by
  induction h generalizing startYear with
  | nil => rfl
  | cons hresolve _ ih =>
    have hresolves := SourceEra.resolvesTo_of_resolve hresolve
    rw [eraYears, List.map_cons, ih, sourceUse,
      hresolves.saving.policy?_eq, SourceEra.endYear_eq hresolves]

theorem sourceUse_append (front back : List SourceEra) :
    sourceUse stop startYear (front ++ back) =
      sourceUse stop startYear front ++
        sourceUse stop (front.foldl (fun _ era => era.endYear) startYear)
          back := by
  induction front generalizing startYear with
  | nil => rfl
  | cons era front ih =>
    rw [List.cons_append, sourceUse, ih, sourceUse, List.foldl_cons]
    rfl

theorem lastEnd_le {bound : Int} (hstart : startYear ≤ bound)
    (hends : ∀ era ∈ l, era.endYear ≤ bound) :
    l.foldl (fun _ era => era.endYear) startYear ≤ bound := by
  induction l generalizing startYear with
  | nil => exact hstart
  | cons era l ih =>
    rw [List.forall_mem_cons] at hends
    exact ih hends.1 hends.2

theorem sourceUse_openLast {front : List SourceEra} {last : SourceEra}
    (hstop : stop ≤ Year.endless) (hlate : stop + 1 < last.endYear) :
    sourceUse stop startYear (front ++ [{ last with ends := none }]) =
      sourceUse stop startYear (front ++ [last]) := by
  have hnever : stop ≤ Year.never := by
    unfold Year.never
    unfold Year.endless at hstop
    omega
  rw [sourceUse_append, sourceUse_append]
  unfold sourceUse
  rw [endYear_of_ends_eq_none rfl, min_eq_right hnever,
    min_eq_right (by omega : stop ≤ last.endYear)]
  rfl

theorem exists_mem_sourceUse_of_le (hto : stop ≤ stop')
    (hfrom : startYear' ≤ startYear)
    (h : (policy, y) ∈ sourceUse stop startYear l) :
    ∃ y', (policy, y') ∈ sourceUse stop' startYear' l ∧ y'.first ≤ y.first ∧
      y.last ≤ y'.last := by
  induction l generalizing startYear startYear' with
  | nil => exact absurd h List.not_mem_nil
  | cons era l ih =>
    rcases List.mem_cons.1 h with heq | hrest
    · cases heq
      exact ⟨_, List.mem_cons_self, hfrom, by dsimp only; omega⟩
    · obtain ⟨y', hy', hle⟩ := ih (Int.le_refl _) hrest
      exact ⟨y', List.mem_cons_of_mem _ hy', hle⟩

theorem first_le_of_mem_sourceUse
    (hchain : l.IsChain fun a _ => a.endYear ≤ stop + 1)
    (horder : l.Pairwise fun a b => a.endYear ≤ b.endYear)
    (hstart : startYear ≤ stop + 1) (hlate : ∀ era ∈ l, startYear ≤ era.endYear)
    (h : (policy, y) ∈ sourceUse stop startYear l) : y.first ≤ y.last + 1 := by
  induction l generalizing startYear with
  | nil => exact absurd h List.not_mem_nil
  | cons era l ih =>
    rw [List.forall_mem_cons] at hlate
    rcases List.mem_cons.1 h with heq | hrest
    · cases heq
      dsimp only
      omega
    · have hnext : era.endYear ≤ stop + 1 := by
        cases l with
        | nil => exact absurd hrest List.not_mem_nil
        | cons next l => exact (List.isChain_cons_cons.1 hchain).1
      exact ih hchain.of_cons horder.of_cons hnext
        (List.pairwise_cons.1 horder).1 hrest

theorem YearsAscend.sourceUse_kept {w : Window} {eras : List SourceEra}
    (h : YearsAscend none eras) (hw : w.start ≤ w.stop)
    (hstop : w.stop ≤ Year.endless) :
    sourceUse w.stop startYear (TrimmedZone.of w eras).kept =
      sourceUse w.stop startYear (keptFrom w none eras) := by
  rcases h.kept_eq hw with heq | ⟨front, last, hkept, hlate, heq⟩
  · rw [heq]
  · rw [heq, hkept, sourceUse_openLast hstop hlate]

/-- A policy that is needed for a zone in some years is needed for it in these
years and perhaps more under a wider window. -/
theorem YearsAscend.exists_mem_sourceUse {w w' : Window}
    {eras : List SourceEra} (h : YearsAscend none eras)
    (hw : w.start ≤ w.stop) (hfrom : w'.start ≤ w.start)
    (hto : w.stop ≤ w'.stop)
    (hmem : (policy, y) ∈
      sourceUse w.stop (w.start - 1) (keptFrom w none eras)) :
    y.first ≤ y.last + 1 ∧ ∃ y', (policy, y') ∈
        sourceUse w'.stop (w'.start - 1) (keptFrom w' none eras) ∧
      y'.first ≤ y.first ∧ y.last ≤ y'.last := by
  constructor
  · exact first_le_of_mem_sourceUse (h.isChain_keptFrom w)
      (h.ends.sublist (keptFrom_sublist w none eras)) (by omega)
      (fun era hera => le_endYear_of_mem_keptFrom hera) hmem
  · obtain ⟨old, new, heq, hold⟩ := h.exists_keptFrom_append hfrom hto
    have hstart : old.foldl (fun _ era => era.endYear) (w'.start - 1) ≤
        w.start - 1 :=
      lastEnd_le (by omega) fun era hera => by
        have := hold era hera
        omega
    obtain ⟨y', hy', hle⟩ := exists_mem_sourceUse_of_le hto hstart hmem
    refine ⟨y', ?_, hle⟩
    rw [heq, sourceUse_append, sourceUse_append]
    exact List.mem_append_left _ (List.mem_append_right _ hy')

end Use

/-! ## Rules -/

section Rules

variable {rules : List Rule} {r : Rule} {year year' : Int} {month : LastMonth}

theorem latestBefore?_of_le (h : latestBefore? rules year = some month)
    (hle : year' ≤ year) (hmonth : month.year < year') :
    latestBefore? rules year' = some month := by
  obtain ⟨k, hk, hkto, rfl⟩ := exists_of_latestBefore? h
  obtain ⟨month', h'⟩ := exists_latestBefore? hk hmonth
  obtain ⟨k', hk', hkto', rfl⟩ := exists_of_latestBefore? h'
  have hnot := not_isBefore_of_latestBefore? h hk' (by omega)
  have hnot' := not_isBefore_of_latestBefore? h' hk hmonth
  rw [h', LastMonth.eq_of_not_isBefore hnot hnot']

theorem earliestFrom?_of_le (h : earliestFrom? rules year = some month)
    (hle : year ≤ year') (hmonth : year' ≤ month.year) :
    earliestFrom? rules year' = some month := by
  obtain ⟨k, hk, hkto, rfl⟩ := exists_of_earliestFrom? h
  obtain ⟨month', h'⟩ := exists_earliestFrom? hk hmonth
  obtain ⟨k', hk', hkto', rfl⟩ := exists_of_earliestFrom? h'
  have hnot := not_isBefore_of_earliestFrom? h hk' (by omega)
  have hnot' := not_isBefore_of_earliestFrom? h' hk hmonth
  rw [h', LastMonth.eq_of_not_isBefore hnot' hnot]

theorem RuleNeed.needs_of_le {y y' : EraYears} (hyears : r.fromYear ≤ r.toYear)
    (hy : y.first ≤ y.last + 1) (hfirst : y'.first ≤ y.first)
    (hlast : y.last ≤ y'.last) (h : (RuleNeed.of rules y).needs r) :
    (RuleNeed.of rules y').needs r := by
  rw [needs_iff] at h ⊢
  rcases h with hcovers | hbefore | hafter
  · left
    omega
  · obtain ⟨k, _, hk, hmonth⟩ := exists_of_latestBefore? hbefore
    have hto : k.toYear = r.toYear := congrArg LastMonth.year hmonth
    by_cases hr : r.toYear < y'.first
    · exact .inr (.inl (latestBefore?_of_le hbefore hfirst hr))
    · exact .inl (by omega)
  · obtain ⟨k, _, hk, hmonth⟩ := exists_of_earliestFrom? hafter
    have hto : k.toYear = r.toYear := congrArg LastMonth.year hmonth
    by_cases hr : y'.last + 1 ≤ r.toYear
    · exact .inr (.inr (earliestFrom?_of_le hafter (by omega) hr))
    · exact .inl (by omega)

namespace RuleSelection

variable {window window' : Window} {years years' : List EraYears}

theorem filter_not_isAnchor_selected
    (hrules : ∀ r ∈ rules, r.isAnchor = false) :
    ((RuleSelection.of years rules).selected window).filter (!·.isAnchor) =
      Rule.inOrder (RuleSelection.of years rules).kept := by
  have hkept : (RuleSelection.of years rules).kept.filter (!·.isAnchor) =
      (RuleSelection.of years rules).kept := by
    rw [List.filter_eq_self]
    intro r hr
    rw [hrules r (mem_kept.1 hr).1]
    rfl
  unfold selected Rule.inOrder
  rw [filter_sortByKey_eq, List.filter_cons_of_neg (by simp), hkept]

/-- If no rule is lost then those that were kept stay in their order. -/
theorem selected_sublist_of_kept (hrules : ∀ r ∈ rules, r.isAnchor = false)
    (hmono : ∀ r ∈ (RuleSelection.of years rules).kept,
      r ∈ (RuleSelection.of years' rules).kept) :
    (((RuleSelection.of years rules).selected window).filter
      (!·.isAnchor)).Sublist
      (((RuleSelection.of years' rules).selected window').filter
        (!·.isAnchor)) := by
  let isKept : Rule → Bool := fun r =>
    (years.map (RuleNeed.of rules)).any fun need => need.needs r
  have hkept : (RuleSelection.of years rules).kept =
      (RuleSelection.of years' rules).kept.filter isKept := by
    show rules.filter isKept = (rules.filter _).filter isKept
    rw [List.filter_filter]
    apply List.filter_congr
    intro r hr
    by_cases hr' : isKept r
    · have hmem := hmono r (List.mem_filter.2 ⟨hr, hr'⟩)
      rw [hr', (List.mem_filter.1 hmem).2]
      rfl
    · rw [Bool.not_eq_true] at hr'
      rw [hr', Bool.false_and]
  rw [filter_not_isAnchor_selected hrules, filter_not_isAnchor_selected hrules,
    hkept]
  unfold Rule.inOrder
  rw [← filter_sortByKey_eq]
  exact List.filter_sublist

theorem selected_sublist (hyears : ∀ r ∈ rules, r.fromYear ≤ r.toYear)
    (hrules : ∀ r ∈ rules, r.isAnchor = false)
    (hwider : ∀ y ∈ years, y.first ≤ y.last + 1 ∧
      ∃ y' ∈ years', y'.first ≤ y.first ∧ y.last ≤ y'.last) :
    (((RuleSelection.of years rules).selected window).filter
      (!·.isAnchor)).Sublist
      (((RuleSelection.of years' rules).selected window').filter
        (!·.isAnchor)) := by
  refine selected_sublist_of_kept hrules fun r hkept => ?_
  obtain ⟨hr, y, hy, hneeds⟩ := mem_kept.1 hkept
  obtain ⟨hle, y', hy', hfirst, hlast⟩ := hwider y hy
  exact mem_kept.2 ⟨hr, y', hy',
    RuleNeed.needs_of_le (hyears r hr) hle hfirst hlast hneeds⟩

end RuleSelection

end Rules

/-! ## Made databases -/

/-- Whether every policy of a source has rules, and none of them ends before it
starts.  This holds of all policies that are read. -/
def Source.RulesInOrder (s : Source) : Prop :=
  ∀ name rules, s.policies.get? name = some rules →
    rules ≠ [] ∧ ∀ r ∈ rules, r.fromYear ≤ r.toYear

theorem Source.IsProper.rulesInOrder {s : Source} {openZone : Option String}
    (h : s.IsProper openZone) : s.RulesInOrder := by
  intro name rules hrules
  obtain ⟨hne, hproper⟩ := h.rules hrules
  exact ⟨hne, fun r hr => (hproper r hr).years⟩

theorem Source.RulesInOrder.hasRules {s : Source} (h : s.RulesInOrder) (o : Options)
    (zone : String) : s.HasRules o zone := by
  intro _ _ _ _ name _ rules hrules
  obtain ⟨hne, hyears⟩ := h name rules hrules
  obtain ⟨r, hr⟩ := List.exists_mem_of_ne_nil rules hne
  exact ⟨r, hr, hyears r hr⟩

theorem mem_policyYears_iff {window : Window} {zones : Zones} {name : String}
    {y : EraYears} :
    y ∈ policyYears window zones name ↔ ∃ zone eras,
      zones.get? zone = some eras ∧ (some name, y) ∈
        (eraYears window.stop (window.start - 1) eras).map
          fun p => (p.1.saving.policy?, p.2) := by
  unfold policyYears
  simp only [List.mem_flatMap, List.mem_map, List.mem_filter, beq_iff_eq,
    NameMap.values]
  constructor
  · rintro ⟨_, ⟨⟨zone, eras⟩, hzone, rfl⟩, ⟨era, y⟩, ⟨hmem, hname⟩, rfl⟩
    exact ⟨zone, eras, NameMap.get?_eq_some_iff.2 hzone, (era, y), hmem,
      by rw [hname]⟩
  · rintro ⟨zone, eras, hzone, ⟨era, y⟩, hmem, heq⟩
    obtain ⟨hname, rfl⟩ := Prod.mk.inj heq
    exact ⟨eras, ⟨(zone, eras), NameMap.get?_eq_some_iff.1 hzone, rfl⟩,
      (era, y), ⟨hmem, hname⟩, rfl⟩

namespace Passes

variable {o : Options} {s : Source} {zone name : String} {eras : List Era}

theorem get?_zones_of_usableZones (hsimple : o.widths.simpleRules = false)
    (hrules : s.HasRules o zone)
    (h : (Passes.of o s).usableZones.kept.get? zone = some eras) :
    (Passes.of o s).zones.kept.get? zone = some eras := by
  refine get?_zones.2 ⟨h, fun era hera name hsaving => ?_⟩
  obtain ⟨rules, hget, _⟩ := exists_simplePolicy hsimple hrules h hera hsaving
  exact Option.isSome_iff_exists.2 ⟨rules, hget⟩

/-- The years in which zones need a policy grow with the window, if no zone goes
when it grows. -/
theorem exists_policyYears {w' : Window} {y : EraYears}
    (hsimple : o.widths.simpleRules = false) (hrules : ∀ zone, s.HasRules o zone)
    (hyears : ∀ zone sources, s.zones.get? zone = some sources →
      sources.Pairwise fun a b => a.endYear ≤ b.endYear)
    (hwindow : o.window.fault? = none) (hwindow' : w'.fault? = none)
    (hfrom : w'.start ≤ o.window.start) (hto : o.window.stop ≤ w'.stop)
    (hzones : ∀ zone, (Passes.of o s).zones.kept.contains zone →
      (Passes.of { o with window := w' } s).zones.kept.contains zone)
    (hy : y ∈ policyYears o.window (Passes.of o s).usableZones.kept name) :
    y.first ≤ y.last + 1 ∧ ∃ y' ∈ policyYears w'
        (Passes.of { o with window := w' } s).usableZones.kept name,
      y'.first ≤ y.first ∧ y.last ≤ y'.last := by
  obtain ⟨hlt, _, hstop⟩ := Window.fault?_eq_none.1 hwindow
  obtain ⟨hlt', _, hstop'⟩ := Window.fault?_eq_none.1 hwindow'
  obtain ⟨zone, eras, hzone, hmem⟩ := mem_policyYears_iff.1 hy
  obtain ⟨sources, hsources, _, hresolve⟩ := exists_usableZone hzone
  have hall := (resolveZone_eq_ok.1 hresolve).1
  have hascend : YearsAscend none sources :=
    ⟨hyears zone sources hsources, nofun⟩
  rw [map_eraYears hall, hascend.sourceUse_kept (Int.le_of_lt hlt) hstop] at hmem
  obtain ⟨hle, y', hmem', hwider⟩ :=
    hascend.exists_mem_sourceUse (Int.le_of_lt hlt) hfrom hto hmem
  refine ⟨hle, y', ?_, hwider⟩
  have hkept := get?_zones_of_usableZones hsimple (hrules zone) hzone
  obtain ⟨eras', hkept'⟩ := Option.isSome_iff_exists.1
    (hzones zone (Option.isSome_iff_exists.2 ⟨eras, hkept⟩))
  have hzone' := (get?_zones.1 hkept').1
  obtain ⟨sources', hsources', _, hresolve'⟩ := exists_usableZone hzone'
  have hall' := (resolveZone_eq_ok.1 hresolve').1
  obtain rfl : sources = sources' :=
    Option.some.inj (hsources.symm.trans hsources')
  refine mem_policyYears_iff.2 ⟨zone, eras', hzone', ?_⟩
  rw [map_eraYears hall', hascend.sourceUse_kept (Int.le_of_lt hlt') hstop']
  exact hmem'

end Passes

/-- If the window is widened and no zone goes, the eras that are kept of a zone
are a contiguous part of those that are kept under the wider window, and the
rules that are kept of a policy are among those that are kept then, in the same
order. -/
theorem Database.retention_widens {o : Options} {w' : Window} {s : Source}
    {db db' : Database} (hscope : o.scope ≠ .basic) (hrules : s.RulesInOrder)
    (hyears : ∀ zone sources, s.zones.get? zone = some sources →
      sources.Pairwise fun a b => a.endYear ≤ b.endYear)
    (h : (ofSource o s).result = .ok db)
    (h' : (ofSource { o with window := w' } s).result = .ok db')
    (hfrom : w'.start ≤ o.window.start) (hto : o.window.stop ≤ w'.stop)
    (hzones : ∀ zone, db.zones.contains zone → db'.zones.contains zone) :
    (∀ zone sources, s.zones.get? zone = some sources →
      keptFrom o.window none sources <:+: keptFrom w' none sources ∧
      Opens (keptFrom o.window none sources)
        (TrimmedZone.of o.window sources).kept ∧
      Opens (keptFrom w' none sources) (TrimmedZone.of w' sources).kept) ∧
    ∀ name rules rules', db.policies.get? name = some rules →
      db'.policies.get? name = some rules' →
      (rules.filter (!·.isAnchor)).Sublist
        (rules'.filter (!·.isAnchor)) := by
  obtain ⟨hwindow, _, _, rfl⟩ := ofSource_eq_ok.1 h
  obtain ⟨hwindow', _, _, rfl⟩ := ofSource_eq_ok.1 h'
  constructor
  · intro zone sources hsources
    have hascend : YearsAscend none sources :=
      ⟨hyears zone sources hsources, nofun⟩
    obtain ⟨old, new, heq, _⟩ := hascend.exists_keptFrom_append hfrom hto
    exact ⟨⟨old, new, heq.symm⟩, TrimmedZone.opens_kept _ _,
      TrimmedZone.opens_kept _ _⟩
  · intro name rules rules' hpolicy hpolicy'
    obtain ⟨sources, resolved, hsources, hresolve, _, _, rfl⟩ :=
      Passes.exists_policy hpolicy
    obtain ⟨sources', resolved', hsources', hresolve', _, _, rfl⟩ :=
      Passes.exists_policy hpolicy'
    obtain rfl : sources = sources' :=
      Option.some.inj (hsources.symm.trans hsources')
    obtain rfl : resolved = resolved' :=
      Except.ok.inj (hresolve.symm.trans hresolve')
    -- both windows select from the same rules, and each need of the one is within a
    -- need of the other
    have hresolved : ∀ r ∈ resolved, r.fromYear ≤ r.toYear := by
      intro r hr
      obtain ⟨source, hsource, hrule⟩ :=
        forall₂_exists_left (resolvePolicy_eq_ok.1 hresolve) hr
      obtain ⟨_, rfl, _⟩ := SourceRule.resolve_eq_ok.1 hrule
      exact (hrules name sources hsources).2 source hsource
    exact RuleSelection.selected_sublist hresolved
      (not_isAnchor_of_resolvePolicy hresolve) fun y hy =>
        Passes.exists_policyYears (Options.simpleRules_eq_false hscope)
          (fun zone => (hrules.hasRules o zone).restrict)
          (fun zone sources hzone =>
            hyears zone sources (Source.get?_of_restrict hzone))
          hwindow hwindow' hfrom hto hzones hy

def twentyYears : Options := { twoYears with window := ⟨1990, 2010⟩ }

/-- A zone that is cut off on both sides of two years.  The rule of 1994 is the
last one before these years, and one of the twenty years has it. -/
def longText : SourceText where
  name := "t"
  text := "R P 1980 o - Apr 1 0 0 S\n" ++
    "R P 1994 o - Apr 1 0 1 D\n" ++
    "R P 2000 ma - Mar 1 0 0 S\n" ++
    "Z Z 0 - A 1992\n" ++
    " 1 P B%s 2008\n" ++
    " 2 - C\n"

theorem retention_widens_longText :
    ∃ db db' sources rules rules', MadeFrom twoYears [longText] db ∧
      MadeFrom twentyYears [longText] db' ∧
      (Source.empty.readTexts [] [longText]).source.zones.get? "Z" =
        some sources ∧
      (keptFrom twoYears.window none sources).length = 1 ∧
      (keptFrom twentyYears.window none sources).length = 3 ∧
      keptFrom twoYears.window none sources <:+:
        keptFrom twentyYears.window none sources ∧
      db.policies.get? "P" = some rules ∧
      db'.policies.get? "P" = some rules' ∧
      rules.length = 3 ∧ rules'.length = 4 ∧
      (rules.filter (!·.isAnchor)).Sublist
        (rules'.filter (!·.isAnchor)) := by
  have hrun : (Source.empty.readTexts [] [longText]).fault = none ∧
      (∃ db ∈ (Database.ofSource twoYears
        (Source.empty.readTexts [] [longText]).source).result.toOption,
        db.zones.keys = ["Z"] ∧
        ∃ rules ∈ db.policies.get? "P", rules.length = 3) ∧
      (∃ db ∈ (Database.ofSource twentyYears
        (Source.empty.readTexts [] [longText]).source).result.toOption,
        db.zones.keys = ["Z"] ∧
        ∃ rules ∈ db.policies.get? "P", rules.length = 4) ∧
      (∃ sources ∈
        (Source.empty.readTexts [] [longText]).source.zones.get? "Z",
        (keptFrom twoYears.window none sources).length = 1 ∧
          (keptFrom twentyYears.window none sources).length = 3) ∧
      ∀ p ∈ (Source.empty.readTexts [] [longText]).source.zones.entries,
        p.2.Pairwise fun a b => a.endYear ≤ b.endYear := by
    decide +kernel
  obtain ⟨hread, hmade, hmade', ⟨sources, hsources, hkept, hkept'⟩, hends⟩ :=
    hrun
  obtain ⟨db, hdb, hkeys, rules, hrules, hlength⟩ :=
    exists_eq_ok_of_toOption hmade
  obtain ⟨db', hdb', hkeys', rules', hrules', hlength'⟩ :=
    exists_eq_ok_of_toOption hmade'
  have hextended : twoYears.scope ≠ .basic := by decide
  obtain ⟨heras, hpolicies⟩ := Database.retention_widens hextended
    (Source.isProper_readTexts _ Source.IsProper.empty hread).rulesInOrder
    (fun zone sources hget => hends _ (NameMap.get?_eq_some_iff.1 hget))
    hdb hdb' (by decide) (by decide) fun zone hzone => by
      rw [NameMap.contains_iff_mem_keys, hkeys] at hzone
      rwa [NameMap.contains_iff_mem_keys, hkeys']
  exact ⟨db, db', sources, rules, rules', ⟨hread, hdb⟩, ⟨hread, hdb'⟩, hsources,
    hkept, hkept', (heras "Z" sources hsources).1, hrules, hrules', hlength,
    hlength', hpolicies "P" rules rules' hrules hrules'⟩

/-- Whether a policy loses a rule when the window is widened, though no zone goes
and the years in which eras end never decrease. -/
structure Source.LosesRule (o : Options) (w' : Window) (s : Source) (name : String) :
    Prop where
  years : ∀ zone sources, s.zones.get? zone = some sources →
    sources.Pairwise fun a b => a.endYear ≤ b.endYear
  wider : w'.start ≤ o.window.start ∧ o.window.stop ≤ w'.stop
  lost : ∃ db db' rules rules', (Database.ofSource o s).result = .ok db ∧
    (Database.ofSource { o with window := w' } s).result = .ok db' ∧
    (∀ zone, db.zones.contains zone → db'.zones.contains zone) ∧
    db.policies.get? name = some rules ∧ db'.policies.get? name = some rules' ∧
    ¬ (rules.filter (!·.isAnchor)).Sublist (rules'.filter (!·.isAnchor))

theorem Source.losesRule_of_length_lt {o : Options} {w' : Window} {s : Source}
    {name : String} (hfrom : w'.start ≤ o.window.start) (hto : o.window.stop ≤ w'.stop)
    (hyears : ∀ p ∈ s.zones.entries, p.2.Pairwise fun a b => a.endYear ≤ b.endYear)
    (hlost : ∃ db ∈ (Database.ofSource o s).result.toOption,
      ∃ db' ∈ (Database.ofSource { o with window := w' } s).result.toOption,
        db.zones.keys = db'.zones.keys ∧ ∃ rules ∈ db.policies.get? name,
          ∃ rules' ∈ db'.policies.get? name,
            (rules'.filter (!·.isAnchor)).length < (rules.filter (!·.isAnchor)).length) :
    s.LosesRule o w' name := by
  obtain ⟨db, hdb, db', hdb', hkeys, rules, hrules, rules', hrules', hlt⟩ := hlost
  refine ⟨fun zone sources hget => hyears _ (NameMap.get?_eq_some_iff.1 hget),
    ⟨hfrom, hto⟩, db, db', rules, rules', except_toOption_eq_some.1 hdb,
    except_toOption_eq_some.1 hdb', fun zone hzone => ?_, hrules, hrules',
    fun hsublist => ?_⟩
  · rw [NameMap.contains_iff_mem_keys] at hzone ⊢
    exact hkeys ▸ hzone
  · exact Nat.not_lt.2 hsublist.length_le hlt

def fiveYears : Options := { twoYears with window := ⟨1990, 1995⟩ }

def reversedLaterSource : Source :=
  (Source.empty.readTexts [] [⟨"t", "R P 1980 ma - Mar 1 0 0 S\n" ++
    "R P 2001 o - Apr 1 0 1 D\n" ++
    "Z Z 0 P E%s\n"⟩]).source.mapRules fun r =>
      if r.letter = "D" then { r with fromYear := 2100 } else r

/-- A policy without rules, which is named by an era of which twenty years need the
end.  There is no such end, so that the years in which the era before it needs its
policy count in five years only. -/
def emptyPolicySource : Source :=
  let source := (Source.empty.readTexts [] [⟨"t", "R Q 1991 o - Apr 1 0 0 A\n" ++
    "R Q 1992 o - Apr 1 0 0 B\n" ++
    "R Q 2004 o - Apr 1 0 0 C\n" ++
    "R E 1991 o - Apr 1 0 0 E\n" ++
    "Z Y 0 Q F%s 1994\n" ++
    " 0 E G 2003 Feb 30\n" ++
    " 0 - H\n" ++
    "Z Z 0 Q A%s 1990\n" ++
    " 0 - B 2005\n" ++
    " 0 Q C%s\n"⟩]).source
  { source with policies := source.policies.insert "E" [] }

/-- A rule that ends before it starts may be needed behind five years and not in
twenty.  Without rules in a policy a zone goes only after the rules of its other
policies were selected. -/
theorem losesRule_of_reversedRule_and_emptyPolicy :
    ((∀ p ∈ reversedLaterSource.policies.entries, p.2 ≠ []) ∧
      reversedLaterSource.LosesRule fiveYears twentyYears.window "P") ∧
    (∀ p ∈ emptyPolicySource.policies.entries, ∀ r ∈ p.2, r.fromYear ≤ r.toYear) ∧
      emptyPolicySource.LosesRule fiveYears twentyYears.window "Q" := by
  refine ⟨⟨by decide +kernel, ?_⟩, by decide +kernel, ?_⟩
  · exact Source.losesRule_of_length_lt (by decide) (by decide) (by decide +kernel)
      (by decide +kernel)
  · exact Source.losesRule_of_length_lt (by decide) (by decide) (by decide +kernel)
      (by decide +kernel)

end ZoneTables
