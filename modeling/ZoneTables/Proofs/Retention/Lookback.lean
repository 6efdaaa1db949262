import ZoneTables.Proofs.Buffer.Lookback
import ZoneTables.Proofs.Database.Contents

/-!
# What kept rules say about the time before them

Rules before the years of an era are kept by their last month only, so that
the rule in force at a time in these years can be dropped, and kept rules are
put in the order of their first years, so that another one of several rules
that take effect at the same time can become the last.  The rule that is found
among the kept ones differs from the one that is found among all in these two
ways, and in no other.
-/

namespace ZoneTables

/-- Whether a rule that takes effect last before a time is dropped because a
kept rule, which does not take effect later, has a later last month. -/
structure Overlooked (kept : List Rule) (first : Int) (bound : LocalTime)
    (found : Rule) : Prop where
  dropped : found ∉ kept
  ends : found.toYear < first
  later : ∃ k ∈ kept, k.toYear < first ∧
    found.lastMonth.isBefore k.lastMonth ∧
    ∀ time, found.lastBeforeTime? bound = some time →
      ∀ t, k.lastBeforeTime? bound = some t → ¬ time < t

/-- Whether a rule comes behind one that takes effect at the same time only
when rules are put in the order of their first years. -/
structure Reordered (bound : LocalTime) (found selected : Rule) : Prop where
  sameTime : selected.lastBeforeTime? bound = found.lastBeforeTime? bound
  startsLater : found.fromYear < selected.fromYear

namespace RuleSelection

variable {window : Window} {years : List EraYears} {y : EraYears}
  {rules : List Rule} {bound : LocalTime} {found : Rule}

def full (window : Window) (rules : List Rule) : List Rule :=
  anchorRule rules (window.start - 1) :: rules

/-- A rule that is dropped though it starts early enough ends before the years
of need, and a rule of a later last month is kept. -/
theorem exists_later_of_dropped (hy : y ∈ years) (hmem : found ∈ rules)
    (hdropped : found ∉ (RuleSelection.of years rules).kept)
    (hfrom : found.fromYear ≤ y.last) :
    found.toYear < y.first ∧
      ∃ k ∈ (RuleSelection.of years rules).kept, k.toYear < y.first ∧
        found.lastMonth.isBefore k.lastMonth := by
  have hneeds : ¬ (RuleNeed.of rules y).needs found :=
    fun hneeds => hdropped (mem_kept.2 ⟨hmem, y, hy, hneeds⟩)
  rw [RuleNeed.needs_iff, not_or, not_or] at hneeds
  obtain ⟨hyears, hbefore, _⟩ := hneeds
  have hto : found.toYear < y.first := by omega
  obtain ⟨month, hmonth⟩ := exists_latestBefore? hmem hto
  obtain ⟨k, hk, hkto, rfl⟩ := exists_of_latestBefore? hmonth
  have hnot := not_isBefore_of_latestBefore? hmonth hmem hto
  refine ⟨hto, k, mem_kept.2 ⟨hk, y, hy, ?_⟩, hkto, ?_⟩
  · exact RuleNeed.needs_iff.2 (.inr (.inl hmonth))
  · by_contra hnot'
    exact hbefore (LastMonth.eq_of_not_isBefore hnot' hnot ▸ hmonth)

theorem not_later_of_selected {selected : Rule} {time : LocalTime}
    (hfull : latestRule? (full window rules) bound = some found)
    (htime : found.lastBeforeTime? bound = some time)
    (hmem : selected ∈ (RuleSelection.of years rules).selected window)
    {t : LocalTime} (ht : selected.lastBeforeTime? bound = some t) :
    ¬ time < t := by
  obtain ⟨_, time', htime', hgreatest⟩ := latestRule?_greatest hfull
  rw [htime] at htime'
  cases htime'
  refine hgreatest selected ?_ t ht
  rcases mem_selected.1 hmem with rfl | hkept
  · exact List.mem_cons_self
  · exact List.mem_cons_of_mem _ (mem_kept.1 hkept).1

private theorem filter_cons_filter {anchor : Rule} {front back : List Rule}
    {keeps p : Rule → Bool} (hsplit : anchor :: rules = front ++ found :: back)
    (hp : p found) (hback : back.filter p = [])
    (hkeeps : front ≠ [] → keeps found) :
    ∃ before, (anchor :: rules.filter keeps).filter p = before ++ [found] := by
  have hrest : (back.filter keeps).filter p = [] := by
    rw [List.filter_eq_nil_iff] at hback ⊢
    exact fun r hr => hback r (List.mem_filter.1 hr).1
  cases front with
  | nil =>
    obtain ⟨rfl, rfl⟩ := List.cons.inj hsplit
    exact ⟨[], by rw [List.filter_cons_of_pos hp, hrest, List.nil_append]⟩
  | cons head front =>
    obtain ⟨rfl, rfl⟩ := List.cons.inj hsplit
    have hkeep := hkeeps (List.cons_ne_nil _ _)
    refine ⟨(anchor :: front.filter keeps).filter p, ?_⟩
    have hlist : (front.append (found :: back)).filter keeps =
        front.filter keeps ++ found :: back.filter keeps := by
      rw [List.append_eq, List.filter_append, List.filter_cons_of_pos hkeep]
    rw [hlist, ← List.cons_append, List.filter_append,
      List.filter_cons_of_pos hp, hrest]

theorem lastBeforeTime?_eq_of_kept {selected : Rule}
    (hfull : latestRule? (full window rules) bound = some found)
    (hselected : latestRule? ((RuleSelection.of years rules).selected window)
      bound = some selected)
    (hkept : found ∈ (RuleSelection.of years rules).selected window) :
    selected.lastBeforeTime? bound = found.lastBeforeTime? bound := by
  obtain ⟨_, time, htime, _⟩ := latestRule?_greatest hfull
  obtain ⟨hmem, time', htime', hgreatest⟩ := latestRule?_greatest hselected
  have hnot := not_later_of_selected hfull htime hmem htime'
  have hnot' := hgreatest found hkept time htime
  rw [htime, htime', LocalTime.eq_of_not_lt hnot hnot']

/-- The rule that is found among the kept ones is the one that is found among
all if both start in the same year: each is the last of the rules of that year
and of their time, and sorting does not change the order of these. -/
theorem eq_of_fromYear_eq {selected : Rule}
    (hrules : ∀ r ∈ rules, r.isAnchor = false)
    (hfull : latestRule? (full window rules) bound = some found)
    (hselected : latestRule? ((RuleSelection.of years rules).selected window)
      bound = some selected)
    (hkept : found ∈ (RuleSelection.of years rules).selected window)
    (hyear : selected.fromYear = found.fromYear) : selected = found := by
  have hsame := lastBeforeTime?_eq_of_kept hfull hselected hkept
  obtain ⟨front, back, time, hsplit, htime, _, hback⟩ :=
    latestRule?_eq_some hfull
  obtain ⟨front', back', time', hsplit', htime', _, hback'⟩ :=
    latestRule?_eq_some hselected
  obtain rfl : time' = time := by
    rw [htime, htime'] at hsame
    exact Option.some.inj hsame
  -- of the rules with this first year and this time each look-up finds the last, and
  -- sorting by first years keeps the order of these
  let p : Rule → Bool := fun r => decide (r.fromYear = found.fromYear ∧
    r.lastBeforeTime? bound = some time')
  have hp : p found := decide_eq_true ⟨rfl, htime⟩
  have hp' : p selected := decide_eq_true ⟨hyear, htime'⟩
  have hnone : back.filter p = [] := by
    rw [List.filter_eq_nil_iff]
    intro r hr hpr
    exact LocalTime.lt_irrefl _ (hback r hr _ (of_decide_eq_true hpr).2)
  have hnone' : back'.filter p = [] := by
    rw [List.filter_eq_nil_iff]
    intro r hr hpr
    exact LocalTime.lt_irrefl _ (hback' r hr _ (of_decide_eq_true hpr).2)
  let keeps : Rule → Bool := fun r =>
    (years.map (RuleNeed.of rules)).any fun need => need.needs r
  have hkeeps : front ≠ [] → keeps found := by
    intro hfront
    rcases mem_selected.1 hkept with hanchor | hkept
    · -- an anchor stands at the front, not among the rules
      obtain ⟨head, front, rfl⟩ := List.exists_cons_of_ne_nil hfront
      have hfound : found ∈ rules := by
        rw [(List.cons.inj hsplit).2]
        exact List.mem_append_right _ List.mem_cons_self
      have hnotAnchor := hrules found hfound
      rw [hanchor, isAnchor_anchorRule] at hnotAnchor
      cases hnotAnchor
    · exact (List.mem_filter.1 hkept).2
  obtain ⟨before, hbefore⟩ := filter_cons_filter hsplit hp hnone hkeeps
  have hstable : (front' ++ selected :: back').filter p = before ++ [found] := by
    rw [← hsplit', ← hbefore]
    apply filter_sortByKey
    intro r r' hr hr'
    rw [(of_decide_eq_true hr).1, (of_decide_eq_true hr').1]
  rw [List.filter_append, List.filter_cons_of_pos hp', hnone'] at hstable
  exact (List.append_inj' hstable rfl).2 |> List.singleton_inj.1

theorem eq_or_reordered_of_kept {selected : Rule}
    (hrules : ∀ r ∈ rules, r.isAnchor = false)
    (hfull : latestRule? (full window rules) bound = some found)
    (hselected : latestRule? ((RuleSelection.of years rules).selected window)
      bound = some selected)
    (hkept : found ∈ (RuleSelection.of years rules).selected window) :
    selected = found ∨ Reordered bound found selected := by
  by_cases hyear : selected.fromYear = found.fromYear
  · exact .inl (eq_of_fromYear_eq hrules hfull hselected hkept hyear)
  · right
    have hsame := lastBeforeTime?_eq_of_kept hfull hselected hkept
    obtain ⟨front, back, time, hsplit, htime, _, hback⟩ :=
      latestRule?_eq_some hselected
    have hsorted : (front ++ selected :: back).Pairwise
        fun a b => a.fromYear ≤ b.fromYear := by
      rw [← hsplit]
      exact Rule.inOrder_sorted _
    refine ⟨hsame, ?_⟩
    rw [hsplit] at hkept
    rcases List.mem_append.1 hkept with hfront | hrest
    · -- the one found among all comes first, so it starts earlier
      have hle := (List.pairwise_append.1 hsorted).2.2 found hfront selected
        List.mem_cons_self
      omega
    · rcases List.mem_cons.1 hrest with rfl | hrest
      · exact absurd rfl hyear
      · rw [htime] at hsame
        exact absurd (hback found hrest time hsame.symm)
          (LocalTime.lt_irrefl time)

theorem overlooked_of_dropped {all : List Rule} (hall : ∀ r ∈ rules, r ∈ all)
    (hy : y ∈ years) (hmem : found ∈ rules) (hfrom : found.fromYear ≤ y.last)
    (hfound : latestRule? all bound = some found)
    (hdropped : found ∉ (RuleSelection.of years rules).selected window) :
    Overlooked ((RuleSelection.of years rules).selected window) y.first bound
      found := by
  obtain ⟨_, time, htime, hgreatest⟩ := latestRule?_greatest hfound
  have hkept : found ∉ (RuleSelection.of years rules).kept :=
    fun hkept => hdropped (mem_selected.2 (.inr hkept))
  obtain ⟨hto, k, hk, hkto, hkmonth⟩ :=
    exists_later_of_dropped hy hmem hkept hfrom
  refine ⟨hdropped, hto, k, mem_selected.2 (.inr hk), hkto, hkmonth, ?_⟩
  intro time' htime' t ht
  rw [htime] at htime'
  cases htime'
  exact hgreatest k (hall k (mem_kept.1 hk).1) t ht

theorem exists_latestRule?_selected (hbound : LocalTime.first < bound) :
    ∃ other, latestRule? ((RuleSelection.of years rules).selected window)
      bound = some other := by
  cases hother : latestRule? ((RuleSelection.of years rules).selected window)
      bound with
  | some other => exact ⟨other, rfl⟩
  | none =>
    have hanchor := lastBeforeTime?_anchorRule rules (window.start - 1) hbound
    have hnone := latestRule?_eq_none.1 hother _ (mem_selected.2 (.inl rfl))
    rw [hnone] at hanchor
    cases hanchor

/-- The rule that is found among the kept ones is the one that is found among
all, unless that one is overlooked or the two are reordered. -/
theorem latestRule?_selected {w : Widths}
    (hproper : ∀ r ∈ rules, r.IsProper w)
    (hrules : ∀ r ∈ rules, r.isAnchor = false) (hy : y ∈ years)
    (hfirst : y.first ≤ bound.date.year) (hlast : bound.date.year ≤ y.last)
    (hfull : latestRule? (full window rules) bound = some found) :
    ∃ other, latestRule? ((RuleSelection.of years rules).selected window)
        bound = some other ∧
      (other = found ∨
        Overlooked ((RuleSelection.of years rules).selected window) y.first
          bound found ∨
        Reordered bound found other) := by
  by_cases hkept : found ∈ (RuleSelection.of years rules).selected window
  · cases hother : latestRule? ((RuleSelection.of years rules).selected window)
        bound with
    | some other =>
      rcases eq_or_reordered_of_kept hrules hfull hother hkept with heq | hre
      · exact ⟨other, rfl, .inl heq⟩
      · exact ⟨other, rfl, .inr (.inr hre)⟩
    | none =>
      obtain ⟨_, time, htime, _⟩ := latestRule?_greatest hfull
      rw [latestRule?_eq_none.1 hother found hkept] at htime
      cases htime
  · obtain ⟨hmem, time, htime, _⟩ := latestRule?_greatest hfull
    have hrule : found ∈ rules := by
      refine (List.mem_cons.1 hmem).resolve_left ?_
      rintro rfl
      exact hkept (mem_selected.2 (.inl rfl))
    have hfrom : found.fromYear ≤ y.last := by
      obtain ⟨year, hfrom, hle, _, _⟩ := Rule.lastBeforeTime?_eq_some htime
      omega
    have hover := overlooked_of_dropped (fun _ => List.mem_cons_of_mem _) hy
      hrule hfrom hfull hkept
    have hbound : Year.least < bound.date.year := by
      have hends := hover.ends
      have hyears := (hproper found hrule).years
      have hleast := (hproper found hrule).least_le
      omega
    obtain ⟨other, hother⟩ :=
      exists_latestRule?_selected (LocalTime.first_lt_of_year hbound)
    exact ⟨other, hother, .inr (.inl hover)⟩

theorem latestRule?_selected_eq_none
    (hfull : latestRule? (full window rules) bound = none) :
    latestRule? ((RuleSelection.of years rules).selected window) bound =
      none := by
  rw [latestRule?_eq_none] at hfull ⊢
  intro r hr
  rcases mem_selected.1 hr with rfl | hkept
  · exact hfull _ List.mem_cons_self
  · exact hfull r (List.mem_cons_of_mem _ (mem_kept.1 hkept).1)

end RuleSelection

/-- Whether another rule is found among selected rules than among all, because
the one that is found among all is overlooked or reordered. -/
structure Displaced (all selected : List Rule) (first : Int)
    (bound : LocalTime) (found other : Rule) : Prop where
  inAll : latestRule? all bound = some found
  inSelected : latestRule? selected bound = some other
  cause : Overlooked selected first bound found ∨ Reordered bound found other

theorem Displaced.ne {all selected : List Rule} {first : Int}
    {bound : LocalTime} {found other : Rule}
    (h : Displaced all selected first bound found other) : found ≠ other := by
  rintro rfl
  rcases h.cause with hover | hre
  · exact hover.dropped (latestRule?_greatest h.inSelected).1
  · exact absurd hre.startsLater (Int.lt_irrefl _)

def savingAt? (rules : List Rule) (bound : LocalTime) : Option Int :=
  (latestRule? rules bound).map (·.save)

section Displacement

variable {window : Window} {years : List EraYears} {y : EraYears}
  {rules : List Rule} {bound : LocalTime} {w : Widths}
  (hproper : ∀ r ∈ rules, r.IsProper w)
  (hrules : ∀ r ∈ rules, r.isAnchor = false) (hy : y ∈ years)
  (hfirst : y.first ≤ bound.date.year) (hlast : bound.date.year ≤ y.last)

include hproper hrules hy hfirst hlast

theorem RuleSelection.latestRule?_selected_eq_iff :
    latestRule? ((RuleSelection.of years rules).selected window) bound =
        latestRule? (full window rules) bound ↔
      ¬ ∃ found other, Displaced (full window rules)
        ((RuleSelection.of years rules).selected window) y.first bound found
          other := by
  constructor
  · rintro heq ⟨found, other, h⟩
    rw [h.inSelected, h.inAll] at heq
    cases heq
    exact h.ne rfl
  · intro hnot
    cases hfull : latestRule? (full window rules) bound with
    | none => exact latestRule?_selected_eq_none hfull
    | some found =>
      obtain ⟨other, hother, heq | hcause⟩ :=
        latestRule?_selected hproper hrules hy hfirst hlast hfull
      · rw [hother, heq]
      · exact absurd ⟨found, other, hfull, hother, hcause⟩ hnot

theorem RuleSelection.savingAt?_selected_eq_iff :
    savingAt? ((RuleSelection.of years rules).selected window) bound =
        savingAt? (full window rules) bound ↔
      ∀ found other, Displaced (full window rules)
          ((RuleSelection.of years rules).selected window) y.first bound found
          other → found.save = other.save := by
  unfold savingAt?
  constructor
  · intro heq found other h
    rw [h.inSelected, h.inAll, Option.map_some, Option.map_some,
      Option.some.injEq] at heq
    exact heq.symm
  · intro hsame
    by_cases hnot : ∃ found other, Displaced (full window rules)
        ((RuleSelection.of years rules).selected window) y.first bound found
        other
    · obtain ⟨found, other, h⟩ := hnot
      rw [h.inSelected, h.inAll, Option.map_some, Option.map_some,
        hsame found other h]
    · rw [(latestRule?_selected_eq_iff hproper hrules hy hfirst hlast).2 hnot]

end Displacement

/-! ## Databases -/

theorem mem_policyYears {window : Window} {zones : Zones} {zone : String}
    {eras : List Era} {era : Era} {y : EraYears} {policy : String}
    (hzone : zones.get? zone = some eras)
    (hera : (era, y) ∈ eraYears window.stop (window.start - 1) eras)
    (hsaving : era.saving = .policy policy) :
    y ∈ policyYears window zones policy := by
  unfold policyYears
  have heras : eras ∈ zones.values :=
    List.mem_map.2 ⟨(zone, eras), NameMap.get?_eq_some_iff.1 hzone, rfl⟩
  refine List.mem_flatMap.2 ⟨eras, heras, List.mem_map.2 ⟨(era, y), ?_, rfl⟩⟩
  refine List.mem_filter.2 ⟨hera, ?_⟩
  rw [hsaving]
  exact beq_self_eq_true _

theorem fst_mem_of_mem_eraYears {stop : Int} {era : Era} {y : EraYears}
    {eras : List Era} :
    ∀ {startYear : Int}, (era, y) ∈ eraYears stop startYear eras → era ∈ eras := by
  induction eras with
  | nil => exact fun h => absurd h List.not_mem_nil
  | cons first rest ih =>
    intro startYear h
    rcases List.mem_cons.1 h with h | h
    · cases h
      exact List.mem_cons_self
    · exact List.mem_cons_of_mem _ (ih h)

/-- In the years of an era that follows a policy, the rule in force is found
among the rules of a made database as among all rules of the policy unless it
is displaced, and the saving unless the rules that are displaced and found in
their place save different amounts. -/
theorem MadeFrom.savingAt?_eq_iff {o : Options} {texts : List SourceText}
    {db : Database} (h : MadeFrom o texts db) {zone : String}
    {eras : List Era} (hzone : db.zones.get? zone = some eras) {era : Era}
    {y : EraYears}
    (hera : (era, y) ∈ eraYears db.window.stop (db.window.start - 1) eras)
    {policy : String} (hsaving : era.saving = .policy policy) :
    ∃ sources rules selected,
      (Source.empty.readTexts [] texts).source.policies.get? policy =
        some sources ∧
      (resolvePolicy db.widths db.strict sources).result = .ok rules ∧
      db.policies.get? policy = some selected ∧
      ∀ bound : LocalTime, y.first ≤ bound.date.year →
        bound.date.year ≤ y.last →
        (latestRule? selected bound =
            latestRule? (anchorRule rules (db.window.start - 1) :: rules)
              bound ↔
          ¬ ∃ found other,
            Displaced (anchorRule rules (db.window.start - 1) :: rules) selected
              y.first bound found other) ∧
        (savingAt? selected bound =
            savingAt? (anchorRule rules (db.window.start - 1) :: rules) bound ↔
          ∀ found other,
            Displaced (anchorRule rules (db.window.start - 1) :: rules) selected
              y.first bound found other → found.save = other.save) := by
  obtain ⟨s, hmade, hpolicies⟩ := h.exists_source
  have hmem := fst_mem_of_mem_eraYears hera
  obtain ⟨selected, hselected⟩ := hmade.contains_policy hzone hmem hsaving
  obtain ⟨sources, rules, hsource, hresolve, heq⟩ :=
    hmade.exists_policy hselected
  have husable : (Passes.of o s).usableZones.kept.get? zone = some eras := by
    rw [hmade.zones] at hzone
    exact (Passes.get?_zones.1 hzone).1
  have hy : y ∈ policyYears o.window (Passes.of o s).usableZones.kept policy := by
    rw [hmade.window] at hera
    exact mem_policyYears husable hera hsaving
  have hrules : ∀ r ∈ rules, r.isAnchor = false := by
    intro r hr
    obtain ⟨source, _, hresolved⟩ :=
      forall₂_exists_left (resolvePolicy_eq_ok.1 hresolve) hr
    obtain ⟨_, rfl, _⟩ := SourceRule.resolve_eq_ok.1 hresolved
    rfl
  refine ⟨sources, rules, selected, hpolicies ▸ hsource, ?_, hselected, ?_⟩
  · rw [hmade.widths, hmade.strict]
    exact hresolve
  · intro bound hfirst hlast
    rw [heq, hmade.window]
    have hproper := hmade.resolved_isProper hsource hresolve
    exact ⟨RuleSelection.latestRule?_selected_eq_iff hproper hrules hy hfirst
        hlast,
      RuleSelection.savingAt?_selected_eq_iff hproper hrules hy hfirst hlast⟩

theorem savingAt?_eq_iff_oneRuleText :
    ∃ db eras era y, MadeFrom twoYears [oneRuleText] db ∧
      db.zones.get? "Z" = some eras ∧
      (era, y) ∈ eraYears db.window.stop (db.window.start - 1) eras ∧
      era.saving = .policy "P" ∧
      ∃ sources rules selected,
        (Source.empty.readTexts [] [oneRuleText]).source.policies.get? "P" =
          some sources ∧
        (resolvePolicy db.widths db.strict sources).result = .ok rules ∧
        db.policies.get? "P" = some selected ∧
        ∀ bound : LocalTime, y.first ≤ bound.date.year →
          bound.date.year ≤ y.last →
          (latestRule? selected bound =
              latestRule? (anchorRule rules (db.window.start - 1) :: rules)
                bound ↔
            ¬ ∃ found other,
              Displaced (anchorRule rules (db.window.start - 1) :: rules)
                selected y.first bound found other) ∧
          (savingAt? selected bound =
              savingAt? (anchorRule rules (db.window.start - 1) :: rules)
                bound ↔
            ∀ found other,
              Displaced (anchorRule rules (db.window.start - 1) :: rules)
                selected y.first bound found other →
                found.save = other.save) := by
  have hrun : (Source.empty.readTexts [] [oneRuleText]).fault = none ∧
      ∃ db ∈ (Database.ofSource twoYears
        (Source.empty.readTexts [] [oneRuleText]).source).result.toOption,
        ∃ eras ∈ db.zones.get? "Z",
          ∃ p ∈ eraYears db.window.stop (db.window.start - 1) eras,
            p.1.saving = .policy "P" := by
    decide +kernel
  obtain ⟨hread, hmade⟩ := hrun
  obtain ⟨db, hdb, eras, hzone, ⟨era, y⟩, hera, hsaving⟩ :=
    exists_eq_ok_of_toOption hmade
  exact ⟨db, eras, era, y, ⟨hread, hdb⟩, hzone, hera, hsaving,
    MadeFrom.savingAt?_eq_iff ⟨hread, hdb⟩ hzone hera hsaving⟩

/-- The rule at the end of March 1992 takes effect on 5 April, after the one of
April, but ends in an earlier month. -/
def lateMarchText : SourceText where
  name := "t"
  text := "R P 1992 o - Mar Sun>=31 0 1 D\n" ++
    "R P 1992 o - Apr 1 0 0 S\n" ++
    "R Q 2000 o - May 31 23:30u 1 D\n" ++
    "Z Z 0 P E%s 2000 Jun\n" ++
    " 0 Q E%s\n"

/-- Where the first era ends the selected rules are on standard time, while
among all rules an hour is saved. -/
theorem savingAt?_ne_lateMarchText :
    ∃ db eras era y bound, MadeFrom twoYears [lateMarchText] db ∧
      db.zones.get? "Z" = some eras ∧
      (era, y) ∈ eraYears db.window.stop (db.window.start - 1) eras ∧
      era.saving = .policy "P" ∧ era.ends.localTime? = some bound ∧
      y.first ≤ bound.date.year ∧ bound.date.year ≤ y.last ∧
      ∃ sources rules selected,
        (Source.empty.readTexts [] [lateMarchText]).source.policies.get? "P" =
          some sources ∧
        (resolvePolicy db.widths db.strict sources).result = .ok rules ∧
        db.policies.get? "P" = some selected ∧
        savingAt? selected bound = some 0 ∧
        savingAt? (anchorRule rules (db.window.start - 1) :: rules) bound =
          some 3600 := by
  have hrun : (Source.empty.readTexts [] [lateMarchText]).fault = none ∧
      ∃ db ∈ (Database.ofSource twoYears
        (Source.empty.readTexts [] [lateMarchText]).source).result.toOption,
        ∃ eras ∈ db.zones.get? "Z",
          ∃ p ∈ eraYears db.window.stop (db.window.start - 1) eras,
            p.1.saving = .policy "P" ∧
            ∃ bound ∈ p.1.ends.localTime?,
              p.2.first ≤ bound.date.year ∧ bound.date.year ≤ p.2.last ∧
              ((db.policies.get? "P").bind fun selected =>
                savingAt? selected bound) = some 0 ∧
              ∃ sources ∈ (Source.empty.readTexts []
                  [lateMarchText]).source.policies.get? "P",
                ∃ rules ∈ (resolvePolicy db.widths db.strict
                    sources).result.toOption,
                  savingAt? (anchorRule rules (db.window.start - 1) :: rules)
                    bound = some 3600 := by
    decide +kernel
  obtain ⟨hread, hmade⟩ := hrun
  obtain ⟨db, hdb, eras, hzone, ⟨era, y⟩, hera, hsaving, bound, hbound, hfirst,
    hlast, hkept, sources, hsources, hrules⟩ := exists_eq_ok_of_toOption hmade
  obtain ⟨selected, hselected, hstandard⟩ := Option.bind_eq_some_iff.1 hkept
  obtain ⟨rules, hrules, hsummer⟩ := exists_eq_ok_of_toOption hrules
  exact ⟨db, eras, era, y, bound, ⟨hread, hdb⟩, hzone, hera, hsaving, hbound,
    hfirst, hlast, sources, rules, selected, hsources, hrules, hselected,
    hstandard, hsummer⟩

end ZoneTables
