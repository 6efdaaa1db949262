import ZoneTables.Proofs.Checked.Reading
import ZoneTables.Proofs.Retention.Accuracy
import ZoneTables.Proofs.Retention.Nesting

/-!
# Making a database in words of 32 bits

The window is checked before its years are used, and from then on every year is
within a few of the ordinary years.  Times are cut toward zero and do not grow.
-/

namespace ZoneTables.Checked

/-! ## Times and dates -/

def truncate (w : TimeWidth) (seconds : Int) : Checked Int := do
  let units ← quot seconds w.granularity
  mul units w.granularity

def fit (w : TimeWidth) (strict : Bool) (field : FittedField) (seconds : Int) :
    Checked (Review Int) := do
  let fitted ← truncate w seconds
  return if fitted = seconds then .keep seconds
  else
    let misfit : Misfit := ⟨field, seconds, w.granularity⟩
    if strict then .remove (.misfit misfit)
    else do
      Review.note (.truncated misfit fitted)
      return fitted

def dateIn (year : Int) (month : Nat) : DaySpec → Checked (Option Date)
  | .exact day => return Date.ofParts? year month day
  | .last w =>
    (Date.ofParts? year month (daysInMonth year month)).mapM fun d =>
      date (d.onOrBefore w)
  | .onOrAfter w day =>
    (Date.ofParts? year month day).mapM fun d => date (d.onOrAfter w)
  | .onOrBefore w day =>
    (Date.ofParts? year month day).mapM fun d => date (d.onOrBefore w)

def occurrence? (r : Rule) (year : Int) : Checked (Option LocalTime) := do
  let date ← dateIn year r.month r.day
  return date.map fun date => ⟨date, r.time⟩

theorem truncate_eq {w : TimeWidth} {seconds : Int}
    (h : seconds.natAbs ≤ Clock.greatest) :
    truncate w seconds = .ok (w.truncate seconds) := by
  have hunits : (seconds.tdiv w.granularity).natAbs ≤ seconds.natAbs := by
    rw [Int.natAbs_tdiv]
    exact Nat.div_le_self _ _
  have hproduct := w.natAbs_truncate_le seconds
  rw [truncate, quot, signed_of_natAbs_le (by omega), ok_bind]
  exact signed_of_natAbs_le (n := w.truncate seconds) (by omega)

theorem fit_eq {w : TimeWidth} {strict : Bool} {field : FittedField} {seconds : Int}
    (h : seconds.natAbs ≤ Clock.greatest) :
    fit w strict field seconds = .ok (w.fit strict field seconds) := by
  rw [fit, truncate_eq h, ok_bind]
  rfl

theorem dateIn_eq {year : Int} (h : Year.least ≤ year) (h' : year ≤ Year.endless)
    (month : Nat) (spec : DaySpec) :
    dateIn year month spec = .ok (spec.dateIn year month) := by
  have hstep : ∀ (spec : DaySpec) (first : Option Date) (step : Date → Date),
      spec.dateIn year month = first.map step →
      (first.mapM fun d => date (step d)) = .ok (first.map step) := by
    intro spec first step hspec
    cases first with
    | none => rfl
    | some d =>
      have hyear := DaySpec.year_of_dateIn (hspec.trans (Option.map_some ..))
      unfold Year.least at h
      unfold Year.endless at h'
      have hdate : date (step d) = .ok (step d) := by
        refine date_eq ?_
        unfold Date.firstYear Date.lastYear
        omega
      simp [hdate]
  cases spec with
  | exact day => rfl
  | last w => exact hstep (.last w) _ _ rfl
  | onOrAfter w day => exact hstep (.onOrAfter w day) _ _ rfl
  | onOrBefore w day => exact hstep (.onOrBefore w day) _ _ rfl

theorem occurrence?_eq {w : Widths} {r : Rule} (h : r.IsProper w) {year : Int}
    (hfrom : r.fromYear ≤ year) (hto : year ≤ r.toYear) :
    occurrence? r year = .ok (r.occurrence? year) := by
  have hleast := h.least_le
  have hendless := h.le_endless
  rw [occurrence?, dateIn_eq (by omega) (by omega), ok_bind]
  rfl

/-! ## Resolution -/

def resolveSaving (widths : Widths) (strict : Bool) (era : SourceEra) :
    Checked (Review Saving) := do
  if era.rules = "-" then return .keep .standard
  else if isAmountToken era.rules then
    match ← amount era.rules with
    | .error fault => return .remove (.invalidSaving fault)
    | .ok seconds =>
      let fitted ← fit widths.save strict .fixedSaving seconds
      return do
        let amount ← fitted
        if amount = 0 then Review.note .zeroSaving
        return .fixed amount
  else return .keep (.policy era.rules)

def resolveUntil (widths : Widths) (strict : Bool) :
    Option SourceUntil → Checked (Review Until)
  | none => return .keep .endless
  | some u => do
    match ← dateIn u.year u.month u.day with
    | none => return .remove (.missingUntilDay u.day u.year u.month)
    | some date =>
      if date.year ≠ u.year then
        return .remove (.untilLeavesYear u.day u.year u.month)
      else
        let fitted ← fit widths.time strict .untilTime u.seconds
        return do
          let seconds ← fitted
          return ⟨u.year, date.month, date.day, seconds, u.frame⟩

def resolveEra (widths : Widths) (strict : Bool) (era : SourceEra) :
    Checked (Review Era) := do
  let stdOffset ← fit widths.stdOffset strict .stdOffset era.stdOffset
  let saving ← resolveSaving widths strict era
  let ends ← resolveUntil widths strict era.ends
  return do
    let stdOffset ← stdOffset
    let saving ← saving
    era.reviewFormat saving
    let ends ← ends
    return ⟨stdOffset, saving, era.format, ends, tableText era.origin.text⟩

def resolveZone (widths : Widths) (strict : Bool) (eras : List SourceEra) :
    Checked (Review (List Era)) := do
  let resolved ← forAll (resolveEra widths strict) eras
  return do
    let eras ← resolved
    match outOfOrder? eras with
    | some (a, b) => .remove (.untilOrder a.ends b.ends)
    | none => return eras

def existsEveryYear (first last : Int) (month day : Nat) : Checked Bool :=
  if day ≤ 28 then return true
  else do
    let cycle ← add first 399
    let stop := min (min last cycle) Year.endless
    let years ← (List.range (stop + 1 - first).toNat).mapM fun i : Nat => add first i
    return years.all fun year => day ≤ daysInMonth year month

def reviewDay (rule : SourceRule) : Checked (Review Unit) :=
  if rule.day.mayLeaveYear rule.month then
    return .remove (.ruleLeavesYear rule.day rule.month)
  else
    match rule.day with
    | .exact day => do
      if ← existsEveryYear rule.fromYear rule.toYear rule.month day then
        return .keep ()
      else return .remove (.missingRuleDay day rule.month)
    | _ => return .keep ()

def resolveRule (widths : Widths) (strict : Bool) (rule : SourceRule) :
    Checked (Review Rule) := do
  let day ← reviewDay rule
  let time ← fit widths.time strict .ruleTime rule.time
  let save ← fit widths.save strict .save rule.save
  return do
    day
    let time ← time
    let save ← save
    return {
      fromYear := rule.fromYear
      toYear := rule.toYear
      month := rule.month
      day := rule.day
      time
      frame := rule.frame
      save
      letter := if rule.letter = "-" then "" else rule.letter
      isAnchor := false
      text := tableText rule.origin.text }

theorem resolveSaving_eq (widths : Widths) (strict : Bool) (era : SourceEra) :
    resolveSaving widths strict era = .ok (era.resolveSaving widths strict) := by
  unfold resolveSaving SourceEra.resolveSaving
  split
  · rfl
  · split
    · rw [amount_eq, ok_bind]
      cases hamount : Field.amount era.rules with
      | error fault => rfl
      | ok seconds =>
        dsimp only
        rw [fit_eq (Field.amount_le hamount), ok_bind]
        rfl
    · rfl

theorem resolveUntil_eq (widths : Widths) (strict : Bool) {ends : Option SourceUntil}
    (h : ∀ u, ends = some u → u.IsProper) :
    resolveUntil widths strict ends = .ok (SourceEra.resolveUntil widths strict ends) := by
  cases ends with
  | none => rfl
  | some u =>
    have hu := h u rfl
    rw [resolveUntil, dateIn_eq hu.least_le hu.le_endless, ok_bind, SourceEra.resolveUntil]
    cases u.day.dateIn u.year u.month with
    | none => rfl
    | some date =>
      dsimp only
      split
      · rfl
      · rw [fit_eq hu.seconds, ok_bind]
        rfl

theorem resolveEra_eq (widths : Widths) (strict : Bool) {era : SourceEra}
    (h : era.IsProper) :
    resolveEra widths strict era = .ok (era.resolve widths strict) := by
  rw [resolveEra, fit_eq h.stdOffset, ok_bind, resolveSaving_eq, ok_bind,
    resolveUntil_eq _ _ h.ends, ok_bind]
  rfl

theorem resolveZone_eq (widths : Widths) (strict : Bool) {eras : List SourceEra}
    (h : ∀ era ∈ eras, era.IsProper) :
    resolveZone widths strict eras = .ok (ZoneTables.resolveZone widths strict eras) := by
  rw [resolveZone, forAll_eq fun era hera => resolveEra_eq widths strict (h era hera),
    ok_bind]
  rfl

theorem existsEveryYear_eq {first last : Int} (h : Year.least ≤ first)
    (h' : first ≤ Year.endless) (month day : Nat) :
    existsEveryYear first last month day =
      .ok (ZoneTables.existsEveryYear first last month day) := by
  unfold existsEveryYear ZoneTables.existsEveryYear
  split
  · rfl
  · have hnever : Year.endless < Year.never := by decide
    rw [add, signed_of_year (by omega) (by omega), ok_bind]
    dsimp only
    rw [mapM_eq (g := fun i : Nat => first + i), ok_bind, List.all_map]
    · rfl
    · intro i hi
      have hlt := List.mem_range.1 hi
      exact signed_of_year (by omega) (by omega)

theorem reviewDay_eq {rule : SourceRule} (h : rule.IsProper) :
    reviewDay rule = .ok rule.reviewDay := by
  have hleast := h.least_le
  have hyears := h.years
  have hendless := h.le_endless
  unfold reviewDay SourceRule.reviewDay
  split
  · rfl
  · cases rule.day with
    | exact day =>
      dsimp only
      rw [existsEveryYear_eq hleast (by omega), ok_bind]
      split <;> rfl
    | _ => rfl

theorem resolvePolicy_eq (widths : Widths) (strict : Bool) {rules : List SourceRule}
    (h : ∀ r ∈ rules, r.IsProper) :
    forAll (resolveRule widths strict) rules = .ok (resolvePolicy widths strict rules) := by
  refine forAll_eq fun r hr => ?_
  have hproper := h r hr
  rw [resolveRule, reviewDay_eq hproper, ok_bind, fit_eq hproper.time, ok_bind,
    fit_eq hproper.save, ok_bind]
  rfl

/-! ## Retention -/

def place (window : Window) (startYear : Option Int) (era : SourceEra) :
    Checked EraPlace := do
  let before ← sub window.start 1
  let after ← add window.stop 1
  return if era.endYear < before then .tooOld
  else if startYear.any fun year => after < year then .tooNew
  else .kept

def erasWithPlace (window : Window) (startYear : Option Int) :
    List SourceEra → Checked (List (SourceEra × EraPlace))
  | [] => return []
  | era :: rest => do
    let first ← place window startYear era
    let others ← erasWithPlace window (some era.endYear) rest
    return (era, first) :: others

def trim (window : Window) (eras : List SourceEra) : Checked TrimmedZone := do
  let placed ← erasWithPlace window none eras
  let kept := (placed.filter fun p => p.2 == .kept).map Prod.fst
  let tooNew := placed.countP fun p => p.2 == .tooNew
  return {
    kept := if tooNew = 0 then kept else openLast kept
    tooOld := placed.countP fun p => p.2 == .tooOld
    tooNew
    total := eras.length }

def policyYears (window : Window) (zones : Zones) (policy : String) :
    Checked (List EraYears) := do
  let before ← sub window.start 1
  return zones.values.flatMap fun eras =>
    ((eraYears window.stop before eras).filter fun p =>
      p.1.saving.policy? == some policy).map Prod.snd

def need (rules : List Rule) (years : EraYears) : Checked RuleNeed := do
  let next ← add years.last 1
  return ⟨years, latestBefore? rules years.first, earliestFrom? rules next⟩

def needs (need : RuleNeed) (r : Rule) : Checked Bool := do
  let next ← add need.years.last 1
  return (decide (r.fromYear < next) && decide (need.years.first ≤ r.toYear)) ||
    need.before == some r.lastMonth || need.after == some r.lastMonth

def select (years : List EraYears) (rules : List Rule) : Checked RuleSelection := do
  let all ← years.mapM (need rules)
  let isKept := fun r => all.anyM fun need => needs need r
  let kept ← rules.filterMapM fun r => return if ← isKept r then some r else none
  let dropped ← rules.zipIdx.filterMapM fun p =>
    return if ← isKept p.1 then none else some (p.2, p.1)
  return { rules, kept, dropped }

def lastBefore? (rule : Rule) (year : Int) : Checked (Option LocalTime) := do
  if rule.isAnchor || decide (year ≤ rule.fromYear) then return none
  else
    let before ← sub year 1
    occurrence? rule (min rule.toYear before)

def ruleInForce? (rules : List Rule) (year : Int) : Checked (Option Rule) := do
  let occurrences ← rules.filterMapM fun rule =>
    return (← lastBefore? rule year).map fun time => (time, rule)
  return (firstGreatest? (fun a b => decide (a.1 < b.1)) occurrences).map Prod.snd

def startsBefore (a b : Rule) : Checked Bool := do
  if a.fromYear = b.fromYear then
    let first ← occurrence? a a.fromYear
    let second ← occurrence? b b.fromYear
    return match first, second with
    | none, some _ => true
    | some x, some y => decide (x.date < y.date)
    | _, none => false
  else return decide (a.fromYear < b.fromYear)

def firstStandardRule? (rules : List Rule) : Checked (Option Rule) :=
  choose? startsBefore (rules.filter fun rule => !rule.isAnchor && rule.save == 0)

def anchorRule (rules : List Rule) (year : Int) : Checked Rule := do
  let inForce ← ruleInForce? rules year
  let first ← firstStandardRule? rules
  let (save, letter, text) :=
    match inForce with
    | some rule => (rule.save, rule.letter, rule.text)
    | none =>
      match first with
      | some rule => (0, rule.letter, rule.text)
      | none => (0, "", (rules.head?.map (·.text)).getD "")
  return {
    fromYear := Year.least
    toYear := Year.least
    month := 1
    day := .exact 1
    time := 0
    frame := .wall
    save
    letter
    isAnchor := true
    text := "Anchor: " ++ text }

def reviewSelection (window : Window) (s : RuleSelection) :
    Checked (Review (List Rule)) := do
  if s.kept.isEmpty then return .remove (.noRulesNeeded window)
  else
    let before ← sub window.start 1
    let anchor ← anchorRule s.rules before
    return ⟨s.dropped.map fun p => .ruleDropped p.1 p.2,
      .ok (Rule.inOrder (anchor :: s.kept))⟩

section Window

variable {window : Window} (hwindow : window.fault? = none)
include hwindow

theorem year_before_eq : sub window.start 1 = .ok (window.start - 1) := by
  obtain ⟨hlt, hleast, hstop⟩ := Window.fault?_eq_none.1 hwindow
  have hnever : Year.endless < Year.never := by decide
  exact sub_one_eq (by omega) (by omega)

theorem year_after_eq : add window.stop 1 = .ok (window.stop + 1) := by
  obtain ⟨hlt, hleast, hstop⟩ := Window.fault?_eq_none.1 hwindow
  have hnever : Year.endless < Year.never := by decide
  exact add_one_eq (by omega) (by omega)

theorem erasWithPlace_eq (startYear : Option Int) (eras : List SourceEra) :
    erasWithPlace window startYear eras =
      .ok (ZoneTables.erasWithPlace window startYear eras) := by
  induction eras generalizing startYear with
  | nil => rfl
  | cons era rest ih =>
    rw [erasWithPlace, place, year_before_eq hwindow, ok_bind,
      year_after_eq hwindow, ok_bind, pure_eq, ok_bind, ih, ok_bind]
    rfl

theorem trim_eq (eras : List SourceEra) :
    trim window eras = .ok (TrimmedZone.of window eras) := by
  rw [trim, erasWithPlace_eq hwindow, ok_bind]
  rfl

theorem policyYears_eq (zones : Zones) (policy : String) :
    policyYears window zones policy = .ok (ZoneTables.policyYears window zones policy) := by
  rw [policyYears, year_before_eq hwindow, ok_bind]
  rfl

end Window

theorem select_eq {years : List EraYears} {rules : List Rule}
    (h : ∀ y ∈ years, Year.least ≤ y.last ∧ y.last ≤ Year.never) :
    select years rules = .ok (RuleSelection.of years rules) := by
  have hnext : ∀ y ∈ years, add y.last 1 = .ok (y.last + 1) := by
    intro y hy
    have := h y hy
    exact add_one_eq (by omega) (by omega)
  have hneed : years.mapM (need rules) = .ok (years.map (RuleNeed.of rules)) := by
    refine mapM_eq fun y hy => ?_
    rw [need, hnext y hy, ok_bind]
    rfl
  have hkept : ∀ r, (years.map (RuleNeed.of rules)).anyM (fun need => needs need r) =
      .ok ((years.map (RuleNeed.of rules)).any fun need => need.needs r) := by
    intro r
    refine anyM_eq fun need hneed => ?_
    obtain ⟨y, hy, rfl⟩ := List.mem_map.1 hneed
    rw [needs, RuleNeed.of, hnext y hy, ok_bind]
    rfl
  simp only [select, hneed, hkept, ok_bind, pure_eq]
  rw [filterMapM_eq fun _ _ => rfl, ok_bind, filterMapM_eq fun _ _ => rfl, ok_bind,
    RuleSelection.of, ← List.filterMap_eq_filter, ← List.filterMap_eq_filter,
    List.map_filterMap]
  congr 2
  refine congrArg (List.filterMap · _) (funext fun p => ?_)
  unfold Option.guard
  split <;> simp_all

section Rules

variable {w : Widths} {rules : List Rule} (hrules : ∀ r ∈ rules, r.IsProper w)
include hrules

theorem ruleInForce?_eq {year : Int} (hyear : year ≤ Year.endless) :
    ruleInForce? rules year = .ok (ZoneTables.ruleInForce? rules year) := by
  have hlast : ∀ r ∈ rules, lastBefore? r year = .ok (r.lastBefore? year) := by
    intro r hr
    have hproper := hrules r hr
    have hleast := hproper.least_le
    have hyears := hproper.years
    have hnever : Year.endless < Year.never := by decide
    unfold lastBefore? Rule.lastBefore?
    split
    · rfl
    · rename_i hbefore
      rw [Bool.or_eq_true, decide_eq_true_eq, not_or] at hbefore
      rw [sub_one_eq (by omega) (by omega), ok_bind]
      exact occurrence?_eq hproper (by omega) (by omega)
  rw [ruleInForce?, filterMapM_eq fun r hr => by rw [hlast r hr, ok_bind, pure_eq],
    ok_bind]
  rfl

theorem firstStandardRule?_eq :
    firstStandardRule? rules = .ok (ZoneTables.firstStandardRule? rules) := by
  refine choose?_eq fun a ha b hb => ?_
  have hfirst : ∀ r ∈ rules, occurrence? r r.fromYear = .ok (r.occurrence? r.fromYear) :=
    fun r hr => occurrence?_eq (hrules r hr) (Int.le_refl _) (hrules r hr).years
  unfold startsBefore Rule.startsBefore
  rw [hfirst a (List.mem_filter.1 ha).1, hfirst b (List.mem_filter.1 hb).1]
  split <;> rfl

theorem anchorRule_eq {year : Int} (hyear : year ≤ Year.endless) :
    anchorRule rules year = .ok (ZoneTables.anchorRule rules year) := by
  rw [anchorRule, ruleInForce?_eq hrules hyear, ok_bind, firstStandardRule?_eq hrules,
    ok_bind]
  unfold ZoneTables.anchorRule
  cases ZoneTables.ruleInForce? rules year <;> rfl

end Rules

theorem reviewSelection_eq {window : Window} (hwindow : window.fault? = none)
    {s : RuleSelection} {w : Widths} (hrules : ∀ r ∈ s.rules, r.IsProper w) :
    reviewSelection window s = .ok (s.review window) := by
  obtain ⟨hlt, hleast, hstop⟩ := Window.fault?_eq_none.1 hwindow
  unfold reviewSelection RuleSelection.review
  split
  · rfl
  · rw [year_before_eq hwindow, ok_bind, anchorRule_eq hrules (by omega), ok_bind]
    rfl

/-! ## Databases -/

def passes (o : Options) (source : Source) : Checked Passes := do
  let widths := o.widths
  let window := o.window
  let trimmed ← source.zones.traverse fun _ eras => trim window eras
  let inWindow := trimmed.review .zone fun _ zone => zone.review window
  let resolvedZones ← review .zone
    (fun _ eras => resolveZone widths o.strict eras) inWindow.kept
  let simpleZones := resolvedZones.kept.review .zone fun _ eras =>
    if widths.simpleRules then reviewSimpleZone eras else .keep eras
  let used := Zones.policyNames simpleZones.kept
  let resolvedPolicies ← review .policy
    (fun name rules =>
      if used.contains name then forAll (resolveRule widths o.strict) rules
      else return .remove .unused) source.policies
  let usableZones := Zones.reviewPolicies resolvedPolicies.kept simpleZones.kept
  let usableLinks := Links.reviewTargets usableZones.kept source.links
  let selections ← resolvedPolicies.kept.traverse fun name rules => do
    let years ← policyYears window usableZones.kept name
    select years rules
  let selectedPolicies ← review .policy (fun _ s => reviewSelection window s) selections
  let simplePolicies := selectedPolicies.kept.review .policy fun _ rules =>
    if widths.simpleRules then reviewSimplePolicy rules else .keep rules
  let zones := Zones.reviewPolicies simplePolicies.kept usableZones.kept
  let links := Links.reviewTargets zones.kept usableLinks.kept
  let stillUsed := Zones.policyNames zones.kept
  let policies := simplePolicies.kept.review .policy fun name rules =>
    if stillUsed.contains name then .keep rules else .remove .unused
  return Passes.mk trimmed inWindow resolvedZones simpleZones resolvedPolicies
    usableZones usableLinks selections selectedPolicies simplePolicies zones links
    policies

def make (o : Options) (source : Source) (found : List Finding) :
    Checked Database.Made := do
  let passes ← passes o source
  let zones := passes.zones.kept
  let policies := passes.policies.kept
  let findings := found ++ passes.findings ++ anomalyFindings zones policies
  return {
    database :=
      { zones
        policies
        links := passes.links.kept
        comments := .ofFindings findings source.policyUse
          (Zones.policyUse zones)
        window := o.window
        widths := o.widths
        strict := o.strict
        cutBefore := passes.cutsBefore o.window
        cutAfter := passes.cutsAfter o.window
        sourceYears := source.years
        years := tableYears zones policies }
    findings }

def makeDatabase (o : Options) (source : Source) : Checked Database.Making := do
  match o.window.fault?.or source.linkChain? with
  | some fault => return ⟨[], .error fault⟩
  | none =>
    let restricted := source.restrict o
    match restricted.source.fault? with
    | some fault => return ⟨Finding.log restricted.findings, .error fault⟩
    | none =>
      let made ← make o restricted.source restricted.findings
      return ⟨Finding.log made.findings ++ [made.database.summary],
        .ok made.database⟩

section Passes

variable {o : Options} {s : Source} (hwindow : o.window.fault? = none)
  (hs : s.IsProper none)

include hs in
theorem isProper_resolvedPolicy {name : String} {rules : List Rule}
    (h : (Passes.of o s).resolvedPolicies.kept.get? name = some rules) :
    ∀ r ∈ rules, r.IsProper o.widths := by
  obtain ⟨sources, hsources, _, hresolve⟩ := Passes.get?_resolvedPolicies.1 h
  intro r hr
  obtain ⟨source, hmem, hresolved⟩ :=
    forall₂_exists_left (resolvePolicy_eq_ok.1 hresolve) hr
  obtain ⟨_, rfl, _⟩ := SourceRule.resolve_eq_ok.1 hresolved
  exact SourceRule.isProper_resolved ((hs.rules hsources).2 source hmem)

include hs in
theorem resolvedPolicies_eq :
    review .policy
      (fun name rules =>
        if (Zones.policyNames (Passes.of o s).simpleZones.kept).contains name then
          forAll (resolveRule o.widths o.strict) rules
        else return .remove .unused) s.policies =
      .ok (Passes.of o s).resolvedPolicies := by
  refine review_eq (g := fun name rules =>
    if (Zones.policyNames (Passes.of o s).simpleZones.kept).contains name then
      resolvePolicy o.widths o.strict rules
    else .remove .unused) fun name rules hrules => ?_
  split
  · exact resolvePolicy_eq _ _ (hs.rules hrules).2
  · rfl

include hwindow hs

theorem last_of_mem_policyYears {name : String} {y : EraYears}
    (hy : y ∈ ZoneTables.policyYears o.window (Passes.of o s).usableZones.kept name) :
    Year.least ≤ y.last ∧ y.last ≤ Year.never := by
  obtain ⟨hlt, hleast, hstop⟩ := Window.fault?_eq_none.1 hwindow
  obtain ⟨zone, eras, hzone, hmem⟩ := mem_policyYears_iff.1 hy
  obtain ⟨⟨era, _⟩, hera, heq⟩ := List.mem_map.1 hmem
  obtain ⟨_, rfl⟩ := Prod.mk.inj heq
  rw [last_of_mem_eraYears hera]
  have hends := (Passes.isProper_usableZone hs hzone era
    (fst_mem_of_mem_eraYears hera)).ends.date
  have hendless : Year.endless < Year.never := by decide
  rcases hends with hend | ⟨hyear, _⟩
  · have hnever : era.ends.year = Year.never := beq_iff_eq.1 hend
    omega
  · omega

theorem selections_eq :
    ((Passes.of o s).resolvedPolicies.kept.traverse fun name rules => do
      let years ← policyYears o.window (Passes.of o s).usableZones.kept name
      select years rules) = .ok (Passes.of o s).selections := by
  refine traverse_eq (g := fun name rules => RuleSelection.of
    (ZoneTables.policyYears o.window (Passes.of o s).usableZones.kept name) rules)
    fun name rules _ => ?_
  rw [policyYears_eq hwindow, ok_bind]
  exact select_eq fun y hy => last_of_mem_policyYears hwindow hs hy

theorem passes_eq : passes o s = .ok (Passes.of o s) := by
  -- five of the passes compute; the others are those of the plain passes as they
  -- stand
  refine bind_eq (a := (Passes.of o s).trimmed)
    (traverse_eq fun _ eras _ => trim_eq hwindow eras) ?_
  refine bind_eq (a := (Passes.of o s).resolvedZones)
    (review_eq fun name eras heras => resolveZone_eq _ _ ?_) ?_
  · obtain ⟨sources, hsources, _, rfl⟩ := Passes.get?_inWindow.1 heras
    exact TrimmedZone.isProper_kept (hs.fields hsources)
  refine bind_eq (resolvedPolicies_eq hs) ?_
  refine bind_eq (selections_eq hwindow hs) ?_
  refine bind_eq (a := (Passes.of o s).selectedPolicies)
    (review_eq fun name selection hselection =>
      reviewSelection_eq (w := o.widths) hwindow ?_) ?_
  · obtain ⟨rules, hrules, rfl⟩ := Option.map_eq_some_iff.1
      ((NameMap.get?_map _ _ _).symm.trans hselection)
    exact isProper_resolvedPolicy hs hrules
  rfl

theorem make_eq (found : List Finding) :
    make o s found = .ok (Database.make o s found) := by
  rw [make, passes_eq hwindow hs, ok_bind]
  rfl

end Passes

/-- The window is in range before any of its years is used. -/
theorem makeDatabase_eq (o : Options) {s : Source} (hs : s.IsProper none) :
    makeDatabase o s = .ok (Database.ofSource o s) := by
  unfold makeDatabase Database.ofSource
  cases hfault : o.window.fault?.or s.linkChain? with
  | some fault => rfl
  | none =>
    obtain ⟨hwindow, _⟩ := Option.or_eq_none_iff.1 hfault
    dsimp only
    cases (s.restrict o).source.fault? with
    | some fault => rfl
    | none =>
      dsimp only
      rw [make_eq hwindow (Source.isProper_restrict hs), ok_bind]
      rfl

end ZoneTables.Checked
