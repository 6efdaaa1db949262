import ZoneTables.Compilation
import ZoneTables.Proofs.Positions
import ZoneTables.Proofs.Retention.Eras
import ZoneTables.Proofs.Retention.Rules

/-!
# Made databases

What is known of a database that was made of source texts: where each of its
zones, policies and links comes from, that their fields are proper, and that
every name in it stands for an entry of the database.
-/

namespace ZoneTables

/-- Whether a database was made of source texts that can be read. -/
structure MadeFrom (o : Options) (texts : List SourceText) (db : Database) :
    Prop where
  read : (Source.empty.readTexts [] texts).fault = none
  made : (Database.ofSource o (Source.empty.readTexts [] texts).source).result =
    .ok db

def twoYears : Options := ⟨⟨2000, 2002⟩, .extended, false, none⟩

def oneRuleText : SourceText := ⟨"t", "R P 1990 o - Apr 1 0 1 D\nZ Z 0 P E%s\n"⟩

/-! ## Sources without faults -/

theorem Source.get?_of_restrict {o : Options} {s : Source} {name : String}
    {eras : List SourceEra}
    (h : (s.restrict o).source.zones.get? name = some eras) :
    s.zones.get? name = some eras := by
  have hreview : (s.zones.review .zone fun name eras =>
      if o.includes name then Review.keep eras
      else .remove .notIncluded).kept.get? name = some eras := h
  rw [NameMap.get?_kept_review] at hreview
  obtain ⟨eras', heras, hkeep⟩ := hreview
  split at hkeep
  · cases hkeep
    exact heras
  · cases hkeep

theorem Source.isProper_restrict {o : Options} {s : Source}
    (h : s.IsProper none) : (s.restrict o).source.IsProper none :=
  ⟨fun hr => h.rules hr, fun he => h.fields (get?_of_restrict he),
    fun he => h.joined (get?_of_restrict he)⟩

theorem Database.ofSource_eq_ok {o : Options} {s : Source} {db : Database} :
    (Database.ofSource o s).result = .ok db ↔
      o.window.fault? = none ∧ s.linkChain? = none ∧
        (s.restrict o).source.fault? = none ∧
        db = (make o (s.restrict o).source (s.restrict o).findings).database := by
  unfold ofSource
  cases hwindow : o.window.fault? with
  | some fault => exact ⟨nofun, fun h => nomatch h.1⟩
  | none =>
    rw [Option.none_or]
    cases hchain : s.linkChain? with
    | some fault => exact ⟨nofun, fun h => nomatch h.2.1⟩
    | none =>
      dsimp only
      cases hfault : (s.restrict o).source.fault? with
      | some fault => exact ⟨nofun, fun h => nomatch h.2.2.1⟩
      | none =>
        constructor
        · intro h
          cases h
          exact ⟨rfl, rfl, rfl, rfl⟩
        · rintro ⟨_, _, _, rfl⟩
          rfl

theorem Window.fault?_eq_none {w : Window} :
    w.fault? = none ↔
      w.start < w.stop ∧ Year.least < w.start ∧ w.stop ≤ Year.endless := by
  unfold fault?
  by_cases hempty : w.isEmpty
  · rw [if_pos hempty]
    unfold isEmpty at hempty
    rw [decide_eq_true_eq] at hempty
    exact ⟨nofun, fun h => absurd h.1 (by omega)⟩
  · rw [if_neg hempty]
    unfold isEmpty at hempty
    rw [decide_eq_true_eq] at hempty
    unfold isInRange
    by_cases hrange : Year.least < w.start ∧ w.stop ≤ Year.endless
    · rw [decide_eq_true hrange.1, decide_eq_true hrange.2]
      exact ⟨fun _ => ⟨by omega, hrange⟩, fun _ => rfl⟩
    · rw [if_pos]
      · exact ⟨nofun, fun h => absurd h.2 hrange⟩
      · rw [Bool.not_eq_true', Bool.and_eq_false_iff, decide_eq_false_iff_not,
          decide_eq_false_iff_not]
        omega

/-! ## Passes -/

namespace Zones

theorem get?_kept_reviewPolicies {policies : Policies} {zones : Zones}
    {name : String} {eras : List Era} :
    (reviewPolicies policies zones).kept.get? name = some eras ↔
      zones.get? name = some eras ∧
        ∀ era ∈ eras, ∀ policy, era.saving = .policy policy →
          policies.contains policy := by
  have hpolicy : ∀ era : Era, ∀ policy,
      era.saving.policy? = some policy ↔ era.saving = .policy policy := by
    intro era policy
    cases era.saving <;> simp [Saving.policy?]
  unfold reviewPolicies
  rw [NameMap.get?_kept_review]
  constructor
  · rintro ⟨eras', heras, hkeep⟩
    split at hkeep
    · cases hkeep
    · rename_i hfind
      cases hkeep
      refine ⟨heras, fun era hera policy hp => ?_⟩
      rw [List.find?_eq_none] at hfind
      have hmem := hfind policy
        (List.mem_filterMap.2 ⟨era, hera, (hpolicy era policy).2 hp⟩)
      rwa [Bool.not_eq_true', Bool.not_eq_false] at hmem
  · rintro ⟨heras, hall⟩
    refine ⟨eras, heras, ?_⟩
    have hfind : (eras.filterMap (·.saving.policy?)).find?
        (fun policy => !policies.contains policy) = none := by
      rw [List.find?_eq_none]
      intro policy hmem
      obtain ⟨era, hera, hp⟩ := List.mem_filterMap.1 hmem
      rw [Bool.not_eq_true', Bool.not_eq_false]
      exact hall era hera policy ((hpolicy era policy).1 hp)
    rw [hfind]
    rfl

theorem contains_policyNames {zones : Zones} {policy : String} :
    (policyNames zones).contains policy ↔
      ∃ name eras, zones.get? name = some eras ∧
        ∃ era ∈ eras, era.saving.policy? = some policy := by
  unfold policyNames NameMap.values
  rw [NameSet.contains_ofList]
  simp only [List.mem_flatMap, List.mem_map, List.mem_filterMap]
  constructor
  · rintro ⟨eras, ⟨⟨name, eras'⟩, hmem, rfl⟩, era, hera, hp⟩
    exact ⟨name, eras', NameMap.get?_eq_some_iff.2 hmem, era, hera, hp⟩
  · rintro ⟨name, eras, hget, era, hera, hp⟩
    exact ⟨eras, ⟨(name, eras), NameMap.get?_eq_some_iff.1 hget, rfl⟩,
      era, hera, hp⟩

end Zones

theorem Links.get?_kept_reviewTargets {zones : Zones} {links : Links}
    {name target : String} :
    (reviewTargets zones links).kept.get? name = some target ↔
      links.get? name = some target ∧ zones.contains target := by
  unfold reviewTargets
  rw [NameMap.get?_kept_review]
  constructor
  · rintro ⟨target', htarget, hkeep⟩
    split at hkeep
    · rename_i hcontains
      cases hkeep
      exact ⟨htarget, hcontains⟩
    · cases hkeep
  · rintro ⟨htarget, hcontains⟩
    exact ⟨target, htarget, by rw [if_pos hcontains]; rfl⟩

theorem Review.result_ite_keep {α : Type} {c : Prop} [Decidable c] {a b : α}
    {why : Removal} :
    (if c then keep a else remove why).result = .ok b ↔ c ∧ a = b := by
  by_cases hc : c
  · rw [if_pos hc]
    exact ⟨fun h => ⟨hc, by cases h; rfl⟩, fun h => by rw [h.2]; rfl⟩
  · rw [if_neg hc]
    exact ⟨nofun, fun h => absurd h.1 hc⟩

theorem eq_of_reviewSimpleZone {eras kept : List Era}
    (h : (reviewSimpleZone eras).result = .ok kept) : kept = eras := by
  unfold reviewSimpleZone at h
  split at h
  · cases h
  · cases h
    rfl

theorem eq_of_reviewSimplePolicy {rules kept : List Rule}
    (h : (reviewSimplePolicy rules).result = .ok kept) : kept = rules := by
  unfold reviewSimplePolicy at h
  split at h
  · cases h
  · cases h
    rfl

namespace Passes

variable {o : Options} {s : Source} {name : String}

theorem get?_inWindow {eras : List SourceEra} :
    (Passes.of o s).inWindow.kept.get? name = some eras ↔
      ∃ sources, s.zones.get? name = some sources ∧
        (TrimmedZone.of o.window sources).kept ≠ [] ∧
        eras = (TrimmedZone.of o.window sources).kept := by
  have hreview : (Passes.of o s).inWindow.kept.get? name = some eras ↔
      ∃ zone, (s.zones.map fun _ eras => TrimmedZone.of o.window eras).get?
        name = some zone ∧ (zone.review o.window).result = .ok eras :=
    NameMap.get?_kept_review
  rw [hreview, NameMap.get?_map]
  constructor
  · rintro ⟨zone, hzone, hkeep⟩
    obtain ⟨sources, hsource, rfl⟩ := Option.map_eq_some_iff.1 hzone
    exact ⟨sources, hsource, TrimmedZone.review_eq_ok.1 hkeep⟩
  · rintro ⟨sources, hsource, hkept⟩
    exact ⟨_, by rw [hsource]; rfl, TrimmedZone.review_eq_ok.2 hkept⟩

theorem get?_resolvedZones {eras : List Era} :
    (Passes.of o s).resolvedZones.kept.get? name = some eras ↔
      ∃ sources, (Passes.of o s).inWindow.kept.get? name = some sources ∧
        (resolveZone o.widths o.strict sources).result = .ok eras :=
  NameMap.get?_kept_review

theorem of_simpleZones {eras : List Era}
    (h : (Passes.of o s).simpleZones.kept.get? name = some eras) :
    (Passes.of o s).resolvedZones.kept.get? name = some eras := by
  have hreview : ∃ resolved,
      (Passes.of o s).resolvedZones.kept.get? name = some resolved ∧
        (if o.widths.simpleRules then reviewSimpleZone resolved
          else .keep resolved).result = .ok eras :=
    NameMap.get?_kept_review.1 h
  obtain ⟨resolved, hresolved, hkeep⟩ := hreview
  split at hkeep
  · rw [eq_of_reviewSimpleZone hkeep]
    exact hresolved
  · cases hkeep
    exact hresolved

theorem get?_resolvedPolicies {rules : List Rule} :
    (Passes.of o s).resolvedPolicies.kept.get? name = some rules ↔
      ∃ sources, s.policies.get? name = some sources ∧
        (Zones.policyNames (Passes.of o s).simpleZones.kept).contains name ∧
        (resolvePolicy o.widths o.strict sources).result = .ok rules := by
  have hreview : (Passes.of o s).resolvedPolicies.kept.get? name = some rules ↔
      ∃ sources, s.policies.get? name = some sources ∧
        (if (Zones.policyNames (Passes.of o s).simpleZones.kept).contains name
          then resolvePolicy o.widths o.strict sources
          else .remove .unused).result = .ok rules :=
    NameMap.get?_kept_review
  rw [hreview]
  constructor
  · rintro ⟨sources, hsource, hkeep⟩
    split at hkeep
    · rename_i hused
      exact ⟨sources, hsource, hused, hkeep⟩
    · cases hkeep
  · rintro ⟨sources, hsource, hused, hkeep⟩
    exact ⟨sources, hsource, by rw [if_pos hused]; exact hkeep⟩

theorem get?_usableZones {eras : List Era} :
    (Passes.of o s).usableZones.kept.get? name = some eras ↔
      (Passes.of o s).simpleZones.kept.get? name = some eras ∧
        ∀ era ∈ eras, ∀ policy, era.saving = .policy policy →
          (Passes.of o s).resolvedPolicies.kept.contains policy :=
  Zones.get?_kept_reviewPolicies

theorem get?_selectedPolicies {rules : List Rule} :
    (Passes.of o s).selectedPolicies.kept.get? name = some rules ↔
      ∃ resolved,
        (Passes.of o s).resolvedPolicies.kept.get? name = some resolved ∧
        (RuleSelection.of (policyYears o.window
          (Passes.of o s).usableZones.kept name) resolved).kept ≠ [] ∧
        rules = (RuleSelection.of (policyYears o.window
          (Passes.of o s).usableZones.kept name) resolved).selected o.window := by
  have hreview : (Passes.of o s).selectedPolicies.kept.get? name = some rules ↔
      ∃ selection, ((Passes.of o s).resolvedPolicies.kept.map fun name rules =>
          RuleSelection.of (policyYears o.window
            (Passes.of o s).usableZones.kept name) rules).get? name =
          some selection ∧
        (selection.review o.window).result = .ok rules :=
    NameMap.get?_kept_review
  rw [hreview, NameMap.get?_map]
  constructor
  · rintro ⟨selection, hselection, hkeep⟩
    obtain ⟨resolved, hresolved, rfl⟩ := Option.map_eq_some_iff.1 hselection
    exact ⟨resolved, hresolved, RuleSelection.review_eq_ok.1 hkeep⟩
  · rintro ⟨resolved, hresolved, hkept⟩
    exact ⟨_, by rw [hresolved]; rfl, RuleSelection.review_eq_ok.2 hkept⟩

theorem of_simplePolicies {rules : List Rule}
    (h : (Passes.of o s).simplePolicies.kept.get? name = some rules) :
    (Passes.of o s).selectedPolicies.kept.get? name = some rules := by
  have hreview : ∃ selected,
      (Passes.of o s).selectedPolicies.kept.get? name = some selected ∧
        (if o.widths.simpleRules then reviewSimplePolicy selected
          else .keep selected).result = .ok rules :=
    NameMap.get?_kept_review.1 h
  obtain ⟨selected, hselected, hkeep⟩ := hreview
  split at hkeep
  · rw [eq_of_reviewSimplePolicy hkeep]
    exact hselected
  · cases hkeep
    exact hselected

theorem get?_zones {eras : List Era} :
    (Passes.of o s).zones.kept.get? name = some eras ↔
      (Passes.of o s).usableZones.kept.get? name = some eras ∧
        ∀ era ∈ eras, ∀ policy, era.saving = .policy policy →
          (Passes.of o s).simplePolicies.kept.contains policy :=
  Zones.get?_kept_reviewPolicies

theorem get?_links {target : String} :
    (Passes.of o s).links.kept.get? name = some target ↔
      (Passes.of o s).usableLinks.kept.get? name = some target ∧
        (Passes.of o s).zones.kept.contains target :=
  Links.get?_kept_reviewTargets

theorem get?_policies {rules : List Rule} :
    (Passes.of o s).policies.kept.get? name = some rules ↔
      (Passes.of o s).simplePolicies.kept.get? name = some rules ∧
        (Zones.policyNames (Passes.of o s).zones.kept).contains name := by
  have hreview : (Passes.of o s).policies.kept.get? name = some rules ↔
      ∃ rules', (Passes.of o s).simplePolicies.kept.get? name = some rules' ∧
        (if (Zones.policyNames (Passes.of o s).zones.kept).contains name then
          Review.keep rules' else .remove .unused).result = .ok rules :=
    NameMap.get?_kept_review
  rw [hreview]
  constructor
  · rintro ⟨rules', hget, hkeep⟩
    obtain ⟨hused, rfl⟩ := Review.result_ite_keep.1 hkeep
    exact ⟨hget, hused⟩
  · rintro ⟨hget, hused⟩
    exact ⟨rules, hget, Review.result_ite_keep.2 ⟨hused, rfl⟩⟩

theorem get?_policies_of_zone {zone : String} {eras : List Era}
    (hzone : (Passes.of o s).zones.kept.get? zone = some eras) {era : Era}
    (hera : era ∈ eras) (hsaving : era.saving = .policy name)
    {rules : List Rule}
    (h : (Passes.of o s).simplePolicies.kept.get? name = some rules) :
    (Passes.of o s).policies.kept.get? name = some rules := by
  refine get?_policies.2 ⟨h, ?_⟩
  rw [Zones.contains_policyNames]
  exact ⟨zone, eras, hzone, era, hera, by rw [hsaving]; rfl⟩

theorem exists_usableZone {eras : List Era}
    (h : (Passes.of o s).usableZones.kept.get? name = some eras) :
    ∃ sources, s.zones.get? name = some sources ∧
      (TrimmedZone.of o.window sources).kept ≠ [] ∧
      (resolveZone o.widths o.strict
        (TrimmedZone.of o.window sources).kept).result = .ok eras := by
  have hresolved := of_simpleZones (get?_usableZones.1 h).1
  obtain ⟨kept, hwindow, hresolve⟩ := get?_resolvedZones.1 hresolved
  obtain ⟨sources, hsource, hne, rfl⟩ := get?_inWindow.1 hwindow
  exact ⟨sources, hsource, hne, hresolve⟩

theorem exists_policy {rules : List Rule}
    (h : (Passes.of o s).policies.kept.get? name = some rules) :
    ∃ sources resolved, s.policies.get? name = some sources ∧
      (resolvePolicy o.widths o.strict sources).result = .ok resolved ∧
      (Passes.of o s).resolvedPolicies.kept.get? name = some resolved ∧
      (RuleSelection.of (policyYears o.window
        (Passes.of o s).usableZones.kept name) resolved).kept ≠ [] ∧
      rules = (RuleSelection.of (policyYears o.window
        (Passes.of o s).usableZones.kept name) resolved).selected o.window := by
  obtain ⟨resolved, hresolved, hkept, hrules⟩ :=
    get?_selectedPolicies.1 (of_simplePolicies (get?_policies.1 h).1)
  obtain ⟨sources, hsource, _, hresolve⟩ := get?_resolvedPolicies.1 hresolved
  exact ⟨sources, resolved, hsource, hresolve, hresolved, hkept, hrules⟩

end Passes

end ZoneTables
