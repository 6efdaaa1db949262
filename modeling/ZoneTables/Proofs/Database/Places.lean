import ZoneTables.Database.OfSource
import ZoneTables.Proofs.Source.Places

/-!
# Places and databases

A record of a database keeps the text of its line and nothing else of where it
stood, and nothing that was counted while reading is looked at.  So the
database of a source is that of the same records without places.
-/

namespace ZoneTables

variable {α β γ : Type}

/-! ## Maps with changed values -/

namespace NameMap

theorem review_map (subject : Subject) (f : String → α → β)
    (g : String → β → Review γ) (m : NameMap α) :
    (m.map f).review subject g =
      m.review subject fun name a => g name (f name a) := by
  unfold review
  rw [map_map]

theorem review_result_map {subject : Subject} {g : String → α → Review β}
    {g' : String → α → Review γ} {f : β → γ} (m : NameMap α)
    (h : ∀ name a, g' name a = ⟨(g name a).notes, (g name a).result.map f⟩) :
    m.review subject g' =
      ⟨(m.review subject g).kept.map fun _ b => f b,
        (m.review subject g).findings⟩ := by
  have hkept : (m.review subject g').kept =
      (m.review subject g).kept.map fun _ b => f b := by
    refine eq_of_get?_eq fun name => ?_
    unfold review
    dsimp only
    rw [get?_map, get?_filterMap, get?_filterMap, get?_map, get?_map]
    cases m.get? name with
    | none => rfl
    | some a =>
      rw [Option.map_some, Option.map_some, Option.bind_some, Option.bind_some,
        h name a, Review.kept?, Review.kept?]
      cases (g name a).result <;> rfl
  have hfindings : (m.review subject g').findings =
      (m.review subject g).findings := by
    unfold review
    dsimp only
    rw [entries_map, entries_map, List.flatMap_map, List.flatMap_map]
    refine congrArg (m.entries.flatMap ·) (funext fun p => ?_)
    rw [h p.1 p.2, Review.findings, Review.findings]
    cases (g p.1 p.2).result <;> rfl
  rw [← hkept, ← hfindings]

end NameMap

/-! ## Checks of a source -/

namespace Source

variable (o : Options) (s : Source)

theorem restrict_unplaced :
    s.unplaced.restrict o =
      ⟨(s.restrict o).source.unplaced, (s.restrict o).findings⟩ := by
  have hzones : s.unplaced.zones.review .zone (fun name eras =>
        if o.includes name then Review.keep eras else .remove .notIncluded) =
      ⟨(s.zones.review .zone fun name eras =>
          if o.includes name then Review.keep eras
          else .remove .notIncluded).kept.map fun _ eras =>
            eras.map SourceEra.unplaced,
        (s.zones.review .zone fun name eras =>
          if o.includes name then Review.keep eras
          else .remove .notIncluded).findings⟩ := by
    refine (NameMap.review_map .zone
      (fun _ eras => eras.map SourceEra.unplaced) _ s.zones).trans ?_
    refine NameMap.review_result_map s.zones fun name eras => ?_
    split <;> rfl
  have hcontains : ∀ name, s.unplaced.zones.contains name =
      s.zones.contains name := fun name => NameMap.contains_map _ _ name
  unfold restrict
  dsimp only
  rw [hzones]
  simp only [hcontains]
  rfl

theorem fault?_unplaced : s.unplaced.fault? = s.fault? := by
  have htarget : s.unplaced.unknownTarget? = s.unknownTarget? := by
    unfold unknownTarget? unplaced
    simp only [NameMap.contains_map]
  have hpolicy : s.unplaced.unknownPolicy? = s.unknownPolicy? := by
    unfold unknownPolicy? unplaced
    simp only [NameMap.contains_map, NameMap.entries_map, List.findSome?_map,
      Function.comp_def]
    rfl
  have hclash : s.unplaced.nameClash? = s.nameClash? := by
    unfold nameClash? unplaced
    rw [NameMap.keys_map]
  rw [fault?, htarget, hpolicy, hclash, fault?]

theorem policyUse_unplaced : s.unplaced.policyUse = s.policyUse := by
  unfold policyUse unplaced
  simp only [NameMap.map_map, List.filterMap_map]
  rfl

theorem years_unplaced : s.unplaced.years = s.years := by
  unfold years unplaced
  simp only [NameMap.values_map, ← List.map_flatten, List.map_map,
    List.flatMap_map]
  rfl

end Source

/-! ## Retention and resolution -/

def TrimmedZone.unplaced (zone : TrimmedZone) : TrimmedZone :=
  { zone with kept := zone.kept.map SourceEra.unplaced }

theorem erasWithPlace_unplaced (window : Window) (eras : List SourceEra) :
    ∀ startYear,
      erasWithPlace window startYear (eras.map SourceEra.unplaced) =
        (erasWithPlace window startYear eras).map fun p =>
          (p.1.unplaced, p.2) := by
  induction eras with
  | nil => exact fun _ => rfl
  | cons era rest ih =>
    intro startYear
    exact congrArg _ (ih (some era.endYear))

theorem openLast_unplaced : ∀ eras : List SourceEra,
    openLast (eras.map SourceEra.unplaced) =
      (openLast eras).map SourceEra.unplaced
  | [] => rfl
  | [_] => rfl
  | era :: next :: rest =>
    congrArg (era.unplaced :: ·) (openLast_unplaced (next :: rest))

theorem TrimmedZone.of_unplaced (window : Window) (eras : List SourceEra) :
    of window (eras.map SourceEra.unplaced) = (of window eras).unplaced := by
  unfold of unplaced
  rw [erasWithPlace_unplaced, List.length_map]
  simp only [List.countP_map, List.filter_map, List.map_map, Function.comp_def]
  split
  · rw [List.map_map]
    rfl
  · rw [← openLast_unplaced, List.map_map]
    rfl

theorem TrimmedZone.review_unplaced (window : Window) (zone : TrimmedZone) :
    zone.unplaced.review window =
      ⟨(zone.review window).notes,
        (zone.review window).result.map (·.map SourceEra.unplaced)⟩ := by
  unfold review unplaced
  dsimp only
  rw [List.isEmpty_map]
  split
  · rfl
  · split <;> split <;> rfl

theorem Review.forAll_map (f : β → Review γ) (g : α → β) (l : List α) :
    forAll f (l.map g) = forAll (fun a => f (g a)) l := by
  induction l with
  | nil => rfl
  | cons a rest ih =>
    rw [List.map_cons, forAll, forAll, ih]

theorem resolveZone_unplaced (widths : Widths) (strict : Bool)
    (eras : List SourceEra) :
    resolveZone widths strict (eras.map SourceEra.unplaced) =
      resolveZone widths strict eras := by
  unfold resolveZone
  rw [Review.forAll_map]
  rfl

theorem resolvePolicy_unplaced (widths : Widths) (strict : Bool)
    (rules : List SourceRule) :
    resolvePolicy widths strict (rules.map SourceRule.unplaced) =
      resolvePolicy widths strict rules := by
  unfold resolvePolicy
  rw [Review.forAll_map]
  rfl

/-! ## The reviews as a whole -/

namespace Passes

variable (o : Options) (s : Source)

theorem trimmed_unplaced :
    (Passes.of o s.unplaced).trimmed =
      (Passes.of o s).trimmed.map fun _ zone => zone.unplaced := by
  have htrim : (s.zones.map fun _ eras => eras.map SourceEra.unplaced).map
        (fun _ eras => TrimmedZone.of o.window eras) =
      (s.zones.map fun _ eras => TrimmedZone.of o.window eras).map
        fun _ zone => zone.unplaced := by
    rw [NameMap.map_map, NameMap.map_map]
    simp only [TrimmedZone.of_unplaced]
  exact htrim

theorem inWindow_unplaced :
    (Passes.of o s.unplaced).inWindow =
      ⟨(Passes.of o s).inWindow.kept.map fun _ eras =>
          eras.map SourceEra.unplaced,
        (Passes.of o s).inWindow.findings⟩ := by
  change (Passes.of o s.unplaced).trimmed.review .zone
    (fun _ zone => zone.review o.window) = _
  rw [trimmed_unplaced, NameMap.review_map]
  exact NameMap.review_result_map _ fun _ zone =>
    zone.review_unplaced o.window

theorem resolvedZones_unplaced :
    (Passes.of o s.unplaced).resolvedZones = (Passes.of o s).resolvedZones := by
  change (Passes.of o s.unplaced).inWindow.kept.review .zone
    (fun _ eras => resolveZone o.widths o.strict eras) = _
  rw [inWindow_unplaced, NameMap.review_map]
  simp only [resolveZone_unplaced]
  rfl

theorem simpleZones_unplaced :
    (Passes.of o s.unplaced).simpleZones = (Passes.of o s).simpleZones := by
  change (Passes.of o s.unplaced).resolvedZones.kept.review .zone
    (fun _ eras => if o.widths.simpleRules then reviewSimpleZone eras
      else .keep eras) = _
  rw [resolvedZones_unplaced]
  rfl

theorem resolvedPolicies_unplaced :
    (Passes.of o s.unplaced).resolvedPolicies =
      (Passes.of o s).resolvedPolicies := by
  change (s.policies.map fun _ rules => rules.map SourceRule.unplaced).review
    .policy (fun name rules =>
      if (Zones.policyNames (Passes.of o s.unplaced).simpleZones.kept).contains
        name then resolvePolicy o.widths o.strict rules
      else .remove .unused) = _
  rw [simpleZones_unplaced, NameMap.review_map]
  simp only [resolvePolicy_unplaced]
  rfl

theorem of_unplaced :
    Passes.of o s.unplaced =
      { Passes.of o s with
        trimmed := (Passes.of o s).trimmed.map fun _ zone => zone.unplaced
        inWindow := ⟨(Passes.of o s).inWindow.kept.map fun _ eras =>
            eras.map SourceEra.unplaced,
          (Passes.of o s).inWindow.findings⟩ } := by
  have htrimmed := trimmed_unplaced o s
  have hwindow := inWindow_unplaced o s
  have hresolved := resolvedZones_unplaced o s
  have hzones := simpleZones_unplaced o s
  have hpolicies := resolvedPolicies_unplaced o s
  have hlinks : s.unplaced.links = s.links := rfl
  dsimp only [Passes.of] at htrimmed hwindow hresolved hzones hpolicies ⊢
  rw [hpolicies, hzones, hresolved, hwindow, htrimmed, hlinks]

end Passes

namespace Database

theorem make_unplaced (o : Options) (s : Source) (found : List Finding) :
    make o s.unplaced found = make o s found := by
  have hcut : ∀ p : TrimmedZone → Bool, (∀ zone, p zone.unplaced = p zone) →
      ((Passes.of o s).trimmed.map fun _ zone => zone.unplaced).values.any p =
        (Passes.of o s).trimmed.values.any p := by
    intro p hp
    rw [NameMap.values_map, List.any_map]
    exact congrArg _ (funext hp)
  have hbefore := hcut (fun zone => zone.tooOld != 0) fun _ => rfl
  have hafter := hcut (fun zone => zone.tooNew != 0) fun _ => rfl
  unfold make Passes.cutsBefore Passes.cutsAfter
  rw [Passes.of_unplaced, s.policyUse_unplaced, s.years_unplaced]
  dsimp only [Passes.findings]
  rw [hbefore, hafter]

/-- The database of a source is that of its records without places. -/
theorem ofSource_unplaced (o : Options) (s : Source) :
    ofSource o s.unplaced = ofSource o s := by
  have hchain : s.unplaced.linkChain? = s.linkChain? := rfl
  unfold ofSource
  dsimp only
  rw [hchain, s.restrict_unplaced]
  dsimp only
  rw [Source.fault?_unplaced, make_unplaced]

end Database

end ZoneTables
